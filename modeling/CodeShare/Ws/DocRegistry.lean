import CodeShare.Text.JsString
import Mathlib.Logic.Function.Basic

/-! # Shared documents

`yjsDocRegistry.ts`. Yjs, y-protocols and the bytes of their messages are a parameter. A document sends
every update to its connections, and a connection that cannot be sent to is removed, which sends the
removal of its awareness states to the others: `closeConn` and `broadcast` call each other.
-/

namespace CodeShare.Ws
set_option autoImplicit false

abbrev ConnId := ℕ

/-- An awareness client. -/
abbrev ClientId := ℕ

/-! ## Yjs -/

structure AwarenessChange where
  added : List ClientId
  updated : List ClientId
  removed : List ClientId

def AwarenessChange.changedClients (change : AwarenessChange) : List ClientId :=
  change.added ++ change.updated ++ change.removed

/-- What the server uses of Yjs and y-protocols. An update is merged and the update event, if there is
one, fires at once. -/
structure Yjs (Document Awareness Payload : Type) where
  newDoc : Document
  newAwareness : Awareness
  applyUpdate : Document → Payload → Document × Option Payload
  encodeStateVector : Document → Payload
  encodeStateAsUpdate : Document → Payload
  /-- With a state vector, which may be malformed. -/
  encodeDiff : Document → Payload → Option Payload
  byteLength : Payload → ℕ
  getStates : Awareness → List ClientId
  /-- Without a change when the update is malformed. -/
  applyAwarenessUpdate : Awareness → Payload → Awareness × Option AwarenessChange
  /-- With the states that were there. -/
  removeAwarenessStates : Awareness → List ClientId → Awareness × List ClientId
  encodeAwarenessUpdate : Awareness → List ClientId → Payload

/-- A websocket message, read. The type of `other` is unknown; of `unreadable` the type, the type below
it or the payload cannot be read. -/
inductive Message (Payload : Type) where
  | syncStep1 (stateVector : Payload)
  | syncStep2 (update : Payload)
  | syncUpdate (update : Payload)
  | awareness (update : Payload)
  | other
  | unreadable
  deriving DecidableEq

/-! ## Websockets -/

inductive ReadyState where
  | connecting
  | open
  | closing
  | closed
  deriving DecidableEq

structure Socket where
  readyState : ReadyState
  sendThrows : Bool

def Socket.alive (socket : Socket) : Bool :=
  socket.readyState = .connecting ∨ socket.readyState = .open

/-- The code and the reason. -/
structure CloseFrame where
  code : ℕ
  reason : JsString
  deriving DecidableEq

inductive WsEffect (Payload : Type) where
  | sent (conn : ConnId) (message : Message Payload)
  | closed (conn : ConnId) (frame : Option CloseFrame)
  | unhandledRejection
  deriving DecidableEq

/-! ## Documents -/

/-- The connections in the order in which they came, each with the awareness clients it controls. -/
structure WSSharedDoc (Document Awareness : Type) where
  name : JsString
  document : Document
  conns : List (ConnId × List ClientId)
  awareness : Awareness

namespace WSSharedDoc
variable {Document Awareness : Type} (doc : WSSharedDoc Document Awareness)

def has (conn : ConnId) : Bool := doc.conns.any (·.1 = conn)

def controlledIds (conn : ConnId) : List ClientId :=
  ((doc.conns.find? (·.1 = conn)).map Prod.snd).getD []

def delete (conn : ConnId) : WSSharedDoc Document Awareness :=
  { doc with conns := doc.conns.filter (·.1 ≠ conn) }

/-- `doc.conns.set(conn, new Set())`. -/
def register (conn : ConnId) : WSSharedDoc Document Awareness :=
  if doc.has conn then { doc with conns := doc.conns.map fun c => if c.1 = conn then (conn, []) else c }
  else { doc with conns := doc.conns ++ [(conn, [])] }

/-- A connection controls the clients that it adds until it removes them. -/
def control (conn : ConnId) (change : AwarenessChange) : WSSharedDoc Document Awareness :=
  { doc with conns := doc.conns.map fun c =>
      if c.1 = conn then
        (conn, (c.2 ++ change.added.filter (· ∉ c.2)).filter (· ∉ change.removed))
      else c }

end WSSharedDoc

/-- A document, the websockets and what has been written to them. -/
structure Hub (Document Awareness Payload : Type) where
  doc : WSSharedDoc Document Awareness
  sockets : ConnId → Socket
  out : List (WsEffect Payload)

section
variable {Document Awareness Payload : Type} (yjs : Yjs Document Awareness Payload)

namespace Hub
variable (w : Hub Document Awareness Payload) (conn : ConnId)

def emit (effect : WsEffect Payload) : Hub Document Awareness Payload :=
  { w with out := w.out ++ [effect] }

def setReadyState (state : ReadyState) : Hub Document Awareness Payload :=
  { w with sockets := Function.update w.sockets conn { w.sockets conn with readyState := state } }

/-- `conn.close`: nothing happens to a connection that is closing. -/
def close (frame : Option CloseFrame) : Hub Document Awareness Payload :=
  if (w.sockets conn).alive then (w.setReadyState conn .closing).emit (.closed conn frame) else w

/-- `conn.send`: `none` when it throws. What is sent to a closing connection is dropped. -/
def send (message : Message Payload) : Option (Hub Document Awareness Payload) :=
  if (w.sockets conn).sendThrows ∨ (w.sockets conn).readyState = .connecting then none
  else if (w.sockets conn).readyState = .open then some (w.emit (.sent conn message))
  else some w

end Hub

/-! ## Sending and removing -/

/-- `send` of the source, for a given way of removing connections. -/
def sendWith (closeConn : ConnId → Hub Document Awareness Payload → Hub Document Awareness Payload)
    (message : Message Payload) (w : Hub Document Awareness Payload) (conn : ConnId) :
    Hub Document Awareness Payload :=
  if (w.sockets conn).alive then (w.send conn message).getD (closeConn conn w)
  else closeConn conn w

/-- To the connections that are still there when it is their turn. -/
def broadcastWith (closeConn : ConnId → Hub Document Awareness Payload → Hub Document Awareness Payload)
    (message : Message Payload) (w : Hub Document Awareness Payload) : Hub Document Awareness Payload :=
  (w.doc.conns.map Prod.fst).foldl
    (fun w conn => if w.doc.has conn then sendWith closeConn message w conn else w) w

def awarenessMessage (awareness : Awareness) (clients : List ClientId) : Message Payload :=
  .awareness (yjs.encodeAwarenessUpdate awareness clients)

/-- `closeConn` of the source, for a given way of sending to all connections. -/
def closeConnWith
    (broadcast : Message Payload → Hub Document Awareness Payload → Hub Document Awareness Payload)
    (frame : Option CloseFrame) (conn : ConnId) (w : Hub Document Awareness Payload) :
    Hub Document Awareness Payload :=
  if w.doc.has conn then
    let (awareness, removed) := yjs.removeAwarenessStates w.doc.awareness (w.doc.controlledIds conn)
    let w := { w with doc := { w.doc.delete conn with awareness := awareness } }
    (if removed = [] then w else broadcast (awarenessMessage yjs awareness removed) w).close conn frame
  else w.close conn frame

/-- `closeConn` with the given depth of nested calls. -/
def closeConnFuel : ℕ → Option CloseFrame → ConnId → Hub Document Awareness Payload →
    Hub Document Awareness Payload
  | 0 => closeConnWith yjs fun _ w => w
  | depth + 1 => closeConnWith yjs (broadcastWith (closeConnFuel depth none))

/-- Every nested call has one connection less. -/
def closeConn (frame : Option CloseFrame) (conn : ConnId) (w : Hub Document Awareness Payload) :
    Hub Document Awareness Payload :=
  closeConnFuel yjs w.doc.conns.length frame conn w

def broadcast (message : Message Payload) (w : Hub Document Awareness Payload) :
    Hub Document Awareness Payload :=
  broadcastWith (closeConn yjs none) message w

/-- The listener of awareness updates. An update that has no connection as its origin changes no
controlled clients. -/
def onAwarenessUpdate (origin : ConnId) (change : AwarenessChange)
    (w : Hub Document Awareness Payload) : Hub Document Awareness Payload :=
  let w := { w with doc := w.doc.control origin change }
  broadcast yjs (awarenessMessage yjs w.doc.awareness change.changedClients) w

/-- The listener of document updates. -/
def onUpdate (update : Payload) (w : Hub Document Awareness Payload) :
    Hub Document Awareness Payload :=
  broadcast yjs (.syncUpdate update) w

/-- `new WSSharedDoc(name)`. -/
def newSharedDoc (name : JsString) : WSSharedDoc Document Awareness :=
  ⟨name, yjs.newDoc, [], yjs.newAwareness⟩

/-! ## The depth of nested calls -/

theorem close_doc (w : Hub Document Awareness Payload) (conn : ConnId) (frame : Option CloseFrame) :
    (w.close conn frame).doc = w.doc := by
  unfold Hub.close
  split_ifs <;> rfl

theorem send_doc {w w' : Hub Document Awareness Payload} {conn : ConnId} {message : Message Payload}
    (h : w.send conn message = some w') : w'.doc = w.doc := by
  unfold Hub.send at h
  split_ifs at h
  · cases h
    rfl
  · cases h
    rfl

theorem delete_length_le (doc : WSSharedDoc Document Awareness) (conn : ConnId) :
    (doc.delete conn).conns.length ≤ doc.conns.length :=
  List.length_filter_le _ _

theorem delete_length_lt {doc : WSSharedDoc Document Awareness} {conn : ConnId} (h : doc.has conn = true) :
    (doc.delete conn).conns.length < doc.conns.length := by
  obtain ⟨c, hc, hconn⟩ := List.any_eq_true.mp h
  exact List.length_filter_lt_length_iff_exists.mpr ⟨c, hc, by simpa using hconn⟩

section
variable {f f' : ConnId → Hub Document Awareness Payload → Hub Document Awareness Payload}
  {message : Message Payload}

theorem sendWith_length_le
    (hf : ∀ conn w, (f conn w).doc.conns.length ≤ w.doc.conns.length)
    (w : Hub Document Awareness Payload) (conn : ConnId) :
    (sendWith f message w conn).doc.conns.length ≤ w.doc.conns.length := by
  unfold sendWith
  split_ifs
  · cases hsend : w.send conn message with
    | none => exact hf conn w
    | some w' =>
      rw [Option.getD_some, send_doc hsend]
  · exact hf conn w

theorem broadcastWith_length_le
    (hf : ∀ conn w, (f conn w).doc.conns.length ≤ w.doc.conns.length)
    (w : Hub Document Awareness Payload) :
    (broadcastWith f message w).doc.conns.length ≤ w.doc.conns.length := by
  unfold broadcastWith
  generalize w.doc.conns.map Prod.fst = targets
  induction targets generalizing w with
  | nil => exact Nat.le_refl _
  | cons conn targets ih =>
    rw [List.foldl_cons]
    refine (ih _).trans ?_
    split_ifs
    · exact sendWith_length_le hf w conn
    · exact Nat.le_refl _

/-- Broadcasts agree when the removals agree on the connections that are there. -/
theorem broadcastWith_congr (w : Hub Document Awareness Payload)
    (hf : ∀ conn w, (f conn w).doc.conns.length ≤ w.doc.conns.length)
    (hsame : ∀ conn w', w'.doc.conns.length ≤ w.doc.conns.length → f conn w' = f' conn w') :
    broadcastWith f message w = broadcastWith f' message w := by
  unfold broadcastWith
  generalize w.doc.conns.map Prod.fst = targets
  induction targets generalizing w with
  | nil => rfl
  | cons conn targets ih =>
    rw [List.foldl_cons, List.foldl_cons]
    have hsend : sendWith f message w conn = sendWith f' message w conn := by
      unfold sendWith
      rw [hsame conn w (Nat.le_refl _)]
    rw [hsend]
    split_ifs
    · refine ih _ fun conn' w' hle => hsame conn' w' (hle.trans ?_)
      rw [← hsend]
      exact sendWith_length_le hf w conn
    · exact ih w hsame

end

theorem closeConnFuel_length_le (depth : ℕ) (frame : Option CloseFrame) (conn : ConnId)
    (w : Hub Document Awareness Payload) :
    (closeConnFuel yjs depth frame conn w).doc.conns.length ≤ w.doc.conns.length := by
  induction depth generalizing frame conn w with
  | zero =>
    unfold closeConnFuel closeConnWith
    split_ifs
    · dsimp only
      rw [close_doc, ite_self]
      exact delete_length_le w.doc conn
    · rw [close_doc]
  | succ depth ih =>
    unfold closeConnFuel closeConnWith
    split_ifs
    · dsimp only
      rw [close_doc]
      split_ifs
      · exact delete_length_le w.doc conn
      · exact (broadcastWith_length_le (ih none) _).trans (delete_length_le w.doc conn)
    · rw [close_doc]

/-- More depth than there are connections makes no difference. -/
theorem closeConnFuel_congr {depth depth' : ℕ} (frame : Option CloseFrame) (conn : ConnId)
    {w : Hub Document Awareness Payload} (h : w.doc.conns.length ≤ depth)
    (h' : w.doc.conns.length ≤ depth') :
    closeConnFuel yjs depth frame conn w = closeConnFuel yjs depth' frame conn w := by
  induction depth generalizing depth' frame conn w with
  | zero =>
    have hnone : w.doc.conns = [] := List.length_eq_zero_iff.mp (Nat.le_zero.mp h)
    have hhas : w.doc.has conn = false := by
      unfold WSSharedDoc.has
      rw [hnone]
      rfl
    cases depth' with
    | zero => rfl
    | succ depth' => simp only [closeConnFuel, closeConnWith, hhas, Bool.false_eq_true, if_false]
  | succ depth ih =>
    cases hhas : w.doc.has conn with
    | false =>
      cases depth' <;> simp only [closeConnFuel, closeConnWith, hhas, Bool.false_eq_true, if_false]
    | true =>
      have hlt := delete_length_lt hhas
      cases depth' with
      | zero => omega
      | succ depth' =>
        simp only [closeConnFuel, closeConnWith, hhas, if_true]
        congr 1
        split_ifs
        · rfl
        · refine broadcastWith_congr _ (fun conn w => closeConnFuel_length_le yjs depth none conn w)
            fun conn' w' hle => ih none conn' ?_ ?_
          · have hle : w'.doc.conns.length ≤ (w.doc.delete conn).conns.length := hle
            omega
          · have hle : w'.doc.conns.length ≤ (w.doc.delete conn).conns.length := hle
            omega

/-- The recursion of the source: a removal sends with `broadcast`, which removes with `closeConn`. -/
theorem closeConn_eq (frame : Option CloseFrame) (conn : ConnId) (w : Hub Document Awareness Payload) :
    closeConn yjs frame conn w = closeConnWith yjs (broadcast yjs) frame conn w := by
  unfold closeConn
  rw [closeConnFuel_congr yjs frame conn (Nat.le_refl _) (Nat.le_succ _)]
  cases hhas : w.doc.has conn with
  | false => simp only [closeConnFuel, closeConnWith, hhas, Bool.false_eq_true, if_false]
  | true =>
    simp only [closeConnFuel, closeConnWith, hhas, if_true]
    congr 1
    split_ifs
    · rfl
    · refine broadcastWith_congr _ (fun conn w => closeConnFuel_length_le yjs _ none conn w)
        fun conn' w' hle => ?_
      exact closeConnFuel_congr yjs none conn' (hle.trans (delete_length_le w.doc conn)) (Nat.le_refl _)

/-! ## What removals keep -/

/-- What holds of a document and its sockets whatever connections are removed. -/
structure Stable (I : Hub Document Awareness Payload → Prop) : Prop where
  sent : ∀ w conn update, I w → I (w.emit (.sent conn (.awareness update)))
  removed : ∀ w conn awareness, I w → I { w with doc := { w.doc.delete conn with awareness := awareness } }
  closed : ∀ w conn, I w → I (w.close conn none)

section
variable {I : Hub Document Awareness Payload → Prop}

theorem broadcastWith_keeps {f : ConnId → Hub Document Awareness Payload → Hub Document Awareness Payload}
    {message : Message Payload} (hf : ∀ conn w, I w → I (f conn w))
    (hsent : ∀ w conn, I w → I (w.emit (.sent conn message))) {w : Hub Document Awareness Payload}
    (h : I w) : I (broadcastWith f message w) := by
  unfold broadcastWith
  generalize w.doc.conns.map Prod.fst = targets
  induction targets generalizing w with
  | nil => exact h
  | cons conn targets ih =>
    rw [List.foldl_cons]
    apply ih
    split_ifs
    · unfold sendWith
      split_ifs
      · unfold Hub.send
        split_ifs
        · exact hf conn w h
        · exact hsent w conn h
        · exact h
      · exact hf conn w h
    · exact h

variable (hI : Stable I)
include hI

theorem Stable.closeConnWith {broadcast : Message Payload → Hub Document Awareness Payload →
      Hub Document Awareness Payload} {frame : Option CloseFrame} {conn : ConnId}
    (hbroadcast : ∀ update w, I w → I (broadcast (.awareness update) w))
    (hclose : ∀ w, I w → I (w.close conn frame)) {w : Hub Document Awareness Payload} (h : I w) :
    I (closeConnWith yjs broadcast frame conn w) := by
  unfold Ws.closeConnWith
  split_ifs
  · dsimp only
    apply hclose
    split_ifs
    · exact hI.removed w conn _ h
    · exact hbroadcast _ _ (hI.removed w conn _ h)
  · exact hclose w h

theorem Stable.closeConnFuel (depth : ℕ) {frame : Option CloseFrame} {conn : ConnId}
    (hclose : ∀ w, I w → I (w.close conn frame)) {w : Hub Document Awareness Payload} (h : I w) :
    I (closeConnFuel yjs depth frame conn w) := by
  induction depth generalizing frame conn w with
  | zero => exact hI.closeConnWith yjs (fun _ _ h => h) hclose h
  | succ depth ih =>
    refine hI.closeConnWith yjs (fun update w h => ?_) hclose h
    exact broadcastWith_keeps (fun conn w h => ih (fun w => hI.closed w conn) h)
      (fun w conn => hI.sent w conn update) h

theorem Stable.closeConn {frame : Option CloseFrame} {conn : ConnId}
    (hclose : ∀ w, I w → I (w.close conn frame)) {w : Hub Document Awareness Payload} (h : I w) :
    I (closeConn yjs frame conn w) :=
  hI.closeConnFuel yjs _ hclose h

theorem Stable.closeConn_none {conn : ConnId} {w : Hub Document Awareness Payload} (h : I w) :
    I (Ws.closeConn yjs none conn w) :=
  hI.closeConn yjs (fun w => hI.closed w conn) h

theorem Stable.broadcast {message : Message Payload}
    (hsent : ∀ w conn, I w → I (w.emit (.sent conn message))) {w : Hub Document Awareness Payload}
    (h : I w) : I (broadcast yjs message w) :=
  broadcastWith_keeps (fun _ _ h => hI.closeConn_none yjs h) hsent h

end

end
end CodeShare.Ws
