import CodeShare.Ws.DocRegistry

/-! # Broadcasts

The two listeners of a document broadcast what they are told of. `send`, `closeConn` and the listeners call each other:
run with a limit on the depth of their calls, where `none` is a call that goes deeper, they return as soon as the limit
is above the number of connections.
-/

namespace CodeShare.Ws
set_option autoImplicit false

section
variable {Document Awareness Payload : Type} (yjs : Yjs Document Awareness Payload)

/-! ## Updates -/

/-- What a listener of the document is told of. -/
inductive SharedDocUpdate (Payload : Type) where
  | documentUpdate (update : Payload)
  | awarenessUpdate (origin : Option ConnId) (change : AwarenessChange)

namespace SharedDocUpdate
/-- The hub when the listener has recorded which clients the origin controls. -/
def recorded (w : Hub Document Awareness Payload) : SharedDocUpdate Payload → Hub Document Awareness Payload
  | awarenessUpdate (some origin) change => { w with doc := w.doc.control origin change }
  | _ => w

def message (w : Hub Document Awareness Payload) : SharedDocUpdate Payload → Message Payload
  | documentUpdate update => .syncUpdate update
  | awarenessUpdate _ change => awarenessMessage yjs w.doc.awareness change.changedClients

def listener (w : Hub Document Awareness Payload) : SharedDocUpdate Payload → Hub Document Awareness Payload
  | documentUpdate update => onUpdate yjs update w
  | awarenessUpdate (some origin) change => onAwarenessUpdate yjs origin change w
  | awarenessUpdate none change => broadcast yjs (awarenessMessage yjs w.doc.awareness change.changedClients) w

theorem listener_eq (w : Hub Document Awareness Payload) (update : SharedDocUpdate Payload) :
    update.listener yjs w = broadcast yjs (update.message yjs w) (update.recorded w) := by
  match update with
  | documentUpdate _ => rfl
  | awarenessUpdate none _ => rfl
  | awarenessUpdate (some _) _ => rfl

end SharedDocUpdate

/-! ## Nested calls -/

def sendRun (closeConn : ConnId → Hub Document Awareness Payload → Option (Hub Document Awareness Payload))
    (message : Message Payload) (w : Hub Document Awareness Payload) (conn : ConnId) :
    Option (Hub Document Awareness Payload) :=
  if (w.sockets conn).alive then
    match w.send conn message with
    | some w => some w
    | none => closeConn conn w
  else closeConn conn w

def broadcastRun (closeConn : ConnId → Hub Document Awareness Payload → Option (Hub Document Awareness Payload))
    (message : Message Payload) (w : Hub Document Awareness Payload) : Option (Hub Document Awareness Payload) :=
  (w.doc.conns.map Prod.fst).foldlM
    (fun w conn => if w.doc.has conn then sendRun closeConn message w conn else some w) w

/-- `closeConn` when at most so many calls of it are open at once. -/
def closeConnRun : ℕ → Option CloseFrame → ConnId → Hub Document Awareness Payload →
    Option (Hub Document Awareness Payload)
  | 0, _, _, _ => none
  | depth + 1, frame, conn, w =>
    if w.doc.has conn then
      let (awareness, removed) := yjs.removeAwarenessStates w.doc.awareness (w.doc.controlledIds conn)
      let w := { w with doc := { w.doc.delete conn with awareness := awareness } }
      (if removed = [] then some w
        else broadcastRun (closeConnRun depth none) (awarenessMessage yjs awareness removed) w).map (·.close conn frame)
    else some (w.close conn frame)

variable {yjs} {message : Message Payload}

theorem closeConn_length_le (frame : Option CloseFrame) (conn : ConnId) (w : Hub Document Awareness Payload) :
    (closeConn yjs frame conn w).doc.conns.length ≤ w.doc.conns.length :=
  closeConnFuel_length_le yjs _ frame conn w

/-- A broadcast returns when the removals return that it can call. -/
theorem broadcastRun_eq_some
    {run : ConnId → Hub Document Awareness Payload → Option (Hub Document Awareness Payload)}
    {f : ConnId → Hub Document Awareness Payload → Hub Document Awareness Payload} (w : Hub Document Awareness Payload)
    (hf : ∀ conn w, (f conn w).doc.conns.length ≤ w.doc.conns.length)
    (hrun : ∀ conn w', w'.doc.conns.length ≤ w.doc.conns.length → run conn w' = some (f conn w')) :
    broadcastRun run message w = some (broadcastWith f message w) := by
  unfold broadcastRun broadcastWith
  generalize w.doc.conns.map Prod.fst = targets
  induction targets generalizing w with
  | nil => rfl
  | cons conn targets ih =>
    have hsend : sendRun run message w conn = some (sendWith f message w conn) := by
      unfold sendRun sendWith
      rw [hrun conn w (Nat.le_refl _)]
      split_ifs
      · cases w.send conn message <;> rfl
      · rfl
    rw [List.foldlM_cons, List.foldl_cons]
    split_ifs
    · rw [hsend]
      exact ih _ fun conn' w' hle => hrun conn' w' (hle.trans (sendWith_length_le hf w conn))
    · exact ih w hrun

/-- The depth of the calls is bounded by the number of the connections. -/
theorem closeConnRun_eq_some {depth : ℕ} (frame : Option CloseFrame) (conn : ConnId)
    {w : Hub Document Awareness Payload} (hdepth : w.doc.conns.length < depth) :
    closeConnRun yjs depth frame conn w = some (closeConn yjs frame conn w) := by
  induction depth generalizing frame conn w with
  | zero => exact absurd hdepth (Nat.not_lt_zero _)
  | succ depth ih =>
    rw [closeConn_eq]
    unfold closeConnRun closeConnWith
    by_cases hhas : w.doc.has conn = true
    · have hlt := delete_length_lt hhas
      rw [if_pos hhas, if_pos hhas]
      dsimp only
      split_ifs
      · rfl
      · rw [broadcastRun_eq_some (f := closeConn yjs none) _ (closeConn_length_le none) fun conn' w' hle => ?_]
        · rfl
        · apply ih
          have hle : w'.doc.conns.length ≤ (w.doc.delete conn).conns.length := hle
          omega
    · rw [if_neg hhas, if_neg hhas]

theorem broadcastRun_closeConnRun {depth : ℕ} {w : Hub Document Awareness Payload}
    (hdepth : w.doc.conns.length < depth) :
    broadcastRun (closeConnRun yjs depth none) message w = some (broadcast yjs message w) :=
  broadcastRun_eq_some w (closeConn_length_le none) fun conn _ hle =>
    closeConnRun_eq_some none conn (hle.trans_lt hdepth)

end
end CodeShare.Ws
