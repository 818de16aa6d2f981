import CodeShare.Ws.YjsServer

/-! # What the Yjs server keeps

A property of the websockets and of what is written that survives sending, closing and the other changes
of a websocket holds behind every segment. Closing a connection as too large is treated apart: only a
segment that applies a message does it.
-/

namespace CodeShare.Ws
open Tasks
set_option autoImplicit false

section
variable {Document Awareness Payload : Type}

structure Permits (I : (ConnId → Socket) → List (WsEffect Payload) → Prop) : Prop where
  sent : ∀ sockets out conn message, I sockets out → I sockets (out ++ [.sent conn message])
  closed : ∀ sockets out conn frame, frame ≠ some documentTooLarge → I sockets out →
    I (Function.update sockets conn { sockets conn with readyState := .closing })
      (out ++ [.closed conn frame])
  moved : ∀ sockets out conn state, state ≠ .connecting → I sockets out →
    I (Function.update sockets conn { sockets conn with readyState := state }) out
  rejected : ∀ sockets out, I sockets out → I sockets (out ++ [.unhandledRejection])

variable {I : (ConnId → Socket) → List (WsEffect Payload) → Prop}

/-- Behind what has been written before. -/
theorem Permits.shift (hI : Permits I) (past : List (WsEffect Payload)) :
    Permits fun sockets out => I sockets (past ++ out) where
  sent sockets out conn message h := by
    rw [← List.append_assoc]
    exact hI.sent sockets _ conn message h
  closed sockets out conn frame hframe h := by
    rw [← List.append_assoc]
    exact hI.closed sockets _ conn frame hframe h
  moved sockets out conn state hstate h := hI.moved sockets _ conn state hstate h
  rejected sockets out h := by
    rw [← List.append_assoc]
    exact hI.rejected sockets _ h

/-- Of a document, its websockets and what has been written to them. -/
def OfHub (I : (ConnId → Socket) → List (WsEffect Payload) → Prop)
    (w : Hub Document Awareness Payload) : Prop :=
  I w.sockets w.out

section
variable (yjs : Yjs Document Awareness Payload) (hI : Permits I) {w w' : Hub Document Awareness Payload}
include hI

theorem Permits.close (h : OfHub I w) (conn : ConnId) {frame : Option CloseFrame}
    (hframe : frame ≠ some documentTooLarge) : OfHub I (w.close conn frame) := by
  unfold Hub.close
  split_ifs
  · exact hI.closed w.sockets w.out conn frame hframe h
  · exact h

theorem Permits.stable : Stable (OfHub I : Hub Document Awareness Payload → Prop) where
  sent w conn update h := hI.sent w.sockets w.out conn (.awareness update) h
  removed _ _ _ h := h
  closed _ conn h := hI.close h conn nofun

theorem Permits.closeConn (h : OfHub I w) (conn : ConnId) {frame : Option CloseFrame}
    (hframe : frame ≠ some documentTooLarge) : OfHub I (closeConn yjs frame conn w) :=
  hI.stable.closeConn yjs (fun _ h => hI.close h conn hframe) h

theorem Permits.broadcast (h : OfHub I w) (message : Message Payload) :
    OfHub I (broadcast yjs message w) :=
  hI.stable.broadcast yjs (fun w conn h => hI.sent w.sockets w.out conn message h) h

theorem Permits.trySend (h : OfHub I w) {conn : ConnId} {message : Message Payload}
    (hsend : w.trySend conn message = .ok w' ∨ w.trySend conn message = .error w') : OfHub I w' := by
  unfold Hub.trySend Hub.send at hsend
  split_ifs at hsend <;> rcases hsend with hsend | hsend <;> cases hsend
  · exact h
  · exact hI.sent w.sockets w.out conn message h
  · exact h

theorem Permits.applyUpdate (h : OfHub I w) (update : Payload) : OfHub I (applyUpdate yjs update w) := by
  unfold Ws.applyUpdate
  dsimp only
  split
  · apply hI.broadcast
    exact h
  · exact h

theorem Permits.readMessage {conn : ConnId} {message : Message Payload} (hw : OfHub I w)
    (h : readMessage yjs conn message w = .ok w' ∨ readMessage yjs conn message w = .error w') :
    OfHub I w' := by
  cases message with
  | syncStep1 stateVector =>
    simp only [Ws.readMessage] at h
    split at h
    · exact hI.trySend hw h
    · rcases h with h | h <;> cases h
      exact hw
  | syncStep2 update =>
    rcases h with h | h <;> cases h
    exact hI.applyUpdate yjs hw update
  | syncUpdate update =>
    rcases h with h | h <;> cases h
    exact hI.applyUpdate yjs hw update
  | awareness update =>
    simp only [Ws.readMessage, applyAwarenessUpdate] at h
    split at h
    · rcases h with h | h <;> cases h
      exact hw
    · rcases h with h | h <;> cases h
      split_ifs
      · exact hw
      · apply hI.broadcast
        exact hw
  | other =>
    rcases h with h | h <;> cases h
    exact hw
  | unreadable =>
    rcases h with h | h <;> cases h
    exact hw

/-- A message that leaves the document in the limit, or a property that closing as too large keeps. -/
theorem Permits.messageListener {maxDocBytes : ℕ} {conn : ConnId} {message : Message Payload}
    (hw : OfHub I w)
    (hlimit : ∀ w', Ws.readMessage yjs conn message w = .ok w' →
      maxDocBytes < encodedLength yjs w'.doc.document → OfHub I w' →
      OfHub I (Ws.closeConn yjs (some documentTooLarge) conn w')) :
    OfHub I (messageListener yjs maxDocBytes conn message w) := by
  unfold Ws.messageListener
  cases hread : Ws.readMessage yjs conn message w with
  | ok w' =>
    have hw' := hI.readMessage yjs hw (.inl hread)
    dsimp only
    split_ifs with hlarge
    · exact hlimit w' hread hlarge hw'
    · exact hw'
  | error w' =>
    refine hI.closeConn yjs (hI.readMessage yjs hw (.inr hread)) conn ?_
    decide

theorem Permits.setupWSConnection {conn : ConnId} (hw : OfHub I w)
    (h : setupWSConnection yjs conn w = .ok w' ∨ setupWSConnection yjs conn w = .error w') :
    OfHub I w' := by
  unfold Ws.setupWSConnection at h
  split at h
  · rename_i joined hsend
    have hjoined : OfHub I joined := by
      refine hI.trySend ?_ (.inl hsend)
      exact hw
    unfold sendAwarenessStates at h
    dsimp only at h
    split_ifs at h
    · rcases h with h | h <;> cases h
      exact hjoined
    · exact hI.trySend hjoined h
  · rename_i joined hsend
    rcases h with h | h <;> cases h
    refine hI.trySend ?_ (.inr hsend)
    exact hw

end

/-! ## What fires -/

section
variable (cfg : YjsServerConfig Document Awareness Payload) (s : YjsServer Document Awareness)

/-- The connection for which a task waits. -/
def YjsTask.conn {toLowerCase : JsString → JsString} : YjsTask toLowerCase Payload → ConnId
  | .validateConnection opened => opened.conn
  | .validateMessage conn _ _ | .revalidateAccess conn => conn

/-- What each trigger does, with what it needs. -/
inductive Fires : YjsTrigger cfg → YjsStep cfg → Prop where
  | connects (conn : ConnId) (request : YjsRequest)
      (hnew : (s.sockets conn).readyState = .connecting) :
      Fires (.event (.connection conn request)) (onConnection cfg s conn request)
  | admits (opened : Opened cfg.toLowerCase) :
      Fires (.task (.validateConnection opened) .allowed) (admitConnection cfg s opened)
  | arrives (conn : ConnId) (d : DocId) (size : ℕ) (message : Message Payload)
      (hjoined : s.joined conn = some d) :
      Fires (.event (.message conn size message))
        ((Segment.of s).suspend (.validateMessage conn size message))
  | applies (conn : ConnId) (d : DocId) (size : ℕ) (message : Message Payload)
      (hjoined : s.joined conn = some d) :
      Fires (.task (.validateMessage conn size message) .allowed)
        (s.onDoc cfg d
          (handleIncomingMessage cfg.yjs cfg.maxMessageBytes cfg.maxDocBytes conn size message))
  | expires (conn : ConnId) (d : DocId) (hjoined : s.joined conn = some d) :
      Fires (.event (.revalidate conn)) ((Segment.of s).suspend (.revalidateAccess conn))
  | renews (conn : ConnId) : Fires (.task (.revalidateAccess conn) .allowed) (Segment.of s)
  | denies (task : YjsTask cfg.toLowerCase Payload) (haccess : cfg.accessService = true) :
      Fires (.task task .denied) (s.closeSocket cfg task.conn accessRequired)
  | closing (conn : ConnId) (hopen : (s.sockets conn).readyState = .open) :
      Fires (.event (.closing conn)) (Segment.of (s.setReadyState conn .closing))
  | closes (conn : ConnId) (haccepted : (s.sockets conn).readyState ≠ .connecting) :
      Fires (.event (.close conn)) (onClose cfg s conn)
  | sendFails (conn : ConnId) (d : DocId) (hjoined : s.joined conn = some d) :
      Fires (.event (.sendFailed conn)) (s.onDoc cfg d (closeConn cfg.yjs none conn))
  | pingFails (conn : ConnId) (d : DocId) (hjoined : s.joined conn = some d) :
      Fires (.event (.pingFailed conn)) (s.onDoc cfg d (closeConn cfg.yjs none conn))
  | creates (roomCode yjsToken : JsString) :
      Fires (.event (.createRoom roomCode yjsToken)) (Segment.of (createRoom s roomCode yjsToken))
  | rotates (roomCode yjsToken : JsString) :
      Fires (.event (.rotateToken roomCode yjsToken)) (Segment.of (rotateToken s roomCode yjsToken))
  | destroys (roomCode : JsString) : Fires (.event (.destroyRoom roomCode)) (destroyRoom cfg s roomCode)
  | shuts : Fires (.event .shutdown) (s.destroyAllSharedDocs cfg)

variable {cfg s} {t : YjsTrigger cfg} {g : YjsStep cfg}

theorem fire_cases (h : (yjsServer cfg).fire s t = some g) : Fires cfg s t g := by
  cases t with
  | event event =>
    change handleYjs cfg s event = some g at h
    cases event with
    | connection conn request =>
      simp only [handleYjs] at h
      split_ifs at h with hnew
      cases h
      exact .connects conn request hnew
    | message conn size message =>
      obtain ⟨d, hjoined, rfl⟩ := Option.map_eq_some_iff.mp h
      exact .arrives conn d size message hjoined
    | closing conn =>
      simp only [handleYjs] at h
      split_ifs at h with hopen
      cases h
      exact .closing conn hopen
    | close conn =>
      simp only [handleYjs] at h
      split_ifs at h with hnew
      cases h
      exact .closes conn hnew
    | sendFailed conn =>
      obtain ⟨d, hjoined, rfl⟩ := Option.map_eq_some_iff.mp h
      exact .sendFails conn d hjoined
    | pingFailed conn =>
      obtain ⟨d, hjoined, rfl⟩ := Option.map_eq_some_iff.mp h
      exact .pingFails conn d hjoined
    | revalidate conn =>
      simp only [handleYjs] at h
      split_ifs at h
      obtain ⟨d, hjoined, rfl⟩ := Option.map_eq_some_iff.mp h
      exact .expires conn d hjoined
    | createRoom roomCode yjsToken =>
      cases h
      exact .creates roomCode yjsToken
    | rotateToken roomCode yjsToken =>
      cases h
      exact .rotates roomCode yjsToken
    | destroyRoom roomCode =>
      cases h
      exact .destroys roomCode
    | shutdown =>
      cases h
      exact .shuts
  | task task outcome =>
    change resumeYjs cfg s task outcome = some g at h
    cases outcome with
    | denied =>
      cases task <;>
      · simp only [resumeYjs] at h
        split_ifs at h with haccess
        cases h
        exact .denies _ haccess
    | allowed =>
      cases task with
      | validateConnection opened =>
        cases h
        exact .admits opened
      | validateMessage conn size message =>
        obtain ⟨d, hjoined, rfl⟩ := Option.map_eq_some_iff.mp h
        exact .applies conn d size message hjoined
      | revalidateAccess conn =>
        cases h
        exact .renews conn

end

/-! ## Segments -/

section
variable (cfg : YjsServerConfig Document Awareness Payload)

/-- What holds at the start and is kept by closing one document more holds when all have been closed. -/
theorem destroyAllSharedDocs_rule {s : YjsServer Document Awareness} {J : YjsStep cfg → Prop}
    (hstart : J (Segment.of s))
    (hstep : ∀ (g : YjsStep cfg) (name : JsString), J g →
      J ⟨(g.state.destroySharedDoc cfg name).state, g.out ++ (g.state.destroySharedDoc cfg name).out,
        g.next ++ (g.state.destroySharedDoc cfg name).next⟩) : J (s.destroyAllSharedDocs cfg) := by
  unfold YjsServer.destroyAllSharedDocs
  generalize s.docs.map Prod.fst = names
  generalize Segment.of s = g at hstart
  induction names generalizing g with
  | nil => exact hstart
  | cons name names ih => exact ih _ (hstep g name hstart)

/-- The message that a segment applies, and its connection. -/
def appliedMessage : YjsTrigger cfg → Option (ConnId × Message Payload)
  | .task (.validateMessage conn size message) .allowed =>
    if size > cfg.maxMessageBytes then none else some (conn, message)
  | _ => none

/-- Of what a segment leaves behind. -/
def Behind (I : (ConnId → Socket) → List (WsEffect Payload) → Prop) (g : YjsStep cfg) : Prop :=
  I g.state.sockets g.out

variable (hI : Permits I) {s : YjsServer Document Awareness} (h : I s.sockets [])
include hI h

theorem Permits.closeSocket (conn : ConnId) {frame : CloseFrame} (hframe : frame ≠ documentTooLarge) :
    Behind cfg I (s.closeSocket cfg conn frame) := by
  unfold YjsServer.closeSocket
  split_ifs
  · exact hI.closed s.sockets [] conn (some frame) (fun h => hframe (Option.some.inj h)) h
  · exact h

theorem Permits.onDoc_closeConn (d : DocId) (conn : ConnId) :
    Behind cfg I (s.onDoc cfg d (Ws.closeConn cfg.yjs none conn)) := by
  refine hI.closeConn cfg.yjs ?_ conn nofun
  exact h

theorem Permits.destroySharedDoc (name : JsString) : Behind cfg I (s.destroySharedDoc cfg name) := by
  unfold YjsServer.destroySharedDoc
  split
  · exact h
  · rename_i d hd
    have hfold : ∀ (targets : List ConnId) (w : Hub Document Awareness Payload), OfHub I w →
        OfHub I (targets.foldl (fun w conn => Ws.closeConn cfg.yjs none conn w) w) := by
      intro targets
      induction targets with
      | nil => exact fun _ h => h
      | cons conn targets ih => exact fun w h => ih _ (hI.closeConn cfg.yjs h conn nofun)
    exact hfold _ (s.hub d) h

theorem Permits.destroyAllSharedDocs : Behind cfg I (s.destroyAllSharedDocs cfg) := by
  refine destroyAllSharedDocs_rule cfg (J := Behind cfg I) h fun g name hg => ?_
  refine (hI.shift g.out).destroySharedDoc cfg ?_ name
  rw [List.append_nil]
  exact hg

theorem Permits.register (opened : Opened cfg.toLowerCase) : Behind cfg I (register cfg s opened) := by
  have hcreated : I (s.getOrCreateSharedDoc cfg opened.roomName).1.sockets [] := by
    unfold YjsServer.getOrCreateSharedDoc
    split <;> exact h
  unfold Ws.register
  dsimp only
  split
  · rename_i w hsetup
    exact hI.setupWSConnection cfg.yjs (by exact hcreated) (.inl hsetup)
  · rename_i w hsetup
    apply hI.rejected
    exact hI.setupWSConnection cfg.yjs (by exact hcreated) (.inr hsetup)

theorem Permits.admitConnection (opened : Opened cfg.toLowerCase) : Behind cfg I (admitConnection cfg s opened) := by
  unfold Ws.admitConnection
  split_ifs
  · exact hI.closeSocket cfg h _ (by decide)
  · split
    · split_ifs
      · exact hI.closeSocket cfg h _ (by decide)
      · exact hI.register cfg h opened
    · exact hI.closeSocket cfg h _ (by decide)

theorem Permits.onConnection (conn : ConnId) (request : YjsRequest) :
    Behind cfg I (onConnection cfg s conn request) := by
  have hopen : I (s.setReadyState conn .open).sockets [] := hI.moved s.sockets [] conn .open nofun h
  unfold Ws.onConnection
  dsimp only
  split
  · exact hI.rejected _ _ hopen
  · split_ifs
    · exact hopen
    · exact hI.admitConnection cfg hopen _

/-- The rule for a segment, with what closing as too large keeps where a message is applied. -/
theorem Permits.fire {g : YjsStep cfg} {t : YjsTrigger cfg} (hg : (yjsServer cfg).fire s t = some g)
    (hlimit : ∀ conn message d w, appliedMessage cfg t = some (conn, message) →
      Ws.readMessage cfg.yjs conn message (s.hub d) = .ok w → s.joined conn = some d →
      cfg.maxDocBytes < encodedLength cfg.yjs w.doc.document → OfHub I w →
      OfHub I (Ws.closeConn cfg.yjs (some documentTooLarge) conn w)) : Behind cfg I g := by
  cases fire_cases hg with
  | connects conn request hnew => exact hI.onConnection cfg h conn request
  | admits opened => exact hI.admitConnection cfg h opened
  | applies conn d size message hjoined =>
    change OfHub I (handleIncomingMessage cfg.yjs cfg.maxMessageBytes cfg.maxDocBytes conn size message
      (s.hub d))
    unfold handleIncomingMessage
    split_ifs with hsize
    · exact hI.close (by exact h) conn (by decide)
    · refine hI.messageListener cfg.yjs (by exact h) fun w hread => ?_
      exact hlimit conn message d w (if_neg hsize) hread hjoined
  | denies task haccess => exact hI.closeSocket cfg h _ (by decide)
  | closing conn hopen => exact hI.moved s.sockets [] conn .closing nofun h
  | closes conn haccepted =>
    have hclosed := hI.moved s.sockets [] conn .closed nofun h
    unfold onClose
    dsimp only
    split
    · exact hclosed
    · exact hI.onDoc_closeConn cfg (by exact hclosed) _ conn
  | sendFails conn d hjoined => exact hI.onDoc_closeConn cfg h d conn
  | pingFails conn d hjoined => exact hI.onDoc_closeConn cfg h d conn
  | creates roomCode yjsToken =>
    unfold Ws.createRoom
    split_ifs <;> exact h
  | destroys roomCode =>
    unfold Ws.destroyRoom
    dsimp only
    split_ifs
    · exact hI.destroySharedDoc cfg h _
    · exact h
  | shuts => exact hI.destroyAllSharedDocs cfg h
  | _ => exact h

end

/-! ## What is left waiting -/

section
variable (cfg : YjsServerConfig Document Awareness Payload)

theorem destroySharedDoc_next (s : YjsServer Document Awareness) (name : JsString) :
    (s.destroySharedDoc cfg name).next = [] := by
  unfold YjsServer.destroySharedDoc
  split <;> rfl

theorem destroyAllSharedDocs_next (s : YjsServer Document Awareness) :
    (s.destroyAllSharedDocs cfg).next = [] := by
  refine destroyAllSharedDocs_rule cfg (J := fun g => g.next = []) rfl fun g name hg => ?_
  dsimp only
  rw [hg, destroySharedDoc_next, List.append_nil]

theorem closeSocket_next (s : YjsServer Document Awareness) (conn : ConnId) (frame : CloseFrame) :
    (s.closeSocket cfg conn frame).next = [] := by
  unfold YjsServer.closeSocket
  split_ifs <;> rfl

theorem admitConnection_next (s : YjsServer Document Awareness) (opened : Opened cfg.toLowerCase) :
    (admitConnection cfg s opened).next = [] := by
  unfold admitConnection
  split_ifs
  · exact closeSocket_next cfg s _ _
  · split
    · split_ifs
      · exact closeSocket_next cfg s _ _
      · unfold register
        dsimp only
        split <;> rfl
    · exact closeSocket_next cfg s _ _

/-- The handler up to its first wait. -/
theorem onConnection_cases (s : YjsServer Document Awareness) (conn : ConnId) (request : YjsRequest) :
    (extractRoomName cfg.toLowerCase request.url = none ∧
      onConnection cfg s conn request =
        (Segment.of (s.setReadyState conn .open)).emit .unhandledRejection) ∨
    ∃ opened : Opened cfg.toLowerCase, opened.conn = conn ∧ opened.request = request ∧
      onConnection cfg s conn request =
        if cfg.accessService then
          (Segment.of (s.setReadyState conn .open)).suspend (.validateConnection opened)
        else admitConnection cfg (s.setReadyState conn .open) opened := by
  unfold onConnection
  dsimp only
  split
  · rename_i hnone
    exact .inl ⟨hnone, rfl⟩
  · rename_i roomName hname
    exact .inr ⟨⟨conn, request, roomName, hname⟩, rfl, rfl, rfl⟩

/-- The tasks that a segment leaves behind: it starts to wait in three places. -/
inductive Suspends (s : YjsServer Document Awareness) (t : YjsTrigger cfg) (g : YjsStep cfg) : Prop where
  | none (hnext : g.next = [])
  | connection (opened : Opened cfg.toLowerCase)
      (ht : t = .event (.connection opened.conn opened.request))
      (hg : g = (Segment.of (s.setReadyState opened.conn .open)).suspend (.validateConnection opened))
  | message (conn : ConnId) (size : ℕ) (message : Message Payload)
      (ht : t = .event (.message conn size message))
      (hg : g = (Segment.of s).suspend (.validateMessage conn size message))
  | access (conn : ConnId) (ht : t = .event (.revalidate conn))
      (hg : g = (Segment.of s).suspend (.revalidateAccess conn))

theorem fire_next {s : YjsServer Document Awareness} {t : YjsTrigger cfg} {g : YjsStep cfg}
    (h : (yjsServer cfg).fire s t = some g) : Suspends cfg s t g := by
  cases fire_cases h with
  | connects conn request hnew =>
    obtain ⟨-, hg⟩ | ⟨opened, rfl, rfl, hg⟩ := onConnection_cases cfg s conn request
    · rw [hg]
      exact .none rfl
    · split_ifs at hg
      · exact .connection opened rfl hg
      · rw [hg]
        exact .none (admitConnection_next cfg _ opened)
  | admits opened => exact .none (admitConnection_next cfg s opened)
  | arrives conn d size message hjoined => exact .message conn size message rfl rfl
  | expires conn d hjoined => exact .access conn rfl rfl
  | denies task haccess => exact .none (closeSocket_next cfg s _ _)
  | closes conn haccepted =>
    refine .none ?_
    unfold onClose
    dsimp only
    split <;> rfl
  | destroys roomCode =>
    refine .none ?_
    unfold destroyRoom
    dsimp only
    split_ifs
    · exact destroySharedDoc_next cfg s _
    · rfl
  | shuts => exact .none (destroyAllSharedDocs_next cfg s)
  | _ => exact .none rfl

end

end
end CodeShare.Ws
