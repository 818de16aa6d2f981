import CodeShare.Foundations.Enumeration
import CodeShare.Foundations.Ledger
import CodeShare.Properties.DocumentLimit
import CodeShare.Properties.YjsAdmission
import Mathlib.Data.List.Nodup

/-! # Who is in a document

A connection gets into a document by its handler alone, with the token that its room has at that time;
every other segment only removes connections. Only a message that is applied changes a document.
-/

namespace CodeShare.Ws
open Tasks
set_option autoImplicit false

section
variable {Document Awareness Payload : Type}

/-! ## One document -/

/-- What holds of a document and its websockets whatever is done with them. -/
structure HubRule (yjs : Yjs Document Awareness Payload) (I : Hub Document Awareness Payload → Prop) :
    Prop where
  emit : ∀ w effect, I w → I (w.emit effect)
  document : ∀ w document, I w → I { w with doc := { w.doc with document := document } }
  awareness : ∀ w awareness, I w → I { w with doc := { w.doc with awareness := awareness } }
  control : ∀ w conn change, I w → I { w with doc := w.doc.control conn change }
  close : ∀ w conn frame, I w → I (w.close conn frame)
  closeConn : ∀ w conn frame, I w → I (closeConn yjs frame conn w)

namespace HubRule
variable {yjs : Yjs Document Awareness Payload} {I : Hub Document Awareness Payload → Prop}
  {w w' : Hub Document Awareness Payload} (rule : HubRule yjs I)
include rule

theorem broadcast (message : Message Payload) (h : I w) : I (Ws.broadcast yjs message w) :=
  broadcastWith_keeps (fun conn w h => rule.closeConn w conn none h) (fun w _ h => rule.emit w _ h) h

theorem trySend {conn : ConnId} {message : Message Payload} (h : I w)
    (hsend : w.trySend conn message = .ok w' ∨ w.trySend conn message = .error w') : I w' := by
  unfold Hub.trySend Hub.send at hsend
  split_ifs at hsend <;> rcases hsend with hsend | hsend <;> cases hsend
  · exact h
  · exact rule.emit w _ h
  · exact h

theorem applyUpdate (update : Payload) (h : I w) : I (Ws.applyUpdate yjs update w) := by
  unfold Ws.applyUpdate
  dsimp only
  split
  · exact rule.broadcast _ (rule.document w _ h)
  · exact rule.document w _ h

theorem readMessage {conn : ConnId} {message : Message Payload} (h : I w)
    (hread : Ws.readMessage yjs conn message w = .ok w' ∨ Ws.readMessage yjs conn message w = .error w') :
    I w' := by
  cases message with
  | syncStep1 stateVector =>
    simp only [Ws.readMessage] at hread
    split at hread
    · exact rule.trySend h hread
    · rcases hread with hread | hread <;> cases hread
      exact h
  | syncStep2 update =>
    rcases hread with hread | hread <;> cases hread
    exact rule.applyUpdate update h
  | syncUpdate update =>
    rcases hread with hread | hread <;> cases hread
    exact rule.applyUpdate update h
  | awareness update =>
    have hawareness := rule.awareness w (yjs.applyAwarenessUpdate w.doc.awareness update).1 h
    simp only [Ws.readMessage, applyAwarenessUpdate] at hread
    split at hread
    · rcases hread with hread | hread <;> cases hread
      exact hawareness
    · rcases hread with hread | hread <;> cases hread
      split_ifs
      · exact hawareness
      · exact rule.broadcast _ (rule.control _ conn _ hawareness)
  | other =>
    rcases hread with hread | hread <;> cases hread
    exact h
  | unreadable =>
    rcases hread with hread | hread <;> cases hread
    exact h

theorem handleIncomingMessage (maxMessageBytes maxDocBytes : ℕ) (conn : ConnId) (size : ℕ)
    (message : Message Payload) (h : I w) :
    I (Ws.handleIncomingMessage yjs maxMessageBytes maxDocBytes conn size message w) := by
  unfold Ws.handleIncomingMessage
  split_ifs
  · exact rule.close w conn _ h
  · unfold Ws.messageListener
    cases hread : Ws.readMessage yjs conn message w with
    | ok w' =>
      have hw' := rule.readMessage h (.inl hread)
      dsimp only
      split_ifs
      · exact rule.closeConn w' conn _ hw'
      · exact hw'
    | error w' => exact rule.closeConn w' conn _ (rule.readMessage h (.inr hread))

theorem closeAll (targets : List ConnId) (h : I w) :
    I (targets.foldl (fun w conn => Ws.closeConn yjs none conn w) w) := by
  induction targets generalizing w with
  | nil => exact h
  | cons conn targets ih => exact ih (rule.closeConn w conn none h)

end HubRule

/-- No connection comes, and none that is closed opens again. -/
structure Narrows (w w' : Hub Document Awareness Payload) : Prop where
  conns : ∀ conn, w'.doc.has conn = true → w.doc.has conn = true
  closed : ∀ conn, (w.sockets conn).readyState = .closed → (w'.sockets conn).readyState = .closed

theorem has_delete {doc : WSSharedDoc Document Awareness} {conn conn' : ConnId}
    (h : (doc.delete conn).has conn' = true) : doc.has conn' = true := by
  obtain ⟨c, hc, hconn⟩ := List.any_eq_true.mp h
  exact List.any_eq_true.mpr ⟨c, (List.mem_filter.mp hc).1, hconn⟩

theorem has_control (doc : WSSharedDoc Document Awareness) (conn conn' : ConnId)
    (change : AwarenessChange) : (doc.control conn change).has conn' = doc.has conn' := by
  unfold WSSharedDoc.control WSSharedDoc.has
  dsimp only
  rw [List.any_map]
  congr 1
  funext c
  by_cases hc : c.1 = conn <;> simp [hc]

theorem has_register_iff (doc : WSSharedDoc Document Awareness) (conn conn' : ConnId) :
    (doc.register conn).has conn' = true ↔ doc.has conn' = true ∨ conn' = conn := by
  unfold WSSharedDoc.register
  split_ifs with hhas
  · have hsame : (doc.conns.map fun c => if c.1 = conn then (conn, []) else c).any
        (fun c => decide (c.1 = conn')) = doc.has conn' := by
      rw [List.any_map]
      unfold WSSharedDoc.has
      congr 1
      funext c
      by_cases hc : c.1 = conn <;> simp [hc]
    change (List.any _ _) = true ↔ _
    rw [hsame]
    constructor
    · exact .inl
    · rintro (h | rfl)
      · exact h
      · exact hhas
  · change (doc.conns ++ [(conn, [])]).any (fun c => decide (c.1 = conn')) = true ↔ _
    rw [List.any_append, Bool.or_eq_true]
    refine or_congr_right ?_
    rw [List.any_cons, List.any_nil, Bool.or_false, decide_eq_true_eq]
    exact eq_comm

namespace Narrows
variable {w₀ w w' : Hub Document Awareness Payload}

theorem refl (w : Hub Document Awareness Payload) : Narrows w w := ⟨fun _ h => h, fun _ h => h⟩

theorem close (h : Narrows w₀ w) (conn : ConnId) (frame : Option CloseFrame) :
    Narrows w₀ (w.close conn frame) := by
  refine ⟨fun conn' => ?_, fun conn' hclosed => ?_⟩
  · rw [close_doc]
    exact h.conns conn'
  · have hbefore := h.closed conn' hclosed
    unfold Hub.close
    split_ifs with halive
    · change ((Function.update w.sockets conn _) conn').readyState = .closed
      by_cases hconn : conn' = conn
      · subst hconn
        simp [Socket.alive, hbefore] at halive
      · rwa [Function.update_of_ne hconn]
    · exact hbefore

theorem stable (w₀ : Hub Document Awareness Payload) : Stable (Narrows w₀) where
  sent _ _ _ h := ⟨h.conns, h.closed⟩
  removed _ _ _ h := ⟨fun conn hhas => h.conns conn (has_delete hhas), h.closed⟩
  closed _ conn h := h.close conn none

variable (yjs : Yjs Document Awareness Payload)

theorem closeConn (h : Narrows w₀ w) (conn : ConnId) (frame : Option CloseFrame) :
    Narrows w₀ (Ws.closeConn yjs frame conn w) :=
  (stable w₀).closeConn yjs (fun _ h => h.close conn frame) h

theorem rule (w₀ : Hub Document Awareness Payload) : HubRule yjs (Narrows w₀) where
  emit _ _ h := ⟨h.conns, h.closed⟩
  document _ _ h := ⟨h.conns, h.closed⟩
  awareness _ _ h := ⟨h.conns, h.closed⟩
  control _ conn change h :=
    ⟨fun conn' hhas => h.conns conn' (by rwa [has_control] at hhas), h.closed⟩
  close _ conn frame h := h.close conn frame
  closeConn _ conn frame h := h.closeConn yjs conn frame

theorem trySend {conn : ConnId} {message : Message Payload} (h : Narrows w₀ w)
    (hsend : w.trySend conn message = .ok w' ∨ w.trySend conn message = .error w') : Narrows w₀ w' := by
  unfold Hub.trySend Hub.send at hsend
  split_ifs at hsend <;> rcases hsend with hsend | hsend <;> cases hsend
  · exact h
  · exact ⟨h.conns, h.closed⟩
  · exact h

theorem handleIncomingMessage (maxMessageBytes maxDocBytes : ℕ) (conn : ConnId) (size : ℕ)
    (message : Message Payload) (w : Hub Document Awareness Payload) :
    Narrows w (Ws.handleIncomingMessage yjs maxMessageBytes maxDocBytes conn size message w) :=
  (rule yjs w).handleIncomingMessage maxMessageBytes maxDocBytes conn size message (refl w)

theorem closeAll (targets : List ConnId) (h : Narrows w₀ w) :
    Narrows w₀ (targets.foldl (fun w conn => Ws.closeConn yjs none conn w) w) :=
  (rule yjs w₀).closeAll targets h

end Narrows

theorem closeAll_document (yjs : Yjs Document Awareness Payload) (targets : List ConnId)
    (w : Hub Document Awareness Payload) :
    (targets.foldl (fun w conn => closeConn yjs none conn w) w).doc.document = w.doc.document := by
  induction targets generalizing w with
  | nil => rfl
  | cons conn targets ih =>
    rw [List.foldl_cons, ih]
    exact closeConn_document yjs none conn w

/-! ## The registry -/

section
variable (cfg : YjsServerConfig Document Awareness Payload)

/-- No connection comes into a document and no document into the registry, and one document is written, if
any. -/
structure Keeps (written : Option DocId) (s s' : YjsServer Document Awareness) : Prop where
  joined : s'.joined = s.joined
  nextDoc : s'.nextDoc = s.nextDoc
  docs : s'.docs.Sublist s.docs
  conns : ∀ d conn, (s'.heap d).has conn = true → (s.heap d).has conn = true
  closed : ∀ conn, (s.sockets conn).readyState = .closed → (s'.sockets conn).readyState = .closed
  document : ∀ d, written ≠ some d → (s'.heap d).document = (s.heap d).document

namespace Keeps
variable {written : Option DocId} {s s' s'' : YjsServer Document Awareness}

theorem refl (s : YjsServer Document Awareness) : Keeps written s s :=
  ⟨rfl, rfl, List.Sublist.refl _, fun _ _ h => h, fun _ h => h, fun _ _ => rfl⟩

theorem trans (h : Keeps written s s') (h' : Keeps written s' s'') : Keeps written s s'' where
  joined := h'.joined.trans h.joined
  nextDoc := h'.nextDoc.trans h.nextDoc
  docs := h'.docs.trans h.docs
  conns d conn hhas := h.conns d conn (h'.conns d conn hhas)
  closed conn hclosed := h'.closed conn (h.closed conn hclosed)
  document d hd := (h'.document d hd).trans (h.document d hd)

theorem withRooms (h : Keeps written s s') (rooms : List (JsString × JsString)) :
    Keeps written s { s' with rooms := rooms } :=
  ⟨h.joined, h.nextDoc, h.docs, h.conns, h.closed, h.document⟩

theorem setReadyState {conn : ConnId} {state : ReadyState}
    (hstate : (s.sockets conn).readyState = .closed → state = .closed) :
    Keeps written s (s.setReadyState conn state) := by
  refine ⟨rfl, rfl, List.Sublist.refl _, fun _ _ h => h, fun conn' hclosed => ?_, fun _ _ => rfl⟩
  change ((Function.update s.sockets conn _) conn').readyState = .closed
  by_cases hconn : conn' = conn
  · subst hconn
    rw [Function.update_self]
    exact hstate hclosed
  · rwa [Function.update_of_ne hconn]

theorem onDoc {d : DocId} {f : Hub Document Awareness Payload → Hub Document Awareness Payload}
    (hnarrows : Narrows (s.hub d) (f (s.hub d)))
    (hdocument : written ≠ some d → (f (s.hub d)).doc.document = (s.heap d).document) :
    Keeps written s (s.onDoc cfg d f).state := by
  refine ⟨rfl, rfl, List.Sublist.refl _, fun d' conn hhas => ?_, hnarrows.closed, fun d' hd' => ?_⟩
  · change (Function.update s.heap d _ d').has conn = true at hhas
    by_cases hd : d' = d
    · subst hd
      rw [Function.update_self] at hhas
      exact hnarrows.conns conn hhas
    · rwa [Function.update_of_ne hd] at hhas
  · change (Function.update s.heap d _ d').document = _
    by_cases hd : d' = d
    · subst hd
      rw [Function.update_self]
      exact hdocument hd'
    · rw [Function.update_of_ne hd]

theorem closeConn (d : DocId) (conn : ConnId) :
    Keeps written s (s.onDoc cfg d (Ws.closeConn cfg.yjs none conn)).state :=
  onDoc cfg ((Narrows.refl _).closeConn cfg.yjs conn none)
    fun _ => closeConn_document cfg.yjs none conn _

theorem closeSocket (conn : ConnId) (frame : CloseFrame) :
    Keeps written s (s.closeSocket cfg conn frame).state := by
  unfold YjsServer.closeSocket
  split_ifs with halive
  · apply setReadyState
    intro hclosed
    simp [Socket.alive, hclosed] at halive
  · exact refl s

theorem destroySharedDoc (name : JsString) :
    Keeps written s (s.destroySharedDoc cfg name).state := by
  unfold YjsServer.destroySharedDoc
  split
  · exact refl s
  · rename_i d hd
    have hclosed : Keeps written s (s.onDoc cfg d fun w =>
        (w.doc.conns.map Prod.fst).foldl (fun w conn => Ws.closeConn cfg.yjs none conn w) w).state :=
      onDoc cfg ((Narrows.refl _).closeAll cfg.yjs _) fun _ => closeAll_document cfg.yjs _ _
    exact ⟨hclosed.joined, hclosed.nextDoc, List.filter_sublist, hclosed.conns, hclosed.closed,
      hclosed.document⟩

theorem destroyAllSharedDocs : Keeps written s (s.destroyAllSharedDocs cfg).state :=
  destroyAllSharedDocs_rule cfg (J := fun g => Keeps written s g.state) (refl s)
    fun _ name h => h.trans (Keeps.destroySharedDoc cfg name)

theorem destroyRoom (roomCode : JsString) : Keeps written s (Ws.destroyRoom cfg s roomCode).state := by
  unfold Ws.destroyRoom
  dsimp only
  split_ifs
  · exact (Keeps.destroySharedDoc cfg _).withRooms _
  · exact refl s

end Keeps

/-- A connection joins the document of a room. -/
structure Joins (s s' : YjsServer Document Awareness) (opened : Opened cfg.toLowerCase) (d : DocId) :
    Prop where
  named : (opened.roomName, d) ∈ s'.docs
  docs : s'.docs = s.docs ∧ s'.nextDoc = s.nextDoc ∨
    d = s.nextDoc ∧ (∀ d', (opened.roomName, d') ∉ s.docs) ∧
      s'.docs = s.docs ++ [(opened.roomName, d)] ∧ s'.nextDoc = s.nextDoc + 1
  joined : s'.joined = Function.update s.joined opened.conn (some d)
  conns : ∀ d' conn, (s'.heap d').has conn = true →
    (s.heap d').has conn = true ∨ d' = d ∧ conn = opened.conn
  closed : ∀ conn, (s.sockets conn).readyState = .closed → (s'.sockets conn).readyState = .closed
  document : ∀ d', d' ≠ s.nextDoc → (s'.heap d').document = (s.heap d').document

theorem setupWSConnection_narrows (yjs : Yjs Document Awareness Payload) {conn : ConnId}
    {w w' : Hub Document Awareness Payload}
    (h : setupWSConnection yjs conn w = .ok w' ∨ setupWSConnection yjs conn w = .error w') :
    Narrows { w with doc := w.doc.register conn } w' ∧ w'.doc.document = w.doc.document := by
  have hregistered : (w.doc.register conn).document = w.doc.document := by
    unfold WSSharedDoc.register
    split_ifs <;> rfl
  unfold setupWSConnection at h
  split at h
  · rename_i joined hsend
    have hjoined := (Narrows.refl _).trySend (.inl hsend)
    have hdocument := (trySend_document (.inl hsend)).trans hregistered
    unfold sendAwarenessStates at h
    dsimp only at h
    split_ifs at h
    · rcases h with h | h <;> cases h
      exact ⟨hjoined, hdocument⟩
    · exact ⟨hjoined.trySend h, (trySend_document h).trans hdocument⟩
  · rename_i joined hsend
    rcases h with h | h <;> cases h
    exact ⟨(Narrows.refl _).trySend (.inr hsend), (trySend_document (.inr hsend)).trans hregistered⟩

/-- The document of a room, made when it is not there yet. -/
theorem getOrCreateSharedDoc_cases (s : YjsServer Document Awareness) (name : JsString) :
    (∃ d, (name, d) ∈ s.docs ∧ s.getOrCreateSharedDoc cfg name = (s, d)) ∨
    (∀ d, (name, d) ∉ s.docs) ∧ s.getOrCreateSharedDoc cfg name = ({ s with
      docs := s.docs ++ [(name, s.nextDoc)]
      heap := Function.update s.heap s.nextDoc (newSharedDoc cfg.yjs name)
      nextDoc := s.nextDoc + 1 }, s.nextDoc) := by
  unfold YjsServer.getOrCreateSharedDoc
  cases hfound : s.findSharedDoc name with
  | none =>
    refine .inr ⟨fun d hmem => ?_, rfl⟩
    simpa using List.find?_eq_none.mp (Option.map_eq_none_iff.mp hfound) _ hmem
  | some d =>
    refine .inl ⟨d, ?_, rfl⟩
    obtain ⟨⟨name', d'⟩, hentry, rfl⟩ := Option.map_eq_some_iff.mp hfound
    have hname : name' = name := by simpa using List.find?_some hentry
    exact hname ▸ List.mem_of_find?_eq_some hentry

/-- The last part of the handler, whatever the registry has made of the document. -/
theorem setup_joins {s s₁ : YjsServer Document Awareness} {opened : Opened cfg.toLowerCase} {d : DocId}
    {w : Hub Document Awareness Payload}
    (hnamed : (opened.roomName, d) ∈ s₁.docs)
    (hdocs : s₁.docs = s.docs ∧ s₁.nextDoc = s.nextDoc ∨
      d = s.nextDoc ∧ (∀ d', (opened.roomName, d') ∉ s.docs) ∧
        s₁.docs = s.docs ++ [(opened.roomName, d)] ∧ s₁.nextDoc = s.nextDoc + 1)
    (hjoined : s₁.joined = Function.update s.joined opened.conn (some d))
    (hsockets : s₁.sockets = s.sockets)
    (hconns : ∀ d' conn, (s₁.heap d').has conn = true → (s.heap d').has conn = true)
    (hdocument : ∀ d', d' ≠ s.nextDoc → (s₁.heap d').document = (s.heap d').document)
    (hsetup : setupWSConnection cfg.yjs opened.conn (s₁.hub d) = .ok w ∨
      setupWSConnection cfg.yjs opened.conn (s₁.hub d) = .error w) :
    Joins cfg s (s₁.put d w) opened d := by
  obtain ⟨hnarrows, hsame⟩ := setupWSConnection_narrows cfg.yjs hsetup
  refine ⟨hnamed, hdocs, hjoined, fun d' conn hhas => ?_, fun conn hclosed => ?_, fun d' hd' => ?_⟩
  · change (Function.update s₁.heap d w.doc d').has conn = true at hhas
    by_cases hd : d' = d
    · subst hd
      rw [Function.update_self] at hhas
      rcases (has_register_iff _ _ _).mp (hnarrows.conns conn hhas) with hold | hnew
      · exact .inl (hconns d' conn hold)
      · exact .inr ⟨rfl, hnew⟩
    · rw [Function.update_of_ne hd] at hhas
      exact .inl (hconns d' conn hhas)
  · apply hnarrows.closed
    change (s₁.sockets conn).readyState = .closed
    rwa [hsockets]
  · change (Function.update s₁.heap d w.doc d').document = _
    by_cases hd : d' = d
    · subst hd
      rw [Function.update_self, hsame]
      exact hdocument d' hd'
    · rw [Function.update_of_ne hd]
      exact hdocument d' hd'

theorem register_joins (s : YjsServer Document Awareness) (opened : Opened cfg.toLowerCase) :
    ∃ d, Joins cfg s (register cfg s opened).state opened d := by
  have hput : ∀ (s₁ : YjsServer Document Awareness) (d : DocId), ∃ w,
      (setupWSConnection cfg.yjs opened.conn (s₁.hub d) = .ok w ∨
        setupWSConnection cfg.yjs opened.conn (s₁.hub d) = .error w) := by
    intro s₁ d
    cases setupWSConnection cfg.yjs opened.conn (s₁.hub d) with
    | ok w => exact ⟨w, .inl rfl⟩
    | error w => exact ⟨w, .inr rfl⟩
  rcases getOrCreateSharedDoc_cases cfg s opened.roomName with ⟨d, hnamed, hget⟩ | ⟨hunnamed, hget⟩
  · refine ⟨d, ?_⟩
    obtain ⟨w, hw⟩ := hput { s with joined := Function.update s.joined opened.conn (some d) } d
    have hstate : (register cfg s opened).state =
        YjsServer.put { s with joined := Function.update s.joined opened.conn (some d) } d w := by
      unfold register
      rw [hget]
      dsimp only
      rcases hw with hw | hw <;> rw [hw]
    rw [hstate]
    exact setup_joins cfg hnamed (.inl ⟨rfl, rfl⟩) rfl rfl (fun _ _ h => h) (fun _ _ => rfl) hw
  · refine ⟨s.nextDoc, ?_⟩
    obtain ⟨w, hw⟩ := hput { s with
      docs := s.docs ++ [(opened.roomName, s.nextDoc)]
      heap := Function.update s.heap s.nextDoc (newSharedDoc cfg.yjs opened.roomName)
      nextDoc := s.nextDoc + 1
      joined := Function.update s.joined opened.conn (some s.nextDoc) } s.nextDoc
    have hstate : (register cfg s opened).state = YjsServer.put { s with
        docs := s.docs ++ [(opened.roomName, s.nextDoc)]
        heap := Function.update s.heap s.nextDoc (newSharedDoc cfg.yjs opened.roomName)
        nextDoc := s.nextDoc + 1
        joined := Function.update s.joined opened.conn (some s.nextDoc) } s.nextDoc w := by
      unfold register
      rw [hget]
      dsimp only
      rcases hw with hw | hw <;> rw [hw]
    rw [hstate]
    refine setup_joins cfg (List.mem_append_right _ (List.mem_singleton_self _)) (.inr ⟨rfl, hunnamed, rfl, rfl⟩) rfl
      rfl (fun d' conn hhas => ?_) (fun d' hd' => ?_) hw
    · change (Function.update s.heap s.nextDoc _ d').has conn = true at hhas
      by_cases hd : d' = s.nextDoc
      · subst hd
        rw [Function.update_self] at hhas
        cases hhas
      · rwa [Function.update_of_ne hd] at hhas
    · change (Function.update s.heap s.nextDoc _ d').document = _
      rw [Function.update_of_ne hd']

/-! ## Every segment -/

/-- The connection and the request whose handler joins a document. -/
def handles (opened : Opened cfg.toLowerCase) (t : YjsTrigger cfg) : Prop :=
  t = .task (.validateConnection opened) .allowed ∨
    t = .event (.connection opened.conn opened.request)

/-- A segment lets a connection with the token of its room join, or none; it writes at most the document
of the connection whose message it applies. -/
inductive Membership (s : YjsServer Document Awareness) (t : YjsTrigger cfg) (g : YjsStep cfg) : Prop where
  | keeps (written : Option DocId)
      (hwritten : ∀ d, written = some d → ∃ conn message,
        appliedMessage cfg t = some (conn, message) ∧ s.joined conn = some d)
      (h : Keeps written s g.state)
  | joins (opened : Opened cfg.toLowerCase) (d : DocId) (yjsToken : JsString)
      (ht : handles cfg opened t) (hroom : s.getRoom cfg opened.roomName = some yjsToken)
      (htoken : extractToken opened.request.url = some yjsToken) (h : Joins cfg s g.state opened d)

theorem admitConnection_membership (s : YjsServer Document Awareness) (opened : Opened cfg.toLowerCase)
    (t : YjsTrigger cfg) (ht : handles cfg opened t) :
    Membership cfg s t (admitConnection cfg s opened) := by
  unfold admitConnection
  split_ifs
  · exact .keeps none nofun (Keeps.closeSocket cfg _ _)
  · split
    · rename_i yjsToken token hroom htoken
      split_ifs with hrejected
      · exact .keeps none nofun (Keeps.closeSocket cfg _ _)
      · obtain ⟨d, hjoins⟩ := register_joins cfg s opened
        have hsame : yjsToken = token := by
          by_contra hne
          exact hrejected (.inr hne)
        exact .joins opened d yjsToken ht hroom (hsame ▸ htoken) hjoins
    · exact .keeps none nofun (Keeps.closeSocket cfg _ _)

/-- The handler of a connection that has just been opened. -/
theorem Membership.of_open {s : YjsServer Document Awareness} {conn : ConnId} {t : YjsTrigger cfg}
    {g : YjsStep cfg} (hnew : (s.sockets conn).readyState = .connecting)
    (h : Membership cfg (s.setReadyState conn .open) t g) : Membership cfg s t g := by
  have hopened : Keeps none s (s.setReadyState conn .open) := by
    apply Keeps.setReadyState
    intro hclosed
    rw [hnew] at hclosed
    cases hclosed
  cases h with
  | keeps written hwritten h =>
    refine .keeps written hwritten ⟨h.joined, h.nextDoc, h.docs, h.conns, ?_, h.document⟩
    exact fun conn' hclosed => h.closed conn' (hopened.closed conn' hclosed)
  | joins opened d yjsToken ht hroom htoken h =>
    refine .joins opened d yjsToken ht hroom htoken ⟨h.named, h.docs, h.joined, h.conns, ?_, h.document⟩
    exact fun conn' hclosed => h.closed conn' (hopened.closed conn' hclosed)

/-- **Membership.** -/
theorem fire_membership {s : YjsServer Document Awareness} {t : YjsTrigger cfg} {g : YjsStep cfg}
    (hfire : (yjsServer cfg).fire s t = some g) : Membership cfg s t g := by
  cases fire_cases hfire with
  | connects conn request hnew =>
    apply Membership.of_open cfg hnew
    obtain ⟨-, hg⟩ | ⟨opened, rfl, rfl, hg⟩ := onConnection_cases cfg s conn request
    · rw [hg]
      exact .keeps none nofun (Keeps.refl _)
    · split_ifs at hg
      · rw [hg]
        exact .keeps none nofun (Keeps.refl _)
      · rw [hg]
        exact admitConnection_membership cfg _ opened _ (.inr rfl)
  | admits opened => exact admitConnection_membership cfg s opened _ (.inl rfl)
  | applies conn d size message hjoined =>
    by_cases hsize : size > cfg.maxMessageBytes
    · refine .keeps none nofun (Keeps.onDoc cfg ?_ fun _ => ?_)
      · exact Narrows.handleIncomingMessage cfg.yjs _ _ conn size message _
      · unfold handleIncomingMessage
        rw [if_pos hsize, close_doc]
        rfl
    · refine .keeps (some d) (fun d' hd' => ⟨conn, message, if_neg hsize, hjoined.trans hd'⟩)
        (Keeps.onDoc cfg ?_ fun hne => absurd rfl hne)
      exact Narrows.handleIncomingMessage cfg.yjs _ _ conn size message _
  | denies task haccess => exact .keeps none nofun (Keeps.closeSocket cfg _ _)
  | closing conn hopen =>
    refine .keeps none nofun (Keeps.setReadyState fun hclosed => ?_)
    rw [hopen] at hclosed
    cases hclosed
  | closes conn haccepted =>
    have hclosed : Keeps none s (s.setReadyState conn .closed) := Keeps.setReadyState fun _ => rfl
    refine .keeps none nofun ?_
    unfold onClose
    dsimp only
    split
    · exact hclosed
    · exact hclosed.trans (Keeps.closeConn cfg _ conn)
  | sendFails conn d hjoined => exact .keeps none nofun (Keeps.closeConn cfg d conn)
  | pingFails conn d hjoined => exact .keeps none nofun (Keeps.closeConn cfg d conn)
  | creates roomCode yjsToken =>
    refine .keeps none nofun ?_
    unfold createRoom
    split_ifs <;> exact (Keeps.refl s).withRooms _
  | rotates roomCode yjsToken => exact .keeps none nofun ((Keeps.refl s).withRooms _)
  | destroys roomCode => exact .keeps none nofun (Keeps.destroyRoom cfg roomCode)
  | shuts => exact .keeps none nofun (Keeps.destroyAllSharedDocs cfg)
  | _ => exact .keeps none nofun (Keeps.refl _)

/-! ## The documents of the registry -/

/-- Documents have their numbers in the order in which they are made, and one name each; no connection has
joined one that has not been made. -/
structure Numbered (s : YjsServer Document Awareness) : Prop where
  names : (s.docs.map Prod.fst).Nodup
  numbers : (s.docs.map Prod.snd).Nodup
  docs : ∀ x ∈ s.docs, x.2 < s.nextDoc
  joined : ∀ conn d, s.joined conn = some d → d < s.nextDoc
  unmade : ∀ d conn, s.nextDoc ≤ d → (s.heap d).has conn = false

namespace Numbered
variable {s s' : YjsServer Document Awareness}

theorem find_iff (h : Numbered s) {name : JsString} {d : DocId} :
    s.findSharedDoc name = some d ↔ (name, d) ∈ s.docs :=
  Enumeration.find_value_iff h.names

theorem keeps {written : Option DocId} (h : Numbered s) (hkeeps : Keeps written s s') : Numbered s' where
  names := h.names.sublist (hkeeps.docs.map _)
  numbers := h.numbers.sublist (hkeeps.docs.map _)
  docs x hx := hkeeps.nextDoc ▸ h.docs x (hkeeps.docs.subset hx)
  joined conn d hd := by
    rw [hkeeps.joined] at hd
    exact hkeeps.nextDoc ▸ h.joined conn d hd
  unmade d conn hd := by
    rw [hkeeps.nextDoc] at hd
    by_contra hhas
    have hbefore := hkeeps.conns d conn (Bool.not_eq_false _ ▸ hhas)
    rw [h.unmade d conn hd] at hbefore
    cases hbefore

theorem joins {opened : Opened cfg.toLowerCase} {d : DocId} (h : Numbered s)
    (hjoins : Joins cfg s s' opened d) : Numbered s' := by
  obtain ⟨hnames, hnumbers, hdocs, hnext⟩ : (s'.docs.map Prod.fst).Nodup ∧
      (s'.docs.map Prod.snd).Nodup ∧ (∀ x ∈ s'.docs, x.2 < s'.nextDoc) ∧ s.nextDoc ≤ s'.nextDoc := by
    rcases hjoins.docs with ⟨hsame, hnext⟩ | ⟨rfl, hunnamed, hnew, hnext⟩
    · rw [hsame, hnext]
      exact ⟨h.names, h.numbers, h.docs, Nat.le_refl _⟩
    · rw [hnew, hnext, List.map_append, List.map_append]
      refine ⟨?_, ?_, ?_, Nat.le_succ _⟩
      · refine nodup_concat h.names fun hmem => ?_
        obtain ⟨⟨name, d⟩, hmem, rfl⟩ := List.mem_map.mp hmem
        exact hunnamed d hmem
      · refine nodup_concat h.numbers fun hmem => ?_
        obtain ⟨x, hmem, hx⟩ := List.mem_map.mp hmem
        exact absurd hx (h.docs x hmem).ne
      · intro x hx
        rcases List.mem_append.mp hx with hx | hx
        · exact (h.docs x hx).trans (Nat.lt_succ_self _)
        · rw [List.mem_singleton.mp hx]
          exact Nat.lt_succ_self _
  have hd : d < s'.nextDoc := hdocs _ hjoins.named
  refine ⟨hnames, hnumbers, hdocs, fun conn d' hd' => ?_, fun d' conn hd' => ?_⟩
  · rw [hjoins.joined] at hd'
    by_cases hconn : conn = opened.conn
    · subst hconn
      rw [Function.update_self] at hd'
      exact Option.some.inj hd' ▸ hd
    · rw [Function.update_of_ne hconn] at hd'
      exact (h.joined conn d' hd').trans_le hnext
  · by_contra hhas
    rcases hjoins.conns d' conn (Bool.not_eq_false _ ▸ hhas) with hbefore | ⟨rfl, -⟩
    · rw [h.unmade d' conn (hnext.trans hd')] at hbefore
      cases hbefore
    · exact absurd hd hd'.not_gt

theorem step {t : YjsTrigger cfg} {g : YjsStep cfg} (h : Numbered s)
    (hfire : (yjsServer cfg).fire s t = some g) : Numbered g.state := by
  cases fire_membership cfg hfire with
  | keeps written _ hkeeps => exact h.keeps hkeeps
  | joins opened d _ _ _ _ hjoins => exact h.joins cfg hjoins

end Numbered

theorem initial_numbered : Numbered (initialYjs cfg).shared where
  names := List.nodup_nil
  numbers := List.nodup_nil
  docs := nofun
  joined := nofun
  unmade _ _ _ := rfl

/-! ## The tokens of the rooms -/

theorem destroySharedDoc_rooms (s : YjsServer Document Awareness) (name : JsString) :
    (s.destroySharedDoc cfg name).state.rooms = s.rooms := by
  unfold YjsServer.destroySharedDoc
  split <;> rfl

theorem closeSocket_rooms (s : YjsServer Document Awareness) (conn : ConnId) (frame : CloseFrame) :
    (s.closeSocket cfg conn frame).state.rooms = s.rooms := by
  unfold YjsServer.closeSocket
  split_ifs <;> rfl

theorem admitConnection_rooms (s : YjsServer Document Awareness) (opened : Opened cfg.toLowerCase) :
    (admitConnection cfg s opened).state.rooms = s.rooms := by
  unfold admitConnection
  split_ifs
  · exact closeSocket_rooms cfg s _ _
  · split
    · split_ifs
      · exact closeSocket_rooms cfg s _ _
      · have hget : (s.getOrCreateSharedDoc cfg opened.roomName).1.rooms = s.rooms := by
          unfold YjsServer.getOrCreateSharedDoc
          split <;> rfl
        unfold register
        dsimp only
        split <;> exact hget
    · exact closeSocket_rooms cfg s _ _

/-- Tokens change with the rooms alone. -/
theorem fire_rooms {s : YjsServer Document Awareness} {t : YjsTrigger cfg} {g : YjsStep cfg}
    (hfire : (yjsServer cfg).fire s t = some g) : g.state.rooms = s.rooms ∨
      (∃ roomCode yjsToken, t = .event (.createRoom roomCode yjsToken) ∧
        g = Segment.of (createRoom s roomCode yjsToken)) ∨
      (∃ roomCode yjsToken, t = .event (.rotateToken roomCode yjsToken) ∧
        g = Segment.of (rotateToken s roomCode yjsToken)) ∨
      ∃ roomCode, t = .event (.destroyRoom roomCode) ∧ g = destroyRoom cfg s roomCode := by
  cases fire_cases hfire with
  | connects conn request hnew =>
    left
    obtain ⟨-, hg⟩ | ⟨opened, rfl, rfl, hg⟩ := onConnection_cases cfg s conn request
    · rw [hg]
      rfl
    · split_ifs at hg
      · rw [hg]
        rfl
      · rw [hg]
        exact admitConnection_rooms cfg _ opened
  | admits opened => exact .inl (admitConnection_rooms cfg s opened)
  | denies task haccess => exact .inl (closeSocket_rooms cfg s _ _)
  | closes conn haccepted =>
    left
    unfold onClose
    dsimp only
    split <;> rfl
  | creates roomCode yjsToken => exact .inr (.inl ⟨roomCode, yjsToken, rfl, rfl⟩)
  | rotates roomCode yjsToken => exact .inr (.inr (.inl ⟨roomCode, yjsToken, rfl, rfl⟩))
  | destroys roomCode => exact .inr (.inr (.inr ⟨roomCode, rfl, rfl⟩))
  | shuts =>
    left
    refine destroyAllSharedDocs_rule cfg (J := fun g => g.state.rooms = s.rooms) rfl fun g name hg => ?_
    exact (destroySharedDoc_rooms cfg g.state name).trans hg
  | _ => exact .inl rfl

/-- The token under which a room is known. -/
def tokenOf (s : YjsServer Document Awareness) (roomCode : JsString) : Option JsString :=
  (s.rooms.find? (·.1 = roomCode)).map Prod.snd

theorem tokenOf_rotateToken (s : YjsServer Document Awareness) (roomCode roomCode' yjsToken : JsString) :
    tokenOf (rotateToken s roomCode' yjsToken) roomCode =
      (tokenOf s roomCode).map fun old => if roomCode' = roomCode then yjsToken else old := by
  unfold tokenOf rotateToken
  dsimp only
  induction s.rooms with
  | nil => rfl
  | cons room rooms ih =>
    rw [List.map_cons, List.find?_cons, List.find?_cons]
    by_cases hroom : room.1 = roomCode' <;> by_cases hcode : room.1 = roomCode
    · have hsame : roomCode' = roomCode := hroom.symm.trans hcode
      simp [hroom, hsame]
    · have hne : roomCode' ≠ roomCode := fun h => hcode (hroom.trans h)
      simpa [hroom, hne] using ih
    · have hne : roomCode' ≠ roomCode := fun h => hroom (hcode.trans h.symm)
      rw [if_neg hroom]
      simp [hcode, hne]
    · simpa [hroom, hcode] using ih

theorem tokenOf_createRoom {s : YjsServer Document Awareness} {roomCode roomCode' : JsString}
    (hne : roomCode' ≠ roomCode) (yjsToken : JsString) :
    tokenOf (createRoom s roomCode' yjsToken) roomCode = tokenOf s roomCode := by
  unfold createRoom
  split_ifs
  · rw [tokenOf_rotateToken]
    simp [hne]
  · unfold tokenOf
    simp [List.find?_append, hne]

theorem tokenOf_destroyRoom (s : YjsServer Document Awareness) (roomCode roomCode' : JsString) :
    tokenOf (destroyRoom cfg s roomCode').state roomCode =
      if normalizeRoomCode cfg.toLowerCase roomCode' = roomCode then none else tokenOf s roomCode := by
  have hfilter : ∀ code : JsString, (s.rooms.filter (·.1 ≠ code)).find? (fun room => room.1 = roomCode) =
      if code = roomCode then none else s.rooms.find? (fun room => room.1 = roomCode) := by
    intro code
    rw [List.find?_filter]
    split_ifs with hcode
    · simp [hcode]
    · congr 1
      funext room
      by_cases hroom : room.1 = roomCode <;> simp [hroom, Ne.symm hcode]
  unfold destroyRoom
  dsimp only
  split_ifs with hany hcode hcode
  · change ((List.filter _ _).find? _).map Prod.snd = none
    rw [destroySharedDoc_rooms, hfilter, if_pos hcode]
    rfl
  · change ((List.filter _ _).find? _).map Prod.snd = _
    rw [destroySharedDoc_rooms, hfilter, if_neg hcode]
    rfl
  · have hnone : s.rooms.find? (fun room => room.1 = roomCode) = none := by
      rw [List.find?_eq_none]
      intro room hroom
      rw [hcode] at hany
      simp only [List.any_eq_true, not_exists, not_and] at hany
      exact hany room hroom
    change (s.rooms.find? _).map Prod.snd = none
    rw [hnone]
    rfl
  · rfl

end
end
end CodeShare.Ws
