import CodeShare.Ws.ServerSteps

/-! # The size of a document

A message is applied, and sent to everybody, before the document is measured. The limit holds exactly in
the runs in which no message makes a document exceed it; behind one that does, every message closes its
own connection.
-/

namespace CodeShare.Ws
open Tasks
set_option autoImplicit false

section
variable {Document Awareness Payload : Type} (cfg : YjsServerConfig Document Awareness Payload)

/-- The document with the effect of a message. -/
def merged (yjs : Yjs Document Awareness Payload) (document : Document) : Message Payload → Document
  | .syncStep2 update | .syncUpdate update => (yjs.applyUpdate document update).1
  | _ => document

def Exceeds (document : Document) (message : Message Payload) : Prop :=
  cfg.maxDocBytes < encodedLength cfg.yjs (merged cfg.yjs document message)

/-- The limit over one segment: what a message leaves is in the limit, a message that exceeds it has no
effect, and only such a message is a reason to close its connection. -/
structure LimitEnforced (turn : YjsTurn cfg) : Prop where
  bounded : ∀ conn message d, appliedMessage cfg turn.trigger = some (conn, message) →
    turn.before.shared.joined conn = some d →
    encodedLength cfg.yjs (turn.after.shared.heap d).document ≤ cfg.maxDocBytes
  rejected : ∀ conn message d, appliedMessage cfg turn.trigger = some (conn, message) →
    turn.before.shared.joined conn = some d → Exceeds cfg (turn.before.shared.heap d).document message →
    (turn.after.shared.heap d).document = (turn.before.shared.heap d).document ∧
      ∀ receiver update, .sent receiver (.syncUpdate update) ∉ turn.out
  blamed : ∀ conn, .closed conn (some documentTooLarge) ∈ turn.out →
    ∃ message d, appliedMessage cfg turn.trigger = some (conn, message) ∧
      turn.before.shared.joined conn = some d ∧ Exceeds cfg (turn.before.shared.heap d).document message

/-- The message of the segment, if it applies one, leaves the document in the limit. -/
def WithinLimit (c : YjsConf cfg) (t : YjsTrigger cfg) : Prop :=
  ∀ conn message d, appliedMessage cfg t = some (conn, message) → c.shared.joined conn = some d →
    ¬ Exceeds cfg (c.shared.heap d).document message

instance (document : Document) (message : Message Payload) : Decidable (Exceeds cfg document message) :=
  inferInstanceAs (Decidable (_ < _))

instance (c : YjsConf cfg) (t : YjsTrigger cfg) : Decidable (WithinLimit cfg c t) :=
  decidable_of_iff (∀ m ∈ appliedMessage cfg t, ∀ d ∈ c.shared.joined m.1,
      ¬ Exceeds cfg (c.shared.heap d).document m.2)
    ⟨fun h conn message d happlied hd => h (conn, message) happlied d hd,
      fun h m happlied d hd => h m.1 m.2 d happlied hd⟩

/-! ## What becomes of the document -/

section
variable (yjs : Yjs Document Awareness Payload)

theorem stable_document (document : Document) :
    Stable fun w : Hub Document Awareness Payload => w.doc.document = document where
  sent _ _ _ h := h
  removed _ _ _ h := h
  closed w conn h := by rw [close_doc]; exact h

theorem broadcast_document (message : Message Payload) (w : Hub Document Awareness Payload) :
    (broadcast yjs message w).doc.document = w.doc.document :=
  (stable_document w.doc.document).broadcast yjs (fun _ _ h => h) rfl

theorem closeConn_document (frame : Option CloseFrame) (conn : ConnId)
    (w : Hub Document Awareness Payload) :
    (closeConn yjs frame conn w).doc.document = w.doc.document := by
  refine (stable_document w.doc.document).closeConn yjs (fun w h => ?_) rfl
  rw [close_doc]
  exact h

theorem trySend_document {w w' : Hub Document Awareness Payload} {conn : ConnId}
    {message : Message Payload} (h : w.trySend conn message = .ok w' ∨ w.trySend conn message = .error w') :
    w'.doc.document = w.doc.document := by
  unfold Hub.trySend at h
  cases hsend : w.send conn message with
  | none =>
    rw [hsend] at h
    rcases h with h | h <;> cases h
    rfl
  | some sent =>
    rw [hsend] at h
    rcases h with h | h <;> cases h
    rw [send_doc hsend]

theorem applyUpdate_document (update : Payload) (w : Hub Document Awareness Payload) :
    (applyUpdate yjs update w).doc.document = (yjs.applyUpdate w.doc.document update).1 := by
  unfold applyUpdate
  dsimp only
  split
  · exact broadcast_document yjs _ _
  · rfl

theorem onAwarenessUpdate_document (conn : ConnId) (change : AwarenessChange)
    (w : Hub Document Awareness Payload) :
    (onAwarenessUpdate yjs conn change w).doc.document = w.doc.document :=
  broadcast_document yjs _ _

theorem readMessage_document {conn : ConnId} {message : Message Payload}
    {w w' : Hub Document Awareness Payload}
    (h : readMessage yjs conn message w = .ok w' ∨ readMessage yjs conn message w = .error w') :
    w'.doc.document = merged yjs w.doc.document message := by
  cases message with
  | syncStep1 stateVector =>
    simp only [readMessage] at h
    split at h
    · exact trySend_document h
    · rcases h with h | h <;> cases h
      rfl
  | syncStep2 update =>
    rcases h with h | h <;> cases h
    exact applyUpdate_document yjs update w
  | syncUpdate update =>
    rcases h with h | h <;> cases h
    exact applyUpdate_document yjs update w
  | awareness update =>
    simp only [readMessage, applyAwarenessUpdate] at h
    split at h
    · rcases h with h | h <;> cases h
      rfl
    · rcases h with h | h <;> cases h
      split_ifs
      · rfl
      · exact onAwarenessUpdate_document yjs conn _ _
  | other =>
    rcases h with h | h <;> cases h
    rfl
  | unreadable =>
    rcases h with h | h <;> cases h
    rfl

/-- The effect of a message is there whatever its size. -/
theorem messageListener_document (maxDocBytes : ℕ) (conn : ConnId) (message : Message Payload)
    (w : Hub Document Awareness Payload) :
    (messageListener yjs maxDocBytes conn message w).doc.document =
      merged yjs w.doc.document message := by
  unfold messageListener
  cases hread : readMessage yjs conn message w with
  | ok w' =>
    rw [← readMessage_document yjs (.inl hread)]
    dsimp only
    split_ifs
    · exact closeConn_document yjs _ conn w'
    · rfl
  | error w' =>
    rw [← readMessage_document yjs (.inr hread)]
    exact closeConn_document yjs _ conn w'

end

/-! ## Who is closed as too large -/

/-- Nobody is closed as too large. -/
def Unblaming (out : List (WsEffect Payload)) : Prop :=
  ∀ conn, .closed conn (some documentTooLarge) ∉ out

theorem Unblaming.concat {out : List (WsEffect Payload)} {effect : WsEffect Payload} (h : Unblaming out)
    (heffect : ∀ conn, effect ≠ .closed conn (some documentTooLarge)) : Unblaming (out ++ [effect]) := by
  intro conn hmem
  rcases List.mem_append.mp hmem with hold | hlast
  · exact h conn hold
  · exact heffect conn (List.mem_singleton.mp hlast).symm

theorem permits_unblaming :
    Permits fun (_ : ConnId → Socket) (out : List (WsEffect Payload)) => Unblaming out where
  sent _ _ _ _ h := h.concat nofun
  closed _ _ _ frame hframe h := h.concat fun conn heq => hframe (by cases heq; rfl)
  moved _ _ _ _ _ h := h
  rejected _ _ h := h.concat nofun

/-- Only a segment that applies a message which exceeds the limit closes a connection as too large. -/
theorem fire_unblaming {s : YjsServer Document Awareness} {g : YjsStep cfg} {t : YjsTrigger cfg}
    (h : (yjsServer cfg).fire s t = some g)
    (hlimit : ∀ conn message d, appliedMessage cfg t = some (conn, message) → s.joined conn = some d →
      ¬ Exceeds cfg (s.heap d).document message) : Unblaming g.out := by
  refine permits_unblaming.fire cfg (fun _ => List.not_mem_nil) h ?_
  intro conn message d w happlied hread hd hlarge
  rw [readMessage_document cfg.yjs (.inl hread)] at hlarge
  exact absurd hlarge (hlimit conn message d happlied hd)

/-- What the segment that applies a message does. -/
theorem fire_appliedMessage {s : YjsServer Document Awareness} {t : YjsTrigger cfg} {g : YjsStep cfg}
    (h : (yjsServer cfg).fire s t = some g) {conn : ConnId} {message : Message Payload}
    (happlied : appliedMessage cfg t = some (conn, message)) : ∃ d, s.joined conn = some d ∧
      g = s.onDoc cfg d (messageListener cfg.yjs cfg.maxDocBytes conn message) := by
  cases fire_cases h with
  | applies conn' d size message' hjoined =>
    rw [appliedMessage] at happlied
    split_ifs at happlied with hsize
    obtain ⟨rfl, rfl⟩ := Prod.mk.inj (Option.some.inj happlied)
    refine ⟨d, hjoined, ?_⟩
    unfold handleIncomingMessage
    simp only [if_neg hsize]
  | denies task => cases task <;> cases happlied
  | _ => cases happlied

theorem limitEnforced_iff (turn : YjsTurn cfg) (g : YjsStep cfg) (rest : List (YjsTask cfg.toLowerCase Payload))
    (hby : (yjsServer cfg).StepBy turn.before turn.after turn.out turn.trigger g rest) :
    LimitEnforced cfg turn ↔ WithinLimit cfg turn.before turn.trigger := by
  cases happlied : appliedMessage cfg turn.trigger with
  | none =>
    have hno : ∀ m, appliedMessage cfg turn.trigger ≠ some m := by
      intro m hm
      rw [happlied] at hm
      cases hm
    have hquiet := fire_unblaming cfg hby.fire fun _ _ _ h => absurd h (hno _)
    rw [← hby.out] at hquiet
    exact iff_of_true
      ⟨fun _ _ _ h => absurd h (hno _), fun _ _ _ h => absurd h (hno _),
        fun conn hmem => absurd hmem (hquiet conn)⟩
      fun _ _ _ h => absurd h (hno _)
  | some m =>
    obtain ⟨conn, message⟩ := m
    obtain ⟨d, hd, hg⟩ := fire_appliedMessage cfg hby.fire happlied
    have hafter : (turn.after.shared.heap d).document =
        merged cfg.yjs (turn.before.shared.heap d).document message := by
      rw [hby.shared, hg]
      change (Function.update turn.before.shared.heap d _ d).document = _
      rw [Function.update_self]
      exact messageListener_document cfg.yjs cfg.maxDocBytes conn message _
    constructor
    · intro henforced conn' message' d' happlied' hd' hexceeds
      obtain ⟨rfl, rfl⟩ := Prod.mk.inj (Option.some.inj (happlied.symm.trans happlied'))
      obtain rfl := Option.some.inj (hd.symm.trans hd')
      have hbounded := henforced.bounded conn message d happlied hd
      rw [hafter] at hbounded
      exact Nat.not_lt.mpr hbounded hexceeds
    · intro hwithin
      have hlimit := Nat.not_lt.mp (hwithin conn message d happlied hd)
      refine ⟨fun conn' message' d' happlied' hd' => ?_, fun conn' message' d' happlied' hd' hexceeds => ?_,
        fun conn' hmem => ?_⟩
      · obtain ⟨rfl, rfl⟩ := Prod.mk.inj (Option.some.inj (happlied.symm.trans happlied'))
        obtain rfl := Option.some.inj (hd.symm.trans hd')
        rw [hafter]
        exact hlimit
      · exact absurd hexceeds (hwithin conn' message' d' happlied' hd')
      · rw [hby.out] at hmem
        exact absurd hmem (fire_unblaming cfg hby.fire hwithin conn')

/-- The limit holds over the runs in which every message leaves its document in the limit. -/
theorem document_limit_iff {c c' : YjsConf cfg} {acts : List (YjsAct Payload)}
    {out : List (WsEffect Payload)} (hrun : (yjsServer cfg).run c acts = some (c', out)) :
    (∀ turn ∈ (yjsServer cfg).history c acts, LimitEnforced cfg turn) ↔
      (yjsServer cfg).Meets (WithinLimit cfg) c acts :=
  Machine.forall_history_iff_meets (fun turn g rest _ hby => limitEnforced_iff cfg turn g rest hby)
    (Machine.meets_true c acts) hrun

end

/-- Two connections to one room. -/
def exampleSession : List (YjsAct ℕ) :=
  [.event (.createRoom (js "abc-xyz") (js "secret")), exampleConnection 0, exampleConnection 1]

theorem document_limit_iff_example : ∃ c out,
    (yjsServer plainYjsConfig).run (initialYjs plainYjsConfig)
      (exampleSession ++ [.event (.message 0 20 (.syncUpdate 16)), .resume 0 .allowed]) = some (c, out) ∧
    (c.shared.heap 0).document = 16 ∧
    ((∀ turn ∈ (yjsServer plainYjsConfig).history (initialYjs plainYjsConfig)
        (exampleSession ++ [.event (.message 0 20 (.syncUpdate 16)), .resume 0 .allowed]),
        LimitEnforced plainYjsConfig turn) ↔
      (yjsServer plainYjsConfig).Meets (WithinLimit plainYjsConfig) (initialYjs plainYjsConfig)
        (exampleSession ++ [.event (.message 0 20 (.syncUpdate 16)), .resume 0 .allowed])) := by
  have hfinal : ((yjsServer plainYjsConfig).run (initialYjs plainYjsConfig)
      (exampleSession ++ [.event (.message 0 20 (.syncUpdate 16)), .resume 0 .allowed])).map
      (fun r => (r.1.shared.heap 0).document) = some 16 := by decide +kernel
  obtain ⟨⟨c, out⟩, hrun, hdocument⟩ := Option.map_eq_some_iff.mp hfinal
  exact ⟨c, out, hrun, hdocument, document_limit_iff plainYjsConfig hrun⟩

/-- With its third message the first connection has inserted more than a document may hold; then the
second one moves its cursor. -/
def oversizedSession : List (YjsAct ℕ) :=
  exampleSession ++
    (List.replicate 3 [.event (.message 0 30020 (.syncUpdate 30000)), .resume 0 .allowed]).flatten ++
    [.event (.message 1 20 (.awareness 5)), .resume 0 .allowed]

/-- What a message has exceeded the limit with stays and has been sent to the others, and they are closed
for it. -/
theorem others_closed_as_too_large :
    (¬ ∀ turn ∈ (yjsServer plainYjsConfig).history (initialYjs plainYjsConfig) oversizedSession,
      LimitEnforced plainYjsConfig turn) ∧
    ∃ c out, (yjsServer plainYjsConfig).run (initialYjs plainYjsConfig) oversizedSession = some (c, out) ∧
      (c.shared.heap 0).document = 90000 ∧ .sent 1 (.syncUpdate 30000) ∈ out ∧
      .closed 1 (some documentTooLarge) ∈ out := by
  have hfinal : ((yjsServer plainYjsConfig).run (initialYjs plainYjsConfig) oversizedSession).map
      (fun r => ((r.1.shared.heap 0).document, r.2.drop 6)) = some (90000,
        [.sent 0 (.syncUpdate 30000), .sent 1 (.syncUpdate 30000), .closed 0 (some documentTooLarge),
          .sent 1 (.awareness 1), .closed 1 (some documentTooLarge)]) := by
    decide +kernel
  have hexceeds : ¬ (yjsServer plainYjsConfig).Meets (WithinLimit plainYjsConfig)
      (initialYjs plainYjsConfig) oversizedSession := by
    decide +kernel
  obtain ⟨⟨c, out⟩, hrun, hresult⟩ := Option.map_eq_some_iff.mp hfinal
  obtain ⟨hdocument, hlast⟩ := Prod.mk.inj hresult
  have hmem : ∀ effect ∈ out.drop 6, effect ∈ out := fun _ => List.mem_of_mem_drop
  rw [hlast] at hmem
  refine ⟨fun henforced => hexceeds ?_, c, out, hrun, hdocument, hmem _ (by decide), hmem _ (by decide)⟩
  exact (Machine.forall_history_iff_meets
    (fun turn g rest _ hby => limitEnforced_iff plainYjsConfig turn g rest hby)
    (Machine.meets_true _ _) hrun).mp henforced

end CodeShare.Ws
