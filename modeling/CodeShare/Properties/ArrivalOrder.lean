import CodeShare.Foundations.Queues
import CodeShare.Properties.DocumentLimit
import CodeShare.Server.AccessGate
import Mathlib.Data.List.Flatten

/-! # The order of arrival

Every message of a connection and every event of a socket waits for an access check of its own, and there
is no queue. They are handled in the order in which they arrived as long as no check lets something pass
that has come later, and a message finds its connection in the document as long as no connection is removed
that still has messages to be checked.
-/

namespace CodeShare
open Tasks
set_option autoImplicit false

/-! ## Messages of a connection -/

namespace Ws

section
variable {Document Awareness Payload : Type} (cfg : YjsServerConfig Document Awareness Payload)

def arrivedMessages (conn : ConnId) (turn : YjsTurn cfg) : List (Message Payload) :=
  match turn.trigger with
  | .event (.message conn' _ message) => if conn' = conn then [message] else []
  | _ => []

def appliedMessages (conn : ConnId) (turn : YjsTurn cfg) : List (Message Payload) :=
  match appliedMessage cfg turn.trigger with
  | some (conn', message) => if conn' = conn then [message] else []
  | none => []

/-- One of the connections of its document. -/
def YjsServer.Registered (s : YjsServer Document Awareness) (conn : ConnId) : Prop :=
  ∃ d, s.joined conn = some d ∧ (s.heap d).has conn = true

instance (s : YjsServer Document Awareness) (conn : ConnId) : Decidable (s.Registered conn) :=
  decidable_of_iff (∃ d ∈ s.joined conn, (s.heap d).has conn = true)
    (exists_congr fun _ => and_congr_left' Option.mem_def)

/-- The message that waits for its check, with its connection. One that is too large is not looked at. -/
def messageLabel : YjsTask cfg.toLowerCase Payload → Option (ConnId × Message Payload)
  | .validateMessage conn size message =>
    if size > cfg.maxMessageBytes then none else some (conn, message)
  | _ => none

def Validation.letsPass : Validation → Bool
  | allowed => true
  | denied => false

/-- No check lets a message pass before the older messages of its connection have been checked. -/
abbrev MessagesInTurn (c : YjsConf cfg) (a : YjsAct Payload) : Prop :=
  InTurn (messageLabel cfg) Validation.letsPass c a

/-- The message that starts to wait for its check. -/
def enteringLabel : YjsAct Payload → Option (ConnId × Message Payload)
  | .event (.message conn size message) =>
    if size > cfg.maxMessageBytes then none else some (conn, message)
  | _ => none

/-- A message comes from a connection that is in its document, and no connection leaves its document
while a message of it waits for its check. -/
structure Attended (c : YjsConf cfg) (a : YjsAct Payload) : Prop where
  arrives : ∀ x ∈ enteringLabel cfg a, c.shared.Registered x.1
  stays : ∀ task ∈ Machine.rest c a, ∀ x ∈ messageLabel cfg task, c.shared.Registered x.1 →
    ∀ r ∈ (yjsServer cfg).step c a, r.1.shared.Registered x.1

instance (c : YjsConf cfg) (a : YjsAct Payload) : Decidable (Attended cfg c a) :=
  decidable_of_iff ((∀ x ∈ enteringLabel cfg a, c.shared.Registered x.1) ∧
      ∀ task ∈ Machine.rest c a, ∀ x ∈ messageLabel cfg task, c.shared.Registered x.1 →
        ∀ r ∈ (yjsServer cfg).step c a, r.1.shared.Registered x.1)
    ⟨fun h => ⟨h.1, h.2⟩, fun h => ⟨h.arrives, h.stays⟩⟩

theorem appliedMessages_eq (conn : ConnId) (turn : YjsTurn cfg) :
    appliedMessages cfg conn turn = turn.passed (messageLabel cfg) Validation.letsPass conn := by
  unfold appliedMessages Turn.passed
  cases turn.trigger with
  | event e => rfl
  | task task outcome =>
    cases outcome with
    | denied => cases task <;> rfl
    | allowed =>
      cases task with
      | validateMessage conn' size message =>
        by_cases hsize : size > cfg.maxMessageBytes
        · simp [appliedMessage, waiting, messageLabel, hsize]
        · by_cases hconn : conn' = conn <;>
            simp [appliedMessage, waiting, messageLabel, Validation.letsPass, hsize, hconn]
      | _ => rfl

/-- Only an arriving message starts to wait for its check. -/
theorem fire_message {s : YjsServer Document Awareness} {t : YjsTrigger cfg} {g : YjsStep cfg}
    (h : (yjsServer cfg).fire s t = some g) :
    (∀ task ∈ g.next, messageLabel cfg task = none) ∨
    ∃ conn size message, t = .event (.message conn size message) ∧
      g = (Segment.of s).suspend (.validateMessage conn size message) := by
  cases fire_next cfg h with
  | none hnext =>
    rw [hnext]
    exact .inl nofun
  | connection opened ht hg =>
    rw [hg]
    exact .inl (List.forall_mem_singleton.mpr rfl)
  | message conn size message ht hg => exact .inr ⟨conn, size, message, ht, hg⟩
  | access conn ht hg =>
    rw [hg]
    exact .inl (List.forall_mem_singleton.mpr rfl)

theorem suspended_arrived (conn : ConnId) {c : YjsConf cfg} {acts : List (YjsAct Payload)}
    {turn : YjsTurn cfg} (hm : turn ∈ (yjsServer cfg).history c acts) :
    (waiting (messageLabel cfg) conn ((yjsServer cfg).suspended turn)).Sublist
      (arrivedMessages cfg conn turn) := by
  obtain ⟨g, rest, hby⟩ := Machine.history_by hm
  rw [Machine.suspended_eq hby]
  rcases fire_message cfg hby.fire with hnone | ⟨conn', size, message, ht, hg⟩
  · have hempty : waiting (messageLabel cfg) conn g.next = [] := by
      apply List.filterMap_eq_nil_iff.mpr
      intro task htask
      rw [hnone task htask]
      rfl
    rw [hempty]
    exact List.nil_sublist _
  · unfold arrivedMessages
    rw [ht, hg]
    by_cases hsize : size > cfg.maxMessageBytes
    · simp [waiting, messageLabel, hsize]
    · by_cases hconn : conn' = conn <;> simp [waiting, messageLabel, hsize, hconn]

/-- The messages of a connection are applied in the order in which they arrived. -/
theorem applied_in_order {acts : List (YjsAct Payload)} {c : YjsConf cfg}
    {out : List (WsEffect Payload)}
    (hturns : (yjsServer cfg).Obeys (MessagesInTurn cfg) (initialYjs cfg) acts)
    (hrun : (yjsServer cfg).run (initialYjs cfg) acts = some (c, out)) (conn : ConnId) :
    (((yjsServer cfg).history (initialYjs cfg) acts).flatMap (appliedMessages cfg conn)).Sublist
      (((yjsServer cfg).history (initialYjs cfg) acts).flatMap (arrivedMessages cfg conn)) := by
  have hpassed := passed_sublist (k := conn) hturns hrun
  rw [show appliedMessages cfg conn = Turn.passed (messageLabel cfg) Validation.letsPass conn from
    funext (appliedMessages_eq cfg conn)]
  refine ((List.sublist_append_left _ _).trans hpassed).trans ?_
  apply List.Sublist.flatMap_right
  intro turn hm
  exact suspended_arrived cfg conn hm

/-- Every message that waits for its check has its connection in the document. -/
def Awaited (c : YjsConf cfg) : Prop :=
  ∀ task ∈ c.pool, ∀ x ∈ messageLabel cfg task, c.shared.Registered x.1

theorem awaited_step {c c' : YjsConf cfg} {a : YjsAct Payload} {out : List (WsEffect Payload)}
    (h : Awaited cfg c) (hattended : Attended cfg c a)
    (hs : (yjsServer cfg).step c a = some (c', out)) : Awaited cfg c' := by
  obtain ⟨t, g, ht, hby⟩ := Machine.step_by hs
  intro task hmem x hx
  rcases hby.mem_after hmem with hrest | hnew
  · have hbefore := h task (hby.mem_of_rest hrest) x hx
    exact hattended.stays task hrest x hx hbefore (c', out) hs
  · rcases fire_message cfg hby.fire with hnone | ⟨conn, size, message, rfl, rfl⟩
    · rw [Option.mem_def, hnone task hnew] at hx
      cases hx
    · obtain rfl := List.mem_singleton.mp hnew
      have ha : a = .event (.message conn size message) := by
        cases a with
        | event e => cases ht; rfl
        | resume i o =>
          obtain ⟨_, -, htask⟩ := Option.map_eq_some_iff.mp ht
          cases htask
      rw [hby.shared]
      apply hattended.arrives x
      rw [ha]
      exact hx

/-- A message finds its connection in the document. -/
theorem applied_registered {acts : List (YjsAct Payload)}
    (hattended : (yjsServer cfg).Obeys (Attended cfg) (initialYjs cfg) acts) {turn : YjsTurn cfg}
    (hm : turn ∈ (yjsServer cfg).history (initialYjs cfg) acts) {conn : ConnId}
    {message : Message Payload} (happlied : appliedMessage cfg turn.trigger = some (conn, message)) :
    turn.before.shared.Registered conn := by
  have hinit : Awaited cfg (initialYjs cfg) := nofun
  have hawaited := (Machine.invariant_of_obeys
    (fun c a c' out h hattended hs => awaited_step cfg h hattended hs) hinit hattended hm).1
  obtain ⟨g, rest, hby⟩ := Machine.history_by hm
  cases ht : turn.trigger with
  | event e =>
    rw [ht] at happlied
    cases happlied
  | task task outcome =>
    have hmem : task ∈ turn.before.pool := by
      apply hby.mem_of_taken
      rw [ht]
      exact List.mem_singleton_self task
    rw [ht] at happlied
    apply hawaited task hmem (conn, message)
    cases task with
    | validateMessage conn' size message' =>
      cases outcome with
      | allowed => exact happlied
      | denied => cases happlied
    | _ => cases happlied

end
end Ws

/-! ## Events of a socket -/

def arrivedEvents (socket : SocketId) (turn : GatedTurn) : List ClientEvent :=
  match turn.trigger with
  | .event (.receive socket' event) => if socket' = socket then [event] else []
  | _ => []

/-- An admitted event is handled, unless its socket is gone. -/
def handledEvents (socket : SocketId) (turn : GatedTurn) : List ClientEvent :=
  match turn.trigger with
  | .task (.server (.admitted socket' event _)) _ =>
    if socket' = socket ∧ socket' ∈ turn.before.shared.live then [event] else []
  | _ => []

/-- The event that waits for its check, with its socket. -/
def checkLabel : GatedTask → Option (SocketId × ClientEvent)
  | .accessCheck socket event => some (socket, event)
  | _ => none

/-- The event that has been admitted, with its socket. -/
def tickLabel : GatedTask → Option (SocketId × ClientEvent)
  | .server (.admitted socket event _) => some (socket, event)
  | _ => none

def GatedOutcome.letsPass : GatedOutcome → Bool
  | access .allowed => true
  | _ => false

/-- No check lets an event pass before the older events of its socket have been checked. -/
abbrev EventsInTurn (c : GatedConf) (a : GatedAct) : Prop := InTurn checkLabel GatedOutcome.letsPass c a

/-- `process.nextTick` keeps the order in which events have been admitted. -/
abbrev TicksInTurn (c : GatedConf) (a : GatedAct) : Prop := InTurn tickLabel (fun _ => true) c a

section
variable {cfg : Config} {accessService : Bool} {socket : SocketId}

theorem checks_of_server (g : Step) : waiting checkLabel socket g.gated.next = [] := by
  apply List.filterMap_eq_nil_iff.mpr
  intro task htask
  obtain ⟨t, -, rfl⟩ := List.mem_map.mp htask
  rfl

/-- What the server admits of a socket in a segment. -/
theorem ticks_of_server {s : Server} {t : ServerTrigger} {g : Step}
    (h : (server cfg).fire s t = some g) : waiting tickLabel socket g.gated.next = [] ∨
      ∃ event, t = .event (.receive socket event) ∧ waiting tickLabel socket g.gated.next = [event] := by
  by_cases hnone : ∀ event seen, Task.admitted socket event seen ∉ g.next
  · left
    apply List.filterMap_eq_nil_iff.mpr
    intro task htask
    obtain ⟨t', ht', rfl⟩ := List.mem_map.mp htask
    cases t' with
    | admitted socket' event seen =>
      have hsocket : socket' ≠ socket := by
        rintro rfl
        exact hnone event seen ht'
      simp [tickLabel, hsocket]
    | _ => rfl
  · right
    push Not at hnone
    obtain ⟨event, seen, hm⟩ := hnone
    obtain ⟨rfl, rfl⟩ := fire_admits h hm
    refine ⟨event, rfl, ?_⟩
    rcases authMiddleware_next s socket event with hn | ⟨_, -, hn⟩ | ⟨_, -, -, -, hn⟩
    · rw [hn] at hm
      cases hm
    · simp [Segment.gated, hn, waiting, tickLabel]
    · simp [Segment.gated, hn, waiting, tickLabel]

variable (socket) {c : GatedConf} {acts : List GatedAct} {turn : GatedTurn}
  (hm : turn ∈ (gatedServer cfg accessService).history c acts)
include hm

/-- Only an arriving event starts to be checked, where events are checked at all. -/
theorem suspended_checks :
    (waiting checkLabel socket ((gatedServer cfg accessService).suspended turn)).Sublist
      (if accessService then arrivedEvents socket turn else []) := by
  obtain ⟨g, rest, hby⟩ := Machine.history_by hm
  rw [Machine.suspended_eq hby]
  have hfire := hby.fire
  unfold arrivedEvents
  cases ht : turn.trigger with
  | event e =>
    rw [ht] at hfire
    rcases handleGated_cases hfire with ⟨socket', event, rfl, rfl, rfl⟩ | ⟨g', -, rfl, -⟩
    · by_cases hsocket : socket' = socket <;> simp [waiting, checkLabel, hsocket]
    · rw [checks_of_server]
      exact List.nil_sublist _
  | task task o =>
    rw [ht] at hfire
    rcases resumeGated_cases hfire with ⟨_, _, _, -, -, rfl⟩ | ⟨_, _, _, -, -, -, rfl⟩
    · rw [checks_of_server]
      exact List.nil_sublist _
    · rw [checks_of_server]
      exact List.nil_sublist _

/-- An event is admitted when its check lets it pass, or at once where events are not checked. -/
theorem suspended_ticks :
    (waiting tickLabel socket ((gatedServer cfg accessService).suspended turn)).Sublist
      (turn.passed checkLabel GatedOutcome.letsPass socket ++
        if accessService then [] else arrivedEvents socket turn) := by
  obtain ⟨g, rest, hby⟩ := Machine.history_by hm
  rw [Machine.suspended_eq hby]
  have hfire := hby.fire
  unfold arrivedEvents Turn.passed
  cases ht : turn.trigger with
  | event e =>
    rw [ht] at hfire
    rcases handleGated_cases hfire with ⟨socket', event, rfl, rfl, rfl⟩ | ⟨g', hg', rfl, hservice⟩
    · exact List.nil_sublist _
    · rcases ticks_of_server (t := .event e) hg' with hnone | ⟨event, he, hticks⟩
      · rw [hnone]
        exact List.nil_sublist _
      · cases he
        have hopen : accessService = false := by
          by_contra hne
          exact hservice (Bool.not_eq_false _ ▸ hne) socket event rfl
        rw [hticks]
        simp [hopen]
  | task task o =>
    rw [ht] at hfire
    apply List.sublist_append_of_sublist_left
    rcases resumeGated_cases hfire with
      ⟨socket', event, e, rfl, he, rfl⟩ | ⟨task', o', g', rfl, rfl, hg', rfl⟩
    · cases hevent : handleEvent cfg turn.before.shared e with
      | none => exact List.nil_sublist _
      | some g' =>
        rw [Option.getD_some]
        rcases ticks_of_server (t := .event e) hevent with hnone | ⟨event', he', hticks⟩
        · rw [hnone]
          exact List.nil_sublist _
        · cases he'
          rcases he with ⟨heq, rfl⟩ | ⟨reason, heq, -⟩
          · cases heq
            rw [hticks]
            simp [GatedOutcome.letsPass, waiting, checkLabel]
          · cases heq
    · rcases ticks_of_server (t := .task task' o') hg' with hnone | ⟨_, he, -⟩
      · rw [hnone]
        exact List.nil_sublist _
      · cases he

omit hm in
theorem handledEvents_sublist (turn : GatedTurn) :
    (handledEvents socket turn).Sublist (turn.passed tickLabel (fun _ => true) socket) := by
  unfold handledEvents Turn.passed
  split
  · rename_i socket' event seen o ht
    rw [ht]
    by_cases hsocket : socket' = socket <;> split_ifs <;> simp_all [waiting, tickLabel]
  · exact List.nil_sublist _

end

/-- The events of a socket are handled in the order in which they arrived. -/
theorem handled_in_order {cfg : Config} {accessService : Bool} {mode : RoomMode} {now : Time}
    {acts : List GatedAct} {c : GatedConf} {out : List Effect}
    (hchecks : (gatedServer cfg accessService).Obeys EventsInTurn (initialGated cfg mode now) acts)
    (hticks : (gatedServer cfg accessService).Obeys TicksInTurn (initialGated cfg mode now) acts)
    (hrun : (gatedServer cfg accessService).run (initialGated cfg mode now) acts = some (c, out))
    (socket : SocketId) :
    (((gatedServer cfg accessService).history (initialGated cfg mode now) acts).flatMap
        (handledEvents socket)).Sublist
      (((gatedServer cfg accessService).history (initialGated cfg mode now) acts).flatMap
        (arrivedEvents socket)) := by
  let turns := (gatedServer cfg accessService).history (initialGated cfg mode now) acts
  have hhandled : (turns.flatMap (handledEvents socket)).Sublist
      (turns.flatMap (Turn.passed tickLabel (fun _ => true) socket)) :=
    List.Sublist.flatMap_right turns fun turn _ => handledEvents_sublist socket turn
  have hadmitted := (List.sublist_append_left _ _).trans (passed_sublist (k := socket) hticks hrun)
  have hentered := List.Sublist.flatMap_right turns fun turn hm => suspended_ticks socket hm
  have hpassed := (List.sublist_append_left _ _).trans (passed_sublist (k := socket) hchecks hrun)
  have hchecked := List.Sublist.flatMap_right turns fun turn hm => suspended_checks socket hm
  refine (hhandled.trans hadmitted).trans (hentered.trans ?_)
  cases accessService with
  | true =>
    simp only [if_true, List.append_nil] at hchecked ⊢
    exact hpassed.trans hchecked
  | false =>
    have hnone := List.sublist_nil.mp ((hpassed.trans hchecked).trans (by simp))
    apply List.Sublist.flatMap_right
    intro turn hm
    rw [List.flatMap_eq_nil_iff.mp hnone turn hm]
    simp

/-- Messages are applied and events are handled in the order of their arrival, and a message finds its
connection in the document, in the runs in which checks let pass in turn and connections stay while their
messages are checked. -/
theorem arrival_order {Document Awareness Payload : Type}
    (yjs : Ws.YjsServerConfig Document Awareness Payload) {yjsActs : List (Ws.YjsAct Payload)}
    {yjsConf : Ws.YjsConf yjs} {yjsOut : List (Ws.WsEffect Payload)}
    (hturns : (Ws.yjsServer yjs).Obeys (Ws.MessagesInTurn yjs) (Ws.initialYjs yjs) yjsActs)
    (hattended : (Ws.yjsServer yjs).Obeys (Ws.Attended yjs) (Ws.initialYjs yjs) yjsActs)
    (hyjs : (Ws.yjsServer yjs).run (Ws.initialYjs yjs) yjsActs = some (yjsConf, yjsOut))
    {cfg : Config} {accessService : Bool} {mode : RoomMode} {now : Time} {acts : List GatedAct}
    {c : GatedConf} {out : List Effect}
    (hchecks : (gatedServer cfg accessService).Obeys EventsInTurn (initialGated cfg mode now) acts)
    (hticks : (gatedServer cfg accessService).Obeys TicksInTurn (initialGated cfg mode now) acts)
    (hrun : (gatedServer cfg accessService).run (initialGated cfg mode now) acts = some (c, out)) :
    (∀ conn, (((Ws.yjsServer yjs).history (Ws.initialYjs yjs) yjsActs).flatMap
        (Ws.appliedMessages yjs conn)).Sublist
      (((Ws.yjsServer yjs).history (Ws.initialYjs yjs) yjsActs).flatMap
        (Ws.arrivedMessages yjs conn))) ∧
    (∀ turn ∈ (Ws.yjsServer yjs).history (Ws.initialYjs yjs) yjsActs, ∀ conn message,
      Ws.appliedMessage yjs turn.trigger = some (conn, message) →
        turn.before.shared.Registered conn) ∧
    ∀ socket, (((gatedServer cfg accessService).history (initialGated cfg mode now) acts).flatMap
        (handledEvents socket)).Sublist
      (((gatedServer cfg accessService).history (initialGated cfg mode now) acts).flatMap
        (arrivedEvents socket)) := by
  refine ⟨fun conn => Ws.applied_in_order yjs hturns hyjs conn, fun turn hm conn message happlied => ?_,
    fun socket => handled_in_order hchecks hticks hrun socket⟩
  exact Ws.applied_registered yjs hattended hm happlied

/-! ## Late checks -/

/-- Every connection, message and event is checked. -/
def guardedYjsConfig : Ws.YjsServerConfig ℕ (List Ws.ClientId) ℕ :=
  { Ws.plainYjsConfig with accessService := true }

/-- A connection, let in, and two messages of it. -/
def guardedSession : List (Ws.YjsAct ℕ) :=
  [.event (.createRoom (js "abc-xyz") (js "secret")), Ws.exampleConnection 0, .resume 0 .allowed,
    .event (.message 0 20 (.syncUpdate 1)), .event (.message 0 20 (.syncUpdate 2))]

/-- Both messages are let pass; `first` is the position of the one whose check ends first. -/
def checkedMessages (first : ℕ) : List (Ws.YjsAct ℕ) :=
  guardedSession ++ [.resume first .allowed, .resume 0 .allowed]

/-- Two events of a socket, let pass in the same way; the first one is to join without a payload. -/
def checkedEvents (first : ℕ) : List GatedAct :=
  [.event .connect, .event (.receive 0 (.userJoin none)),
    .event (.receive 0 (.userJoin (some ⟨js "guest", none⟩))), .resume first (.access .allowed),
    .resume 0 (.access .allowed), .resume 0 (.server .go), .resume 0 (.server .go)]

def hasPayload : ClientEvent → Bool
  | .userJoin payload => payload.isSome
  | _ => false

theorem arrival_order_example : ∃ yjsConf yjsOut c out,
    (Ws.yjsServer guardedYjsConfig).run (Ws.initialYjs guardedYjsConfig) (checkedMessages 0) =
      some (yjsConf, yjsOut) ∧
    (yjsConf.shared.heap 0).document = 3 ∧
    (gatedServer plainConfig true).run (initialGated plainConfig .collaboration 0) (checkedEvents 0) =
      some (c, out) ∧
    ((gatedServer plainConfig true).history (initialGated plainConfig .collaboration 0)
      (checkedEvents 0)).flatMap (handledEvents 0) =
        [.userJoin none, .userJoin (some ⟨js "guest", none⟩)] ∧
    (((Ws.yjsServer guardedYjsConfig).history (Ws.initialYjs guardedYjsConfig)
      (checkedMessages 0)).flatMap (Ws.appliedMessages guardedYjsConfig 0)).Sublist
      (((Ws.yjsServer guardedYjsConfig).history (Ws.initialYjs guardedYjsConfig)
        (checkedMessages 0)).flatMap (Ws.arrivedMessages guardedYjsConfig 0)) := by
  have hyjs : ((Ws.yjsServer guardedYjsConfig).run (Ws.initialYjs guardedYjsConfig)
      (checkedMessages 0)).map (fun r => (r.1.shared.heap 0).document) = some 3 := by decide +kernel
  have hturns : (Ws.yjsServer guardedYjsConfig).Obeys (Ws.MessagesInTurn guardedYjsConfig)
      (Ws.initialYjs guardedYjsConfig) (checkedMessages 0) := by decide +kernel
  have hattended : (Ws.yjsServer guardedYjsConfig).Obeys (Ws.Attended guardedYjsConfig)
      (Ws.initialYjs guardedYjsConfig) (checkedMessages 0) := by decide +kernel
  have hchecks : (gatedServer plainConfig true).Obeys EventsInTurn
      (initialGated plainConfig .collaboration 0) (checkedEvents 0) := by decide +kernel
  have hticks : (gatedServer plainConfig true).Obeys TicksInTurn
      (initialGated plainConfig .collaboration 0) (checkedEvents 0) := by decide +kernel
  have hrun : ((gatedServer plainConfig true).run (initialGated plainConfig .collaboration 0)
      (checkedEvents 0)).isSome = true := by decide +kernel
  obtain ⟨⟨yjsConf, yjsOut⟩, hyjs, hdocument⟩ := Option.map_eq_some_iff.mp hyjs
  obtain ⟨⟨c, out⟩, hrun⟩ := Option.isSome_iff_exists.mp hrun
  exact ⟨yjsConf, yjsOut, c, out, hyjs, hdocument, hrun, rfl,
    (arrival_order guardedYjsConfig hturns hattended hyjs hchecks hticks hrun).1 0⟩

/-- The check of the second message ends first; a message is let pass when its room has been destroyed;
the check of the second event ends first. -/
theorem late_checks_reorder :
    (∃ c out, (Ws.yjsServer guardedYjsConfig).run (Ws.initialYjs guardedYjsConfig)
        (checkedMessages 1) = some (c, out) ∧
      ¬ (((Ws.yjsServer guardedYjsConfig).history (Ws.initialYjs guardedYjsConfig)
        (checkedMessages 1)).flatMap (Ws.appliedMessages guardedYjsConfig 0)).Sublist
        (((Ws.yjsServer guardedYjsConfig).history (Ws.initialYjs guardedYjsConfig)
          (checkedMessages 1)).flatMap (Ws.arrivedMessages guardedYjsConfig 0))) ∧
    (∃ c c' out out', (Ws.yjsServer guardedYjsConfig).run (Ws.initialYjs guardedYjsConfig)
        (guardedSession ++ [.event (.destroyRoom (js "abc-xyz"))]) = some (c, out) ∧
      ¬ c.shared.Registered 0 ∧ (c.shared.heap 0).document = 0 ∧
      (Ws.yjsServer guardedYjsConfig).step c (.resume 0 .allowed) = some (c', out') ∧
      (c'.shared.heap 0).document = 1) ∧
    ∃ c out, (gatedServer plainConfig true).run (initialGated plainConfig .collaboration 0)
        (checkedEvents 1) = some (c, out) ∧
      ¬ (((gatedServer plainConfig true).history (initialGated plainConfig .collaboration 0)
        (checkedEvents 1)).flatMap (handledEvents 0)).Sublist
        (((gatedServer plainConfig true).history (initialGated plainConfig .collaboration 0)
          (checkedEvents 1)).flatMap (arrivedEvents 0)) := by
  refine ⟨?_, ?_, ?_⟩
  · have hrun : ((Ws.yjsServer guardedYjsConfig).run (Ws.initialYjs guardedYjsConfig)
        (checkedMessages 1)).isSome = true := by decide +kernel
    obtain ⟨⟨c, out⟩, hrun⟩ := Option.isSome_iff_exists.mp hrun
    exact ⟨c, out, hrun, by decide +kernel⟩
  · have hrun : ((Ws.yjsServer guardedYjsConfig).run (Ws.initialYjs guardedYjsConfig)
        (guardedSession ++ [.event (.destroyRoom (js "abc-xyz"))])).map (fun r =>
          (decide (r.1.shared.Registered 0), (r.1.shared.heap 0).document,
            ((Ws.yjsServer guardedYjsConfig).step r.1 (.resume 0 .allowed)).map
              fun r' => (r'.1.shared.heap 0).document)) = some (false, 0, some 1) := by decide +kernel
    obtain ⟨⟨c, out⟩, hrun, hresult⟩ := Option.map_eq_some_iff.mp hrun
    obtain ⟨hgone, hresult⟩ := Prod.mk.inj hresult
    obtain ⟨hdocument, hstep⟩ := Prod.mk.inj hresult
    obtain ⟨⟨c', out'⟩, hstep, hchanged⟩ := Option.map_eq_some_iff.mp hstep
    exact ⟨c, c', out, out', hrun, of_decide_eq_false hgone, hdocument, hstep, hchanged⟩
  · have hrun : ((gatedServer plainConfig true).run (initialGated plainConfig .collaboration 0)
        (checkedEvents 1)).isSome = true := by decide +kernel
    obtain ⟨⟨c, out⟩, hrun⟩ := Option.isSome_iff_exists.mp hrun
    refine ⟨c, out, hrun, fun hsublist => ?_⟩
    have hswapped := hsublist.map hasPayload
    revert hswapped
    decide +kernel

end CodeShare
