import CodeShare.Properties.HintStreams
import CodeShare.Properties.InterviewerSeat
import CodeShare.Properties.ReconnectTokens
import CodeShare.Properties.Seats
import CodeShare.Server.Exchanges

/-! # The messages of a hint

Chunks and a delivered hint go to the room; that no hint is delivered is told to the socket whose event started
the delivery, which is the partner's when the partner has approved it.
-/

namespace CodeShare
open Tasks
set_option autoImplicit false

/-- The delivery in which a task waits. -/
def Task.delivery : Task → Option Delivery
  | hintStored d | hintIpLimiter d | hintQuota d | hintProblem d _ | hintLimiter d _ | hintReserve d _
  | hintStream d _ _ _ | hintFailing d _ => some d
  | _ => none

/-- A delivery, from the look-up of a stored hint. -/
def hintExchange (cfg : Config) : Exchange where
  announces
    | .hintChunk _ => true
    | _ => false
  answers
    | .hintDone _ _ | .hintError _ => true
    | _ => false
  prepares
    | .admitted _ .hintRequest _ | .admitted _ .hintApprove _ => true
    | _ => false
  works task := task.delivery.map (·.socket)
  opens
    | .task (.hintStored d) _ => some d.socket
    | _ => none
  answersSocket t := (charges cfg t).isNone

variable {cfg : Config} {s : Server} {t : ServerTrigger} {g : Step} {o : Outcome} {d : Delivery} {k : SocketId}
  {prompt : HintPrompt}

/-! ## The segments -/

theorem rejectHintRequest_advances (message : JsString) (hcharge : charges cfg t = none) :
    (hintExchange cfg).Advances d.socket s t (rejectHintRequest (.of s) d.socket message) :=
  Exchange.advances_toSocket (g := .of s) (fun _ => rfl) rfl rfl (Option.isNone_iff_eq_none.mpr hcharge) rfl

theorem afterHintFailure_advances (reason : Failure) (hcharge : charges cfg t = none) :
    (hintExchange cfg).Advances d.socket s t (afterHintFailure s d reason) := by
  cases reason <;> exact rejectHintRequest_advances _ hcharge

theorem delivery_suspend {task : Task} (hout : ∀ k, messagesTo k g.out = []) (hnext : g.next = [])
    (htask : task.delivery = some d) : (hintExchange cfg).Advances d.socket s t (g.suspend task) :=
  Exchange.advances_suspend hout hnext (congrArg (Option.map _) htask)

theorem prepareLLMHintRequest_advances (hcharge : charges cfg t = none) :
    (hintExchange cfg).Advances d.socket s t (prepareLLMHintRequest cfg s d) := by
  unfold prepareLLMHintRequest
  split_ifs
  · exact rejectHintRequest_advances _ hcharge
  · exact rejectHintRequest_advances _ hcharge
  · exact delivery_suspend (fun _ => rfl) rfl rfl

theorem afterStoredHint_advances (h : afterStoredHint cfg s d o = some g) :
    (hintExchange cfg).Advances d.socket s (.task (.hintStored d) o) g := by
  unfold afterStoredHint at h
  split at h
  · split_ifs at h
    cases h
    exact Exchange.advances_toRoom (fun _ => rfl) rfl rfl rfl rfl
  · cases h; exact prepareLLMHintRequest_advances rfl
  · cases h; exact afterHintFailure_advances _ rfl
  · cases h

theorem afterHintIpLimiter_advances (h : afterHintIpLimiter s d o = some g) :
    (hintExchange cfg).Advances d.socket s (.task (.hintIpLimiter d) o) g := by
  unfold afterHintIpLimiter at h
  split at h <;> cases h
  · exact delivery_suspend (fun _ => rfl) rfl rfl
  · exact rejectHintRequest_advances _ rfl
  · exact delivery_suspend (fun _ => rfl) rfl rfl

theorem afterHintQuota_advances (h : afterHintQuota cfg s d o = some g) :
    (hintExchange cfg).Advances d.socket s (.task (.hintQuota d) o) g := by
  unfold afterHintQuota at h
  split at h
  · split_ifs at h
    · cases h; exact rejectHintRequest_advances _ rfl
    · split at h <;> cases h
      exact delivery_suspend (fun _ => rfl) rfl rfl
  · cases h; exact rejectHintRequest_advances _ rfl
  · cases h; exact delivery_suspend (fun _ => rfl) rfl rfl
  · cases h

theorem afterHintProblem_advances {p : ProblemId} (h : afterHintProblem cfg s d p o = some g) :
    (hintExchange cfg).Advances d.socket s (.task (.hintProblem d p) o) g := by
  unfold afterHintProblem at h
  split at h
  · split_ifs at h
    · cases h; exact rejectHintRequest_advances _ rfl
    · cases h; exact delivery_suspend (fun _ => rfl) rfl rfl
    · cases h; exact delivery_suspend (fun _ => rfl) rfl rfl
  · cases h; exact rejectHintRequest_advances _ rfl
  · cases h; exact delivery_suspend (fun _ => rfl) rfl rfl
  · cases h

theorem afterHintLimiter_advances (h : afterHintLimiter s d prompt o = some g) :
    (hintExchange cfg).Advances d.socket s t g := by
  unfold afterHintLimiter at h
  split at h <;> cases h <;> exact delivery_suspend (fun _ => rfl) rfl rfl

theorem afterHintReserve_advances (h : afterHintReserve s d prompt o = some g) :
    (hintExchange cfg).Advances d.socket s (.task (.hintReserve d prompt) o) g := by
  unfold afterHintReserve at h
  split at h <;> cases h
  · exact delivery_suspend (fun _ => rfl) rfl rfl
  · exact rejectHintRequest_advances _ rfl
  · exact delivery_suspend (fun _ => rfl) rfl rfl

theorem failHintStream_advances (reason : Failure) (hcharge : charges cfg t = none) :
    (hintExchange cfg).Advances d.socket s t (failHintStream s d reason) :=
  rejectHintRequest_advances (hintStreamFailureMessage reason) hcharge

theorem afterHintStream_advances {generated : JsString} {closing : Bool}
    (h : afterHintStream cfg s d prompt generated closing o = some g) :
    (hintExchange cfg).Advances d.socket s (.task (.hintStream d prompt generated closing) o) g := by
  unfold afterHintStream at h
  split at h
  · split_ifs at h
    cases h
    exact .inl ⟨Exchange.announces_toRoom (g := .of s) (Exchange.announces_nil fun _ => rfl) rfl, _, rfl, rfl⟩
  · cases h
    unfold finishHintStream
    split
    · rename_i message hsanitized
      refine failHintStream_advances _ ?_
      simp only [charges, hsanitized]
    · rename_i fullHint hsanitized
      have hcharge : (charges cfg (.task (.hintStream d prompt generated closing) .streamEnd)).isNone = false := by
        simp only [charges, hsanitized, Option.isNone_some]
      exact Exchange.advances_toRoom (fun _ => rfl) rfl rfl hcharge rfl
  · cases h; exact failHintStream_advances _ rfl
  · cases h

theorem hint_works {task : Task} {socket : SocketId} (htask : (hintExchange cfg).works task = some socket)
    (h : (server cfg).fire s (.task task o) = some g) :
    (hintExchange cfg).OpensFor socket (.task task o) ∧ (hintExchange cfg).Advances socket s (.task task o) g := by
  change resumeTask cfg s task o = some g at h
  cases task with
  | hintStored d =>
    obtain rfl := Option.some.inj htask
    exact ⟨fun k hk => (Option.some.inj hk).symm, afterStoredHint_advances h⟩
  | hintIpLimiter => obtain rfl := Option.some.inj htask; exact ⟨nofun, afterHintIpLimiter_advances h⟩
  | hintQuota => obtain rfl := Option.some.inj htask; exact ⟨nofun, afterHintQuota_advances h⟩
  | hintProblem => obtain rfl := Option.some.inj htask; exact ⟨nofun, afterHintProblem_advances h⟩
  | hintLimiter => obtain rfl := Option.some.inj htask; exact ⟨nofun, afterHintLimiter_advances h⟩
  | hintReserve => obtain rfl := Option.some.inj htask; exact ⟨nofun, afterHintReserve_advances h⟩
  | hintStream => obtain rfl := Option.some.inj htask; exact ⟨nofun, afterHintStream_advances h⟩
  | hintFailing d reason =>
    obtain rfl := Option.some.inj htask
    cases o <;> cases h
    exact ⟨nofun, afterHintFailure_advances reason rfl⟩
  | _ => cases htask

/-! ## Before the delivery -/

/-- What a handler leaves that may start a delivery. -/
def StartsHint (cfg : Config) (g : Step) : Prop :=
  g.next = [] ∨ ∃ d, (∀ k, (hintExchange cfg).heard k g.out = []) ∧ g.next = [.hintStored d]

theorem handleHintRequest_starts_hint (s : Server) (socket : SocketId) :
    StartsHint cfg (handleHintRequest cfg s socket) := by
  unfold handleHintRequest
  split
  · exact .inl rfl
  · split_ifs
    · exact .inr ⟨_, fun _ => rfl, rfl⟩
    · exact .inl (sendPendingHintRequest_continues cfg _ socket).next

/-- An approval clears the request first, which all see. -/
theorem handleHintApprove_starts_hint (s : Server) (socket : SocketId) (seen : Option SeenRequest) :
    StartsHint cfg (handleHintApprove s socket seen) := by
  unfold handleHintApprove
  split
  · exact .inl rfl
  · refine .inr ⟨_, fun k => ?_, rfl⟩
    unfold deliverHint clearPendingHintRequest
    rw [Segment.suspend_out, Exchange.heard, messagesTo_emit _ _ rfl, messagesTo_syncRoom]
    refine List.filter_eq_nil_iff.mpr fun m hm => ?_
    rw [List.eq_of_mem_replicate hm]
    exact Bool.noConfusion

theorem admitted_starts_hint {task : Task} (htask : (hintExchange cfg).prepares task = true)
    (h : (server cfg).fire s (.task task o) = some g) : StartsHint cfg g := by
  change resumeTask cfg s task o = some g at h
  cases task with
  | admitted socket event seen =>
    cases event with
    | hintRequest =>
      cases o <;> cases h
      unfold runHandler
      dsimp only
      split_ifs
      · exact handleHintRequest_starts_hint s socket
      · exact .inl rfl
      · exact .inl rfl
    | hintApprove =>
      cases o <;> cases h
      unfold runHandler
      dsimp only
      split_ifs
      · exact handleHintApprove_starts_hint s socket seen
      · exact .inl rfl
      · exact .inl rfl
    | _ => cases htask
  | _ => cases htask

theorem hint_prepares {task : Task} (htask : (hintExchange cfg).prepares task = true)
    (h : (server cfg).fire s (.task task o) = some g) :
    ((hintExchange cfg).opens (.task task o) = none ∧ (g.next = [] ∨
      (∀ k, (hintExchange cfg).heard k g.out = []) ∧ ∃ task', g.next = [task'] ∧
        (hintExchange cfg).prepares task' = true)) ∨
    ∃ socket task', (hintExchange cfg).OpensFor socket (.task task o) ∧ (hintExchange cfg).Announces g.out ∧
      g.next = [task'] ∧ (hintExchange cfg).works task' = some socket := by
  have hopens : (hintExchange cfg).opens (.task task o) = none := by
    cases task with
    | hintStored => cases htask
    | _ => rfl
  rcases admitted_starts_hint htask h with hnext | ⟨d, hsilent, hnext⟩
  · exact .inl ⟨hopens, .inl hnext⟩
  · refine .inr ⟨d.socket, _, fun k hk => ?_, Exchange.announces_nil hsilent, hnext, rfl⟩
    rw [hopens] at hk
    cases hk

/-! ## The others -/

theorem hint_apart_of_family {task : Task} (hfamily : task.family ≠ .hint) (houtside : task.family ≠ .outside) :
    (hintExchange cfg).Apart task := by
  cases task <;> first | exact ⟨rfl, rfl⟩ | exact absurd rfl hfamily | exact absurd rfl houtside

theorem hint_apart {task : Task} (htask : (hintExchange cfg).Apart task)
    (h : (server cfg).fire s (.task task o) = some g) :
    (hintExchange cfg).opens (.task task o) = none ∧ ∀ task' ∈ g.next, (hintExchange cfg).Apart task' := by
  refine ⟨?_, fun task' hm => ?_⟩
  · cases task with
    | hintStored => cases htask.2
    | _ => rfl
  by_cases hhint : triggerFamily (.task task o) = .hint
  · cases task with
    | admitted socket event seen =>
      cases event with
      | hintDeny =>
        change resumeTask cfg s _ o = some g at h
        cases o <;> cases h
        have hnext : (handleHintDeny s).next = [] := by
          unfold handleHintDeny
          split
          · rfl
          · exact (denyPendingHintRequest_spec _ _).2.1
        unfold runHandler at hm
        dsimp only at hm
        split_ifs at hm
        · rw [hnext] at hm
          cases hm
        · cases hm
        · cases hm
      | hintRequest => cases htask.1
      | hintApprove => cases htask.1
      | _ => cases hhint
    | hintStored => cases htask.2
    | hintIpLimiter => cases htask.2
    | hintQuota => cases htask.2
    | hintProblem => cases htask.2
    | hintLimiter => cases htask.2
    | hintReserve => cases htask.2
    | hintStream => cases htask.2
    | hintFailing => cases htask.2
    | _ => cases hhint
  · exact Exchange.apart_of_family (fun _ => hint_apart_of_family) h hhint hm

theorem hint_steps : (hintExchange cfg).Steps cfg where
  disjoint
    | .hintDone _ _, _ => rfl
    | .hintError _, _ => rfl
  event h := ⟨rfl, Exchange.event_apart (fun _ _ _ => rfl) h⟩
  apart := hint_apart
  prepares := hint_prepares
  works := hint_works

/-! ## The sockets of the users -/

/-- Users are in the room with their sockets, while these are open. -/
structure Seated (c : ServerConf) : Prop where
  known : ∀ k ∈ c.shared.live, k < c.shared.nextSocket
  joining : ∀ task ∈ c.pool, ∀ socket payload, task.join = some (socket, payload) → socket < c.shared.nextSocket
  there : ∀ u ∈ c.shared.room.users, ∀ k, u.socketId = some k →
    k < c.shared.nextSocket ∧ (k ∈ c.shared.live → k ∈ c.shared.joined)

variable {c c' : ServerConf} {out : List Effect} {rest : List Task} {u : RoomUserInternal}

/-- A join keeps the users' sockets or is for a socket whose join was under way. -/
theorem Joins.socketId {socket : SocketId} {user : RoomUserInternal} {announced : Option RoomUser}
    {users : List RoomUserInternal} {fresh : ℕ} (h : Joins s t socket user announced users fresh)
    (hu : u ∈ users) (hk : u.socketId = some k) :
    (∃ u' ∈ s.room.users, u'.socketId = some k) ∨ k = socket ∧ ∃ payload, seating t = some (socket, payload) := by
  cases h with
  | again => exact .inl ⟨u, hu, hk⟩
  | reconnect payload existing user hseating =>
    obtain ⟨u', hu', rfl⟩ := List.mem_map.mp hu
    split_ifs at hk
    · exact .inr ⟨(Option.some.inj hk).symm, payload, hseating⟩
    · exact .inl ⟨u', hu', hk⟩
  | add payload hseating =>
    rcases List.mem_append.mp hu with hu | hu
    · exact .inl ⟨u, hu, hk⟩
    · rw [List.mem_singleton.mp hu] at hk
      exact .inr ⟨(Option.some.inj hk).symm, payload, hseating⟩

/-- What is to be shown of a segment, by the fields that the clients know of. -/
def SeatedView (v : RoomView) : Prop := ∀ u ∈ v.users, ∀ k, u.socketId = some k →
  k < v.nextSocket ∧ (k ∈ v.live → k ∈ v.joined)

theorem nextSocket_le (h : (server cfg).fire s t = some g) : s.nextSocket ≤ g.state.nextSocket := by
  have hview : ∀ v : SeatView, g.state.seatView = v → s.nextSocket ≤ v.nextSocket →
      s.nextSocket ≤ g.state.nextSocket := by
    rintro v rfl hle
    exact hle
  cases fire_seats h with
  | connected heq _ => exact hview _ heq (Nat.le_succ _)
  | kept heq _ => exact hview _ heq (Nat.le_refl _)
  | closed _ _ heq _ => exact hview _ heq (Nat.le_refl _)
  | removed _ _ _ heq _ => exact hview _ heq (Nat.le_refl _)
  | destroyed _ heq _ => exact hview _ heq (Nat.le_refl _)
  | reconnected _ _ _ _ _ heq _ => exact hview _ heq (Nat.le_refl _)
  | added _ _ _ _ heq _ => exact hview _ heq (Nat.le_refl _)

theorem Announces.seatedView (hannounces : CodeShare.Announces cfg s t g) (h : SeatedView s.roomView)
    (hjoining : ∀ socket payload, seating t = some (socket, payload) → socket < s.nextSocket) :
    SeatedView g.state.roomView := by
  cases hannounces with
  | quiet hview => rw [hview]; exact h
  | connected hview =>
    rw [hview]
    intro u hu k hk
    obtain ⟨hlt, hin⟩ := h u hu k hk
    refine ⟨Nat.lt_succ_of_lt hlt, fun hm => ?_⟩
    rcases List.mem_append.mp hm with hm | hm
    · exact hin hm
    · exact absurd (List.mem_singleton.mp hm) hlt.ne
  | replies _ hview =>
    obtain ⟨_, _, hview⟩ := hview
    rw [hview]
    exact h
  | hintRefused _ _ _ hview => rw [hview]; exact h
  | hintDelivered _ _ _ _ hview => rw [hview]; exact h
  | hintAsked _ _ _ hview => rw [hview]; exact h
  | hintAnswered _ _ hview => rw [hview]; exact h
  | loaded _ _ _ _ hview => rw [hview]; exact h
  | testCaseAdded _ hview => rw [hview]; exact h
  | joined socket user announced users fresh hanswers =>
    rw [hanswers.view]
    intro u hu k hk
    have hsame : ∀ j ∈ s.joined, j ∈ if socket ∈ s.live ∧ socket ∉ s.joined then s.joined ++ [socket] else s.joined := by
      intro j hj
      split_ifs
      · exact List.mem_append_left _ hj
      · exact hj
    rcases hanswers.joins.socketId hu hk with ⟨u', hu', hk'⟩ | ⟨rfl, payload, hseating⟩
    · obtain ⟨hlt, hin⟩ := h u' hu' k hk'
      exact ⟨hlt, fun hm => hsame k (hin hm)⟩
    · refine ⟨hjoining k payload hseating, fun hm => ?_⟩
      by_cases hin : k ∈ s.joined
      · exact hsame k hin
      · show k ∈ if k ∈ s.live ∧ k ∉ s.joined then s.joined ++ [k] else s.joined
        rw [if_pos ⟨hm, hin⟩]
        exact List.mem_append_right _ (List.mem_singleton_self _)
  | hydrated _ _ _ hends => rw [hends.view]; exact h
  | closed socket _ _ _ _ hview =>
    rw [hview]
    intro u hu k hk
    obtain ⟨u', hu', hremains⟩ := leave_remains hu
    have hk' : u'.socketId = some k := by
      rcases hremains.socketId with heq | heq
      · rw [← heq, hk]
      · rw [heq] at hk
        cases hk
    obtain ⟨hlt, hin⟩ := h u' hu' k hk'
    refine ⟨hlt, fun hm => ?_⟩
    obtain ⟨hlive, hne⟩ := List.mem_filter.mp hm
    exact List.mem_filter.mpr ⟨hin hlive, hne⟩
  | removed userId _ _ hview =>
    rw [hview]
    intro u hu
    exact h u (List.mem_filter.mp hu).1

theorem seated_step (h : Seated c) (hby : (server cfg).StepBy c c' out t g rest) : Seated c' := by
  have hview : SeatedView g.state.roomView := by
    refine (fire_announces hby.fire).seatedView h.there fun socket payload hseating => ?_
    have htrigger := seating_eq hseating
    subst htrigger
    exact h.joining _ (hby.mem_of_taken (List.mem_singleton_self _)) socket payload rfl
  refine ⟨?_, ?_, ?_⟩
  · rw [hby.shared]
    exact live_lt_step h.known hby.fire
  · have hle : c.shared.nextSocket ≤ c'.shared.nextSocket := by
      rw [hby.shared]
      exact nextSocket_le hby.fire
    intro task hm socket payload hjoin
    rcases hby.mem_after hm with hm | hm
    · exact Nat.lt_of_lt_of_le (h.joining task (hby.mem_of_rest hm) socket payload hjoin) hle
    · rcases fire_joins hby.fire hm hjoin with rfl | ⟨task', hm', hjoin'⟩
      · have hlive : socket ∈ c.shared.live := by
          have hfire := hby.fire
          change handleEvent cfg c.shared (.receive socket _) = some g at hfire
          rw [handleEvent] at hfire
          split_ifs at hfire with hlive
          exact hlive
        exact Nat.lt_of_lt_of_le (h.known socket hlive) hle
      · exact Nat.lt_of_lt_of_le (h.joining task' (hby.mem_of_taken hm') socket payload hjoin') hle
  · rw [hby.shared]
    exact hview

/-! ## The bracket -/

/-- The user for whom a segment starts a delivery, or asks for one. -/
def requesterOf (s : Server) : ServerTrigger → Option UserId
  | .task (.admitted socket .hintRequest _) .go => (s.room.findBySocketId socket).map (·.id)
  | .task (.admitted _ .hintApprove _) .go => s.room.pendingHintRequest.map (·.requestedBy)
  | _ => none

/-- The sockets that are to hear how a delivery ends: those that have heard a chunk and stayed, and that of the
user who requested the hint. -/
inductive Awaits (cfg : Config) (k : SocketId) (turns : List ServerTurn) : Prop where
  | streamed (text : JsString) (hheard : .hintChunk text ∈ (hintExchange cfg).heardIn k turns)
      (hstays : (hintExchange cfg).Stays k turns)
  | requested {starting last : ServerTurn} {user : RoomUserInternal} (hstarting : starting ∈ turns)
      (hrequester : requesterOf starting.before.shared starting.trigger = some user.id)
      (hlast : turns.getLast? = some last) (huser : user ∈ last.before.shared.room.users)
      (hsocket : user.socketId = some k) (hlive : k ∈ last.before.shared.live)

/-- The delivery ends with a hint. -/
def delivers (cfg : Config) (turns : List ServerTurn) : Bool :=
  turns.getLast?.any fun last => (charges cfg last.trigger).isSome

/-- A delivery that has ended: whoever is to hear of it hears of its end exactly when a hint is delivered or when
it was its own event that started the delivery. -/
theorem hint_bracket_iff {mode : RoomMode} {now : Time} {acts : List ServerAct} {conf : ThreadedServerConf}
    (h : ReachesThreaded cfg mode now acts conf out) {n : ℕ} (hn : n < conf.shared.2) {opening : ServerTurn}
    (hopening : opening ∈ threadTurns cfg mode now acts n) (hopens : opening.trigger = .task (.hintStored d) o)
    (hended : tasksOf n conf.pool = []) (hawaits : Awaits cfg k (threadTurns cfg mode now acts n)) :
    (hintExchange cfg).Answered k (threadTurns cfg mode now acts n) ↔
      delivers cfg (threadTurns cfg mode now acts n) = true ∨ k = d.socket := by
  have hsteps : (hintExchange cfg).Steps cfg := hint_steps
  have hfor : (hintExchange cfg).opens opening.trigger = some d.socket := by
    rw [hopens]
    rfl
  obtain ⟨init, last, hturns, hannounces, hends⟩ := hsteps.ended h hn hopening hfor hended
  have hlast : last ∈ threadTurns cfg mode now acts n := by
    rw [hturns]
    exact List.mem_append_right _ (List.mem_singleton_self _)
  have hseated : Seated last.before :=
    h.before (I := Seated) ⟨nofun, nofun, nofun⟩ (fun _ _ _ _ _ _ hseated hby => seated_step hseated hby) hlast
  have hk : k ∈ last.before.shared.joined := by
    rw [hturns] at hawaits
    cases hawaits with
    | streamed _ hheard hstays => exact hstays.last hsteps hends hheard rfl
    | requested _ _ hlast' huser hsocket hlive =>
      rw [List.getLast?_concat] at hlast'
      obtain rfl := Option.some.inj hlast'
      exact (hseated.there _ huser k hsocket).2 hlive
  rw [hturns, hends.answered_iff hsteps hannounces (h.attendance hlast) hk, delivers, List.getLast?_concat,
    Option.any_some]
  refine or_congr_left ?_
  show (charges cfg last.trigger).isNone = false ↔ _
  rw [← Option.not_isSome, Bool.not_eq_false']

theorem hint_bracket_iff_example : ∃ conf out,
    ReachesThreaded plainConfig .collaboration 10000 exampleLlmRun conf out ∧
    ((hintExchange plainConfig).Answered 0 (threadTurns plainConfig .collaboration 10000 exampleLlmRun 3) ↔
      delivers plainConfig (threadTurns plainConfig .collaboration 10000 exampleLlmRun 3) = true ∨
        (0 : SocketId) = 0) := by
  obtain ⟨conf, out, hreach, hn, hended⟩ : ∃ conf out,
      ReachesThreaded plainConfig .collaboration 10000 exampleLlmRun conf out ∧ 3 < conf.shared.2 ∧
        tasksOf 3 conf.pool = [] := ⟨_, _, rfl, by decide, rfl⟩
  have hthere : ∀ turn ∈ threadTurns plainConfig .collaboration 10000 exampleLlmRun 3,
      0 ∈ turn.before.shared.joined := by
    decide +kernel
  obtain ⟨opening, hopening, hopens⟩ : ∃ turn ∈ threadTurns plainConfig .collaboration 10000 exampleLlmRun 3,
      turn.trigger = .task (.hintStored ⟨0, some 7, 0⟩) (.hint none) :=
    ⟨_, List.mem_of_getElem? (i := 2) rfl, rfl⟩
  exact ⟨conf, out, hreach, hint_bracket_iff hreach hn hopening hopens hended
    (.streamed (js "Use a map.") (.head _) (Exchange.stays_of_forall hthere))⟩

/-- One of two users asks for a hint, the other one approves, and the stream fails after its first chunk. -/
def exampleBrokenStream : List ServerAct :=
  exampleTwoUsers ++ exampleSelect 0 7 ++
    [.event (.receive 0 .hintRequest), .resume 0 .go, .event (.receive 1 .hintApprove), .resume 0 .go] ++
    exampleLlmOutcomes.map (.resume 0 ·) ++ [.resume 0 (.chunk (js "Use ")), .resume 0 (.failed .other)]

theorem hint_left_open : ¬ ∀ (acts : List ServerAct) (conf : ThreadedServerConf) (out : List Effect) (n : ℕ)
    (opening : ServerTurn) (d : Delivery) (o : Outcome) (k : SocketId),
    ReachesThreaded plainConfig .collaboration 10000 acts conf out → n < conf.shared.2 →
    opening ∈ threadTurns plainConfig .collaboration 10000 acts n → opening.trigger = .task (.hintStored d) o →
    tasksOf n conf.pool = [] → Awaits plainConfig k (threadTurns plainConfig .collaboration 10000 acts n) →
    (hintExchange plainConfig).Answered k (threadTurns plainConfig .collaboration 10000 acts n) := by
  intro hclaim
  obtain ⟨conf, out, hreach, hn, hended⟩ : ∃ conf out,
      ReachesThreaded plainConfig .collaboration 10000 exampleBrokenStream conf out ∧ 6 < conf.shared.2 ∧
        tasksOf 6 conf.pool = [] := ⟨_, _, rfl, by decide, rfl⟩
  have hthere : ∀ turn ∈ threadTurns plainConfig .collaboration 10000 exampleBrokenStream 6,
      0 ∈ turn.before.shared.joined := by
    decide +kernel
  have hheard : (hintExchange plainConfig).heardIn 0
      (threadTurns plainConfig .collaboration 10000 exampleBrokenStream 6) = [.hintChunk (js "Use ")] := rfl
  obtain ⟨opening, hopening, hopens⟩ : ∃ turn ∈
      threadTurns plainConfig .collaboration 10000 exampleBrokenStream 6,
      turn.trigger = .task (.hintStored ⟨1, some 7, 0⟩) (.hint none) :=
    ⟨_, List.mem_of_getElem? (i := 2) rfl, rfl⟩
  refine Exchange.not_answered_of_announcement hheard rfl (hclaim exampleBrokenStream conf out 6 opening _ _ 0
    hreach hn hopening hopens hended (.streamed (js "Use ") ?_ (Exchange.stays_of_forall hthere)))
  rw [hheard]
  exact List.mem_singleton_self _

end CodeShare
