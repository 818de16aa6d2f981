import CodeShare.Properties.ExecutionLock
import CodeShare.Properties.HintStreams
import CodeShare.Server.HandlerProgress
import CodeShare.Server.TimerSteps

/-! # The server comes to rest

No handler waits for another one. From every reachable state the answers that are due suffice to
finish all handlers, in whatever order they come, and a room without handlers is neither executing
nor delivering a hint.
-/

namespace CodeShare
open Tasks
set_option autoImplicit false

/-! ## The problem behind executions and hints -/

/-- Executions and hints, also those that are only asked for, are in a room that has a problem; a room
that is marked as streaming has a stream. -/
structure AtWork (c : ServerConf) : Prop where
  pending : c.shared.room.pendingHintRequest ≠ none → c.shared.room.problemId ≠ none
  tasks : ∀ task ∈ c.pool, task.needsProblem = true → c.shared.room.problemId ≠ none
  streaming : c.shared.room.hintStreaming = true → 0 < c.pool.countP Task.isStream

theorem initial_atWork (cfg : Config) (mode : RoomMode) (now : Time) : AtWork (initial cfg mode now) where
  pending h := absurd rfl h
  tasks := nofun
  streaming := nofun

section
variable {cfg : Config} {s : Server} {t : ServerTrigger} {g : Step}

/-- A problem is replaced, never taken away. -/
theorem fire_keeps_problem (h : (server cfg).fire s t = some g) (hproblem : s.room.problemId ≠ none) :
    g.state.room.problemId ≠ none := by
  cases hload : loads t with
  | some p =>
    obtain ⟨hintLimit, importsUsed, hroom⟩ := (fire_switched h hload).room
    rw [hroom]
    exact Option.some_ne_none p
  | none => rwa [fire_problemId h hload]

theorem hintRequestRefusal_problem {room : Room} (h : hintRequestRefusal room = none) :
    room.problemId ≠ none := by
  unfold hintRequestRefusal at h
  split_ifs at h with hproblem
  exact hproblem

theorem getHintRequestRejection_problem {socket : SocketId}
    (h : (getHintRequestRejection cfg s socket).2 = none) : s.room.problemId ≠ none := by
  unfold getHintRequestRejection at h
  split_ifs at h
  exact hintRequestRefusal_problem h

/-- A request that becomes pending is made for a problem. -/
theorem pending_has_problem (h : (server cfg).fire s t = some g)
    (hafter : g.state.room.pendingHintRequest ≠ none) :
    s.room.pendingHintRequest ≠ none ∨ s.room.problemId ≠ none := by
  have hkept : ∀ v : TimerView, g.state.timerView = v → v.pending = s.timerView.pending →
      s.room.pendingHintRequest ≠ none := by
    rintro v rfl hsame hnone
    exact hafter (Eq.trans hsame hnone)
  have hgone : ∀ v : TimerView, g.state.timerView = v → v.pending ≠ none := by
    rintro v rfl hnone
    exact hafter hnone
  have hasked : ∀ requester : RoomUserInternal, requestsConsent cfg s t = some requester →
      s.room.problemId ≠ none := by
    intro requester hrequester
    unfold requestsConsent at hrequester
    split at hrequester
    · split_ifs at hrequester with hall
      exact getHintRequestRejection_problem hall.2.2.1
    · cases hrequester
  cases fire_timers h with
  | kept _ hview => exact .inl (hkept _ hview rfl)
  | loaded _ _ hview => exact absurd rfl (hgone _ hview)
  | asked requester _ hrequester => exact .inr (hasked requester hrequester)
  | unheard requester hrequester => exact .inr (hasked requester hrequester)
  | answered _ _ _ _ _ hview => exact absurd rfl (hgone _ hview)
  | lapsed _ _ _ _ _ hview => exact absurd rfl (hgone _ hview)
  | expired _ _ destroyed _ _ _ _ hview => cases destroyed <;> exact .inl (hkept _ hview rfl)
  | closed socket _ _ hview =>
    cases hdrops : s.dropsRequest socket with
    | true =>
      rw [hdrops] at hview
      exact absurd rfl (hgone _ hview)
    | false =>
      rw [hdrops] at hview
      cases hleaver : s.leaver socket <;> rw [hleaver] at hview <;> exact .inl (hkept _ hview rfl)
  | resumed _ _ _ _ _ hview => exact .inl (hkept _ hview rfl)
  | destroyed _ hview => exact .inl (hkept _ hview rfl)

/-- Executions and hints start in a room that has a problem, or in which a hint was asked for. -/
theorem runHandler_starts {socket : SocketId} {event : ClientEvent} {seen : Option SeenRequest}
    {task : Task} (hm : task ∈ (runHandler cfg s socket seen event).next)
    (hneeds : task.needsProblem = true) :
    s.room.problemId ≠ none ∨ s.room.pendingHintRequest ≠ none := by
  have hfamily := (runHandler_within cfg s socket seen event).next task hm
  have hnone : ∀ {g : Step}, g.next = [] → task ∉ g.next := fun hnext hm => by
    rw [hnext] at hm
    cases hm
  unfold runHandler at hm
  split at hm
  · exact absurd hm (hnone rfl)
  · cases event with
    | codeRun | codeSubmit =>
      refine .inl fun hproblem => absurd hm (hnone ?_)
      simp only [createExecutionSession]
      split
      · rfl
      · rename_i room hroom
        obtain rfl : s.room = room := by
          unfold Server.getRoom at hroom
          split_ifs at hroom
          exact Option.some.inj hroom
        rw [if_pos hproblem]
        rfl
    | hintRequest =>
      dsimp only at hm
      split_ifs at hm
      · have hasked : (getHintRequestRejection cfg s socket).2 = none → s.room.problemId ≠ none :=
          getHintRequestRejection_problem
        refine .inl (hasked ?_)
        unfold handleHintRequest at hm
        generalize getHintRequestRejection cfg s socket = r at hm ⊢
        obtain ⟨s', message⟩ := r
        cases message with
        | none => rfl
        | some message => exact absurd hm (hnone rfl)
      · exact absurd hm (hnone rfl)
    | hintApprove =>
      dsimp only at hm
      split_ifs at hm
      · refine .inr fun hpending => absurd hm (hnone ?_)
        unfold handleHintApprove
        rw [hpending]
        rfl
      · exact absurd hm (hnone rfl)
    | hintDeny =>
      dsimp only at hm
      split_ifs at hm
      · exact absurd hm (hnone (handleHintDeny_next s))
      · exact absurd hm (hnone rfl)
    | _ => simp [Task.needsProblem, hfamily, ClientEvent.family] at hneeds

end

/-! ## One step -/

section
variable {cfg : Config} {c c' : ServerConf} {out : List Effect} {t : ServerTrigger} {g : Step}
  {rest : List Task}

/-- Work that needs a problem comes from work that needed it, or starts where there is one. -/
theorem AtWork.next (h : AtWork c) (hby : (server cfg).StepBy c c' out t g rest) {task : Task}
    (hm : task ∈ g.next) (hneeds : task.needsProblem = true) : c.shared.room.problemId ≠ none := by
  have hfamily := (fire_within hby.fire).next task hm
  cases t with
  | event e => simp [Task.needsProblem, hfamily, triggerFamily] at hneeds
  | task old o =>
    have hpool := hby.mem_of_taken (List.mem_singleton_self old)
    cases old with
    | admitted socket event seen =>
      have hfire : resumeTask cfg c.shared (.admitted socket event seen) o = some g := hby.fire
      cases o <;> cases hfire
      exact (runHandler_starts hm hneeds).elim id h.pending
    | _ =>
      refine h.tasks _ hpool ?_
      rw [Task.needsProblem, hfamily] at hneeds
      exact hneeds

theorem atWork_step (h : AtWork c) (hby : (server cfg).StepBy c c' out t g rest) : AtWork c' where
  pending hpending := by
    rw [hby.shared] at hpending ⊢
    exact fire_keeps_problem hby.fire ((pending_has_problem hby.fire hpending).elim h.pending id)
  tasks task hm hneeds := by
    rw [hby.shared]
    refine fire_keeps_problem hby.fire ?_
    rcases hby.mem_after hm with hm | hm
    · exact h.tasks task (hby.mem_of_rest hm) hneeds
    · exact h.next hby hm hneeds
  streaming hflag := by
    have hstep := fire_stream hby.fire
    have hcount := hby.countP_after Task.isStream
    have hstreams := hstep.streams
    rw [hby.shared, hstep.flag] at hflag
    cases hstarts : startsStream t with
    | true =>
      -- A stream has started, and a reservation never ends one.
      have hends : endsStream cfg t = none := by
        unfold startsStream at hstarts
        split at hstarts
        · rfl
        · cases hstarts
      simp only [hstarts, hends, Option.isSome_none, Bool.toNat_false, Bool.toNat_true] at hstreams
      omega
    | false =>
      simp only [hstarts, Bool.false_or, Bool.and_eq_true, Option.isNone_iff_eq_none] at hflag
      have hbefore := h.streaming hflag.1
      simp only [hstarts, hflag.2, Option.isSome_none, Bool.toNat_false] at hstreams
      omega

/-- No handler is ever stuck. -/
theorem server_goes (cfg : Config) :
    (server cfg).Goes AtWork (fun task o => task.awaits o = true) Outcome.Nonempty where
  keeps _ _ _ _ _ _ h hby := atWork_step h hby
  goes c task o h hm ho := by
    have hsome := resume_isSome cfg o (h.tasks task hm)
    rw [ho] at hsome
    exact Option.isSome_iff_exists.mp hsome
  answered := Task.exists_awaits

end

/-! ## Runs -/

section
variable {cfg : Config} {mode : RoomMode} {now : Time} {acts : List ServerAct} {c : ServerConf}
  {out : List Effect}

theorem atWork_run (hreach : Reaches cfg mode now acts c out) : AtWork c :=
  Machine.run_preserves_always (I := fun c _ => AtWork c)
    (fun _ _ _ _ _ _ _ h hby => atWork_step h hby) (initial_atWork cfg mode now) hreach

/-- Without handlers nothing runs, and the problem may be switched. -/
theorem canSwitchProblem_at_rest (hreach : Reaches cfg mode now acts c out) (hempty : c.pool = []) :
    c.shared.room.canSwitchProblem = none := by
  have howned : c.pool.countP Task.holdsLock = c.shared.room.executionInProgress.toNat :=
    (lock_run hreach).owned
  have hstreaming := (atWork_run hreach).streaming
  rw [hempty, List.countP_nil] at howned hstreaming
  have hexecution : c.shared.room.executionInProgress = false := by
    cases hflag : c.shared.room.executionInProgress with
    | false => rfl
    | true => rw [hflag] at howned; cases howned
  have hstream : c.shared.room.hintStreaming = false := by
    by_contra hflag
    exact absurd (hstreaming (by simpa using hflag)) (Nat.lt_irrefl 0)
  simp [Room.canSwitchProblem, hexecution, hstream]

/-- **The server comes to rest.** In every reachable state each suspended handler goes on with exactly
the answers it waits for, whatever the other handlers do. However the answers come, resumptions alone
are at most as many as the handlers' remaining work, and they can always be continued until no handler
is left; then nothing is executing or being streamed, and the problem may be switched. -/
theorem server_comes_to_rest (hreach : Reaches cfg mode now acts c out) :
    (∀ i task o, c.pool[i]? = some task →
      ((∃ c' out', (server cfg).step c (.resume i o) = some (c', out')) ↔ task.awaits o = true)) ∧
    (∀ answers c' out', (∀ a ∈ answers, a.isResume = true ∧ a.Answers Outcome.Nonempty) →
      (server cfg).run c answers = some (c', out') →
      answers.length + workload (Task.remaining cfg) c'.pool ≤
        workload (Task.remaining cfg) c.pool) ∧
    ∃ answers c' out', (∀ a ∈ answers, a.isResume = true ∧ a.Answers Outcome.Nonempty) ∧
      (server cfg).run c answers = some (c', out') ∧ c'.pool = [] ∧
      c'.shared.room.canSwitchProblem = none := by
  refine ⟨fun i task o htask => ⟨?_, ?_⟩, fun answers c' out' hanswers hrun => ?_, ?_⟩
  · rintro ⟨c', out', hstep⟩
    obtain ⟨t, g, ht, hby⟩ := Machine.step_by hstep
    rw [Machine.trigger, htask, Option.map_some, Option.some.injEq] at ht
    subst ht
    have hfire : resumeTask cfg c.shared task o = some g := hby.fire
    have hsome := resume_isSome cfg o
      ((atWork_run hreach).tasks task (List.mem_of_getElem? htask))
    rw [hfire] at hsome
    exact hsome.symm
  · exact (server_goes cfg).step_some (atWork_run hreach) htask
  · have hbound := (server_drains cfg).run_bound (fun a ha => (hanswers a ha).2) hrun
    rw [totalCost_of_resumes _ fun a ha => (hanswers a ha).1,
      resumptions_of_resumes fun a ha => (hanswers a ha).1] at hbound
    exact hbound
  · obtain ⟨answers, c', out', hanswers, -, hrun, -, hempty⟩ :=
      (server_goes cfg).drain (server_drains cfg) (atWork_run hreach)
    exact ⟨answers, c', out', hanswers, hrun, hempty,
      canSwitchProblem_at_rest (Machine.run_join hreach hrun) hempty⟩

/-- The events received from clients in a run. -/
def received (acts : List ServerAct) : ℕ :=
  acts.countP fun a =>
    match a with
    | .event (.receive _ _) => true
    | _ => false

theorem totalCost_price (cfg : Config) (acts : List ServerAct) :
    totalCost (ServerEvent.price cfg) acts = received acts * (cfg.maxLLMHintChars * 2 + 9) := by
  induction acts with
  | nil => simp [totalCost, received]
  | cons a acts ih =>
    rw [totalCost_cons, ih, received, received, List.countP_cons, Nat.add_mul, Nat.add_comm]
    congr 1
    cases a with
    | event e => cases e <;> simp [Act.cost, ServerEvent.price]
    | resume i o => simp [Act.cost]

/-- **The work of a run is bounded by what clients send.** In every run, in whatever order handlers are
resumed, the segments run behind an await and those still to come are at most a constant for each
event received; timers, disconnects and sweeps cost nothing. -/
theorem server_work_bounded (hreach : Reaches cfg mode now acts c out)
    (hanswers : ∀ a ∈ acts, a.Answers Outcome.Nonempty) :
    resumptions acts + workload (Task.remaining cfg) c.pool ≤
      received acts * (cfg.maxLLMHintChars * 2 + 9) := by
  have hbound := (server_drains cfg).run_bound hanswers hreach
  rw [totalCost_price] at hbound
  exact hbound.trans (Nat.zero_add _).le

end

/-- A run and a selection of another problem are waiting for their answers. -/
def exampleBusy : List ServerAct :=
  exampleJoin 0 .go ++ exampleSelect 0 7 ++
    [.event (.receive 0 (.problemSelect (some 8))), .resume 0 .go, .event (.receive 0 .codeRun),
      .resume 1 .go, .resume 1 .allowed]

theorem server_comes_to_rest_example : ∃ c out,
    Reaches plainConfig .collaboration 0 exampleBusy c out ∧ c.pool.length = 2 ∧
    (∀ i task o, c.pool[i]? = some task →
      ((∃ c' out', (server plainConfig).step c (.resume i o) = some (c', out')) ↔
        task.awaits o = true)) ∧
    (∀ answers c' out', (∀ a ∈ answers, a.isResume = true ∧ a.Answers Outcome.Nonempty) →
      (server plainConfig).run c answers = some (c', out') →
      answers.length + workload (Task.remaining plainConfig) c'.pool ≤
        workload (Task.remaining plainConfig) c.pool) ∧
    ∃ answers c' out', (∀ a ∈ answers, a.isResume = true ∧ a.Answers Outcome.Nonempty) ∧
      (server plainConfig).run c answers = some (c', out') ∧ c'.pool = [] ∧
      c'.shared.room.canSwitchProblem = none := by
  obtain ⟨c, out, hreach, hbusy⟩ : ∃ c out,
      Reaches plainConfig .collaboration 0 exampleBusy c out ∧ c.pool.length = 2 :=
    ⟨_, _, rfl, rfl⟩
  exact ⟨c, out, hreach, hbusy, server_comes_to_rest hreach⟩

theorem server_work_bounded_example : ∃ c out,
    Reaches plainConfig .collaboration 0 exampleBusy c out ∧
    resumptions exampleBusy + workload (Task.remaining plainConfig) c.pool ≤
      received exampleBusy * (plainConfig.maxLLMHintChars * 2 + 9) := by
  obtain ⟨c, out, hreach⟩ : ∃ c out, Reaches plainConfig .collaboration 0 exampleBusy c out :=
    ⟨_, _, rfl⟩
  exact ⟨c, out, hreach, server_work_bounded hreach (by decide)⟩

end CodeShare
