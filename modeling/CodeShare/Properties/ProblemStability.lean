import CodeShare.Foundations.EarlyChecks
import CodeShare.Properties.ExecutionLock
import CodeShare.Server.StreamSteps

/-! # The problem under a running execution

The guards against switching problems are evaluated by the middleware; the switch follows one or more
awaits later, and so does the end of `testcase:add`. Runs in which the guard still holds when a
problem is put into the room, and in which a custom test case is stored while the problem it was
checked against is still there, keep the problem under every execution and every hint stream.
-/

namespace CodeShare
open Tasks
set_option autoImplicit false

/-- A problem is put into the room only when the guard of the middleware allows it, and a custom test
case is stored only under the problem it was checked against. -/
structure GuardedAtEnd (c : ServerConf) (t : ServerTrigger) : Prop where
  switch : loads t ≠ none → c.shared.room.canSwitchProblem = none
  store : ∀ testCase, stores c.shared t = some testCase →
    c.shared.room.problemId = some testCase.checkedFor

instance (c : ServerConf) (t : ServerTrigger) : Decidable (GuardedAtEnd c t) :=
  decidable_of_iff ((loads t ≠ none → c.shared.room.canSwitchProblem = none) ∧
      ∀ testCase ∈ stores c.shared t, c.shared.room.problemId = some testCase.checkedFor)
    ⟨fun h => ⟨h.1, h.2⟩, fun h => ⟨h.switch, h.store⟩⟩

structure ProblemInvariant (c : ServerConf) (out : List Effect) : Prop where
  lock : LockInvariant c out
  loaded : ∀ task ∈ c.pool, task.LoadedFor c.shared.room.problemId
  stored : ∀ testCase ∈ c.shared.room.customTestCases,
    c.shared.room.problemId = some testCase.checkedFor
  read : ∀ p testCases, Effect.customCasesLoaded p testCases ∈ out →
    ∀ testCase ∈ testCases, testCase.checkedFor = p

theorem initial_problem (cfg : Config) (mode : RoomMode) (now : Time) :
    ProblemInvariant (initial cfg mode now) [] where
  lock := initial_lock cfg mode now
  loaded := nofun
  stored := nofun
  read := nofun

/-! ## One step -/

theorem Task.loadedFor_of_free {task : Task} (h : task.holdsLock = false) (p : Option ProblemId) :
    task.LoadedFor p := by
  cases task <;> trivial

section
variable {cfg : Config} {c c' : ServerConf} {past out : List Effect} {t : ServerTrigger} {g : Step}
  {rest : List Task}

/-- A problem that is allowed to change finds no execution running. -/
theorem no_holder_of_switch (h : LockInvariant c past)
    (hswitch : c.shared.room.canSwitchProblem = none) :
    ∀ task ∈ c.pool, task.holdsLock = false := by
  intro task hm
  by_contra hholds
  have hflag := h.owned.of_mem hm (by simpa using hholds)
  rw [(Room.canSwitchProblem_eq_none hswitch).1] at hflag
  cases hflag

/-- What a segment leaves behind has loaded for the problem in the room. -/
theorem next_loaded (h : ∀ task ∈ c.pool, task.LoadedFor c.shared.room.problemId)
    (hby : (server cfg).StepBy c c' out t g rest) :
    ∀ task ∈ g.next, task.LoadedFor c.shared.room.problemId := by
  intro task hm
  cases fire_lock hby.fire with
  | apart htaken hnext hlock hout =>
    refine Task.loadedFor_of_free ?_ _
    by_contra hholds
    exact Task.execution_of_holdsLock (by simpa using hholds) (hnext task hm)
  | opened x htaken hx hnext hlock hout =>
    rw [hnext, List.mem_singleton] at hm
    rw [hm]
    trivial
  | locked x task' htaken hcan hnext hx hholds hfree hloaded hlock hout =>
    rw [hnext, List.mem_singleton] at hm
    rw [hm]
    exact hloaded
  | moved task' task'' htaken hnext hx hholds hholds' hsame hloaded hstate hout =>
    rw [hnext, List.mem_singleton] at hm
    rw [hm]
    exact hloaded (h task' (hby.mem_of_taken (by simp [htaken])))
  | reserved x loaded nonce htaken hnext hstate hout =>
    rw [hnext, List.mem_singleton] at hm
    rw [hm]
    exact h (.executionReserve x loaded) (hby.mem_of_taken (by simp [htaken]))
  | finished x submissionReserved failure htaken hnext hlock hout =>
    rw [hnext] at hm
    cases hm

/-- The custom test cases that an execution reads are those of the room. -/
theorem customCasesLoaded_step (hby : (server cfg).StepBy c c' out t g rest) {p : ProblemId}
    {testCases : List StoredTestCase} (hm : Effect.customCasesLoaded p testCases ∈ out) :
    testCases = c.shared.room.customTestCases ∧
      ∃ x code, Task.executionCases x code p ∈ c.pool := by
  have hnote : Effect.customCasesLoaded p testCases ∈ notes g.out := by
    rw [← hby.out]
    exact List.mem_filter.mpr ⟨hm, rfl⟩
  cases fire_lock hby.fire with
  | apart htaken hnext hlock hout => exact absurd rfl (hout _ hnote)
  | opened x htaken hx hnext hlock hout => rw [hout] at hnote; cases hnote
  | locked x task' htaken hcan hnext hx hholds hfree hloaded hlock hout =>
    rw [hout] at hnote; cases hnote
  | moved task' task'' htaken hnext hx hholds hholds' hsame hloaded hstate hout =>
    rcases hout with hout | ⟨x, code, q, rfl, hout⟩
    · rw [hout] at hnote; cases hnote
    · rw [hout, List.mem_singleton, Effect.customCasesLoaded.injEq] at hnote
      obtain ⟨rfl, rfl⟩ := hnote
      exact ⟨rfl, x, code, hby.mem_of_taken (by simp [htaken])⟩
  | reserved x loaded nonce htaken hnext hstate hout => rw [hout] at hnote; simp at hnote
  | finished x submissionReserved failure htaken hnext hlock hout => rw [hout] at hnote; simp at hnote

/-- They are cases for the room's problem, which is the execution's. -/
theorem read_step (h : ProblemInvariant c past) (hby : (server cfg).StepBy c c' out t g rest)
    {p : ProblemId} {testCases : List StoredTestCase}
    (hm : Effect.customCasesLoaded p testCases ∈ out) :
    ∀ testCase ∈ testCases, testCase.checkedFor = p := by
  obtain ⟨rfl, x, code, hpool⟩ := customCasesLoaded_step hby hm
  intro testCase hcase
  have hcurrent : c.shared.room.problemId = some p := h.loaded _ hpool
  exact Option.some.inj ((h.stored testCase hcase).symm.trans hcurrent)

/-- The custom test cases after a segment that loads nothing. -/
theorem customTestCases_step (h : (server cfg).fire c.shared t = some g) (hload : loads t = none) :
    g.state.room.customTestCases = c.shared.room.customTestCases ++ (stores c.shared t).toList := by
  by_cases hf : triggerFamily t = .testCase
  · exact fire_testCase h hf
  · have hnone : stores c.shared t = none := by
      unfold stores
      split
      · exact absurd rfl hf
      · rfl
    rw [hnone, Option.toList_none, List.append_nil]
    refine fire_observe (φ := fun s : Server => s.room.customTestCases) h hload ?_
    rintro f hproblem rfl
    cases hf' : triggerFamily t <;> first | exact fun _ => rfl | contradiction

theorem problem_step (h : ProblemInvariant c past) (hguard : GuardedAtEnd c t)
    (hby : (server cfg).StepBy c c' out t g rest) : ProblemInvariant c' (past ++ out) := by
  refine ⟨lock_step h.lock hby, ?_, ?_, fun p testCases hm => ?_⟩
  · intro task hm
    rw [hby.shared]
    cases hload : loads t with
    | some p =>
      refine Task.loadedFor_of_free ?_ _
      have hfree := no_holder_of_switch h.lock (hguard.switch (by simp [hload]))
      rcases hby.mem_after hm with hm | hm
      · exact hfree task (hby.mem_of_rest hm)
      · rw [(fire_switched hby.fire hload).next] at hm
        cases hm
    | none =>
      rw [fire_problemId hby.fire hload]
      rcases hby.mem_after hm with hm | hm
      · exact h.loaded task (hby.mem_of_rest hm)
      · exact next_loaded h.loaded hby task hm
  · rw [hby.shared]
    cases hload : loads t with
    | some p =>
      obtain ⟨hintLimit, importsUsed, hroom⟩ := (fire_switched hby.fire hload).room
      rw [hroom]
      exact nofun
    | none =>
      rw [fire_problemId hby.fire hload, customTestCases_step hby.fire hload]
      intro testCase hm
      rcases List.mem_append.mp hm with hm | hm
      · exact h.stored testCase hm
      · exact hguard.store testCase (Option.mem_toList.mp hm)
  · rcases List.mem_append.mp hm with hm | hm
    · exact h.read p testCases hm
    · exact read_step h hby hm

end

/-! ## Runs -/

/-- **The problem never changes under an execution or a hint stream**, in runs whose segments are all
guarded at their end: no further guarded segment changes the problem while an execution or a hint
stream is running, and what executions have loaded, the custom test cases included, belongs to the
room's problem. -/
theorem problem_fixed_while_running {cfg : Config} {mode : RoomMode} {now : Time}
    {acts : List ServerAct} {c : ServerConf} {out : List Effect}
    (hmeets : Meeting cfg GuardedAtEnd mode now acts) (hreach : Reaches cfg mode now acts c out) :
    (∀ task ∈ c.pool, task.LoadedFor c.shared.room.problemId) ∧
    (∀ p testCases, Effect.customCasesLoaded p testCases ∈ out →
      ∀ testCase ∈ testCases, testCase.checkedFor = p) ∧
    ∀ a c' out', (server cfg).step c a = some (c', out') →
      (∀ t, Machine.trigger c a = some t → GuardedAtEnd c t) →
      c.shared.room.executionInProgress = true ∨ c.shared.room.hintStreaming = true →
      c'.shared.room.problemId = c.shared.room.problemId := by
  have h : ProblemInvariant c out := Machine.run_preserves
    (fun _ _ _ _ _ _ _ h hguard hby => problem_step h hguard hby) (initial_problem cfg mode now)
    hmeets hreach
  refine ⟨h.loaded, h.read, fun a c' out' hstep hguard hrunning => ?_⟩
  obtain ⟨t, g, htrigger, hby⟩ := Machine.step_by hstep
  rw [hby.shared]
  refine fire_problemId hby.fire ?_
  by_contra hload
  obtain ⟨hexecution, hstreaming⟩ :=
    Room.canSwitchProblem_eq_none ((hguard t htrigger).switch hload)
  rcases hrunning with hrunning | hrunning
  · rw [hexecution] at hrunning; cases hrunning
  · rw [hstreaming] at hrunning; cases hrunning

/-- An execution that is still waiting for its test cases. -/
def exampleRunning : List ServerAct :=
  exampleJoin 0 .go ++ exampleSelect 0 7 ++
    [.event (.receive 0 .codeRun), .resume 0 .go, .resume 0 .allowed]

theorem problem_fixed_while_running_example : ∃ c out,
    Reaches plainConfig .collaboration 0 exampleRunning c out ∧
    c.shared.room.executionInProgress = true ∧
    (∀ task ∈ c.pool, task.LoadedFor c.shared.room.problemId) ∧
    (∀ p testCases, Effect.customCasesLoaded p testCases ∈ out →
      ∀ testCase ∈ testCases, testCase.checkedFor = p) ∧
    ∀ a c' out', (server plainConfig).step c a = some (c', out') →
      (∀ t, Machine.trigger c a = some t → GuardedAtEnd c t) →
      c.shared.room.executionInProgress = true ∨ c.shared.room.hintStreaming = true →
      c'.shared.room.problemId = c.shared.room.problemId := by
  obtain ⟨c, out, hreach, hrunning⟩ : ∃ c out,
      Reaches plainConfig .collaboration 0 exampleRunning c out ∧
      c.shared.room.executionInProgress = true :=
    ⟨_, _, rfl, rfl⟩
  have hmeets : Meeting plainConfig GuardedAtEnd .collaboration 0
      exampleRunning := by
    unfold Meeting
    decide
  exact ⟨c, out, hreach, hrunning, problem_fixed_while_running hmeets hreach⟩

/-- Problem 8 is admitted and looked up, then the execution starts, then the look-up ends. -/
theorem problem_switched_under_execution : ∃ c out c' out',
    Reaches plainConfig .collaboration 0
      (exampleJoin 0 .go ++ exampleSelect 0 7 ++
        [.event (.receive 0 (.problemSelect (some 8))), .resume 0 .go,
          .event (.receive 0 .codeRun), .resume 1 .go, .resume 1 .allowed]) c out ∧
    (server plainConfig).step c (.resume 0 (.detail (some (exampleDetail 8)))) =
      some (c', out') ∧
    c.shared.room.executionInProgress = true ∧ c'.shared.room.executionInProgress = true ∧
    c.shared.room.problemId = some 7 ∧ c'.shared.room.problemId = some 8 :=
  ⟨_, _, _, _, rfl, rfl, rfl, rfl, rfl, rfl⟩

/-! ## Switches apart -/

/-- The event or its handler is behind the guard of the middleware, on the way to a new problem. -/
def Task.switches : Task → Bool
  | admitted _ event _ => event.requiresSwitchableProblem
  | selecting _ _ | importIpLimiter _ _ | importQuota _ _ | importLimiter _ _ | importReserve _ _
  | importScrape _ _ | importLoad _ _ => true
  | _ => false

/-- A custom test case is being checked. -/
def Task.checksCase : Task → Bool
  | addingTestCase _ _ _ => true
  | _ => false

/-- The segment starts an execution or a hint stream. -/
def startsWork : ServerTrigger → Bool
  | .task (.executionIpLimiter _) .allowed => true
  | t => startsStream t

/-- An execution or a hint stream starts only while no new problem is on the way, and a problem is loaded
only while no test case is being checked. -/
structure SwitchesApart (c : ServerConf) (t : ServerTrigger) : Prop where
  start : startsWork t = true → c.pool.countP Task.switches = 0
  load : loads t ≠ none → c.pool.countP Task.checksCase = 0

/-- What a task was checked for: nothing runs, or the problem is the one it was checked against. -/
structure Task.Guarded (s : Server) (task : Task) : Prop where
  switch : task.switches = true → s.room.canSwitchProblem = none
  check : ∀ socket testCase p, task = .addingTestCase socket testCase p → s.room.problemId = some p

section
variable {cfg : Config} {s : Server} {t : ServerTrigger} {g : Step} {task : Task}

theorem fire_executionInProgress (h : (server cfg).fire s t = some g) (hstart : startsWork t = false)
    (hfree : s.room.executionInProgress = false) : g.state.room.executionInProgress = false := by
  have hview : ∀ {v : LockView}, g.state.lockView = v → v.executionInProgress = false →
      g.state.room.executionInProgress = false := fun hv hf => (congrArg LockView.executionInProgress hv).trans hf
  cases fire_lock h with
  | apart _ _ hlock => exact hview hlock hfree
  | opened _ _ _ _ hlock => exact hview hlock hfree
  | locked x task htaken _ hnext =>
    cases t with
    | event e => cases htaken
    | task task' o =>
      obtain rfl := List.singleton_inj.mp htaken
      change afterExecutionIpLimiter cfg s x o = some g at h
      cases o with
      | allowed => cases hstart
      | limited retryAfterSeconds | failed reason => cases h; cases hnext
      | _ => cases h
  | moved _ _ _ _ _ _ _ _ _ hstate => rw [hstate]; exact hfree
  | reserved _ _ _ _ _ hstate => rw [hstate]; exact hfree
  | finished _ _ _ _ _ hlock => exact hview hlock rfl

/-- The guard stays down while nothing starts. -/
theorem canSwitchProblem_kept (h : (server cfg).fire s t = some g) (hstart : startsWork t = false)
    (hcan : s.room.canSwitchProblem = none) : g.state.room.canSwitchProblem = none := by
  obtain ⟨hexecution, hstreaming⟩ := Room.canSwitchProblem_eq_none hcan
  have hstream : startsStream t = false := by
    unfold startsWork at hstart
    split at hstart
    · cases hstart
    · exact hstart
  have hflag := (fire_stream h).flag
  rw [hstream, hstreaming, Bool.false_and, Bool.or_false] at hflag
  simp [Room.canSwitchProblem, fire_executionInProgress h hstart hexecution, hflag]

theorem canSwitchProblem_of_admitted {socket : SocketId} {event : ClientEvent} {seen : Option SeenRequest}
    (h : (server cfg).fire s t = some g) (hm : .admitted socket event seen ∈ g.next)
    (hevent : event.requiresSwitchableProblem = true) : s.room.canSwitchProblem = none ∧ g.state = s := by
  obtain ⟨-, rfl⟩ := fire_admits h hm
  refine ⟨?_, authMiddleware_state s socket event⟩
  rcases authMiddleware_next s socket event with hnext | ⟨payload, rfl, -⟩ | ⟨user, -, -, hpass, -⟩
  · rw [hnext] at hm
    cases hm
  · cases hevent
  · have hstate := (Option.or_eq_none_iff.mp hpass).2
    cases event with
    | problemSelect | problemImport => exact hstate
    | _ => cases hevent

/-- A new problem stays on the way until it is loaded or refused. -/
theorem switches_of_next (h : (server cfg).fire s t = some g) (hm : task ∈ g.next)
    (hfamily : task.family = .problem) : ∃ task' ∈ t.taken, task'.switches = true := by
  have hproblem : triggerFamily t = .problem := by rw [← (fire_within h).next task hm, hfamily]
  cases t with
  | event e => cases hproblem
  | task task' o =>
    refine ⟨task', List.mem_singleton_self _, ?_⟩
    cases task' with
    | admitted socket event seen => cases event <;> first | rfl | cases hproblem
    | importFailing socket reason =>
      change resumeTask cfg s _ o = some g at h
      cases o <;> cases h
      cases reason <;> cases hm
    | _ => first | rfl | cases hproblem

theorem problemId_of_checking {socket : SocketId} {testCase : CustomTestCase} {p : ProblemId}
    (h : (server cfg).fire s t = some g) (hm : .addingTestCase socket testCase p ∈ g.next) :
    s.room.problemId = some p ∧ g.state = s := by
  have hfamily : triggerFamily t = .testCase := by rw [← (fire_within h).next _ hm]; rfl
  cases t with
  | event e => cases hfamily
  | task task o =>
    change resumeTask cfg s task o = some g at h
    cases task with
    | admitted socket' event seen =>
      cases o <;> cases h
      cases event with
      | testcaseAdd data =>
        unfold runHandler at hm ⊢
        by_cases hgone : socket' ∉ s.live
        · rw [if_pos hgone] at hm
          cases hm
        · rw [if_neg hgone] at hm ⊢
          dsimp only at hm ⊢
          rcases handleTestcaseAdd_cases s socket' data with ⟨-, heq⟩ | ⟨message, heq⟩ | ⟨testCase', p', hfor, heq⟩ <;>
            rw [heq] at hm ⊢
          · cases hm
          · cases hm
          · obtain ⟨-, -, rfl⟩ := Task.addingTestCase.inj (List.mem_singleton.mp hm)
            exact ⟨hfor.2, rfl⟩
      | _ => cases hfamily
    | addingTestCase socket' testCase' p' =>
      rcases afterAddingTestCase_cases h with ⟨message, -, rfl⟩ | ⟨found, -, -, rfl⟩ <;> cases hm
    | _ => cases hfamily

/-- Nothing starts beside a task that switches, and nothing is loaded beside one that checks a case. -/
theorem guarded_beside {c c' : ServerConf} {out : List Effect} {rest : List Task} (hapart : SwitchesApart c t)
    (hby : (server cfg).StepBy c c' out t g rest) (hm : task ∈ rest) (hguarded : task.Guarded c.shared) :
    task.Guarded g.state := by
  constructor
  · intro hswitches
    have hstart : startsWork t = false := by
      by_contra hstart
      have hnone := hapart.start (Bool.not_eq_false _ ▸ hstart)
      exact List.countP_eq_zero.mp hnone task (hby.mem_of_rest hm) hswitches
    exact canSwitchProblem_kept hby.fire hstart (hguarded.switch hswitches)
  · rintro socket testCase p rfl
    have hload : loads t = none := by
      by_contra hload
      exact List.countP_eq_zero.mp (hapart.load hload) _ (hby.mem_of_rest hm) rfl
    rw [fire_problemId hby.fire hload]
    exact hguarded.check socket testCase p rfl

/-- A task that goes on finds what the one before it found. -/
theorem guarded_next (h : (server cfg).fire s t = some g) (hguarded : ∀ task ∈ t.taken, task.Guarded s)
    (hm : task ∈ g.next) : task.Guarded g.state := by
  constructor
  · intro hswitches
    have hload : loads t = none := by
      by_contra hload
      obtain ⟨p, hload⟩ := Option.ne_none_iff_exists'.mp hload
      rw [(fire_switched h hload).next] at hm
      cases hm
    by_cases hproblem : task.family = .problem
    · obtain ⟨task', htaken, hswitches'⟩ := switches_of_next h hm hproblem
      have hfamily : triggerFamily t = .problem := by rw [← (fire_within h).next task hm, hproblem]
      rw [(fire_unswitched h hfamily hload).state]
      exact (hguarded task' htaken).switch hswitches'
    · cases task with
      | admitted socket event seen =>
        obtain ⟨hcan, hstate⟩ := canSwitchProblem_of_admitted h hm hswitches
        rw [hstate]
        exact hcan
      | _ => first | exact absurd rfl hproblem | cases hswitches
  · rintro socket testCase p rfl
    obtain ⟨hproblem, hstate⟩ := problemId_of_checking h hm
    rw [hstate]
    exact hproblem

/-- A segment that loads or stores works on a guarded task. -/
theorem guardedAtEnd_of_taken {c : ServerConf} (hguarded : ∀ task ∈ t.taken, task.Guarded c.shared) :
    GuardedAtEnd c t := by
  constructor
  · intro hload
    unfold loads at hload
    split at hload
    · exact (hguarded _ (List.mem_singleton_self _)).switch rfl
    · exact (hguarded _ (List.mem_singleton_self _)).switch rfl
    · exact absurd rfl hload
  · intro testCase hstore
    unfold stores at hstore
    split at hstore
    · split_ifs at hstore
      cases hstore
      exact (hguarded _ (List.mem_singleton_self _)).check _ _ _ rfl
    · cases hstore

end

/-- Where nothing starts while a new problem is on the way, and nothing is loaded while a test case is being
checked, the guards of the middleware still hold at the end. -/
theorem guardedAtEnd_of_apart {cfg : Config} {mode : RoomMode} {now : Time} {acts : List ServerAct}
    {c : ServerConf} {out : List Effect} (happart : Meeting cfg SwitchesApart mode now acts)
    (hreach : Reaches cfg mode now acts c out) : Meeting cfg GuardedAtEnd mode now acts := by
  refine Machine.meets_of_relied (fun s task => task.Guarded s) ?_ ?_ ?_ happart hreach nofun
  · exact fun c c' out t g rest hapart hby task hm => guarded_beside hapart hby hm
  · exact fun c c' out t g rest _ hby hguarded task => guarded_next hby.fire hguarded
  · exact fun c c' out t g rest _ hby hrelied =>
      guardedAtEnd_of_taken fun task htaken => hrelied task (hby.mem_of_taken htaken)

end CodeShare
