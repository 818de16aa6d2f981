import CodeShare.Server.Frames

/-! # What a segment does to the execution lock

`LockStep` lists the ways in which a segment treats the lock, the count of submissions and the
handlers of `code:run` and `code:submit`; `fire_lock` says that there are no others.
-/

namespace CodeShare
open Tasks
set_option autoImplicit false

/-! ## Handlers in the pool -/

/-- The execution that a task belongs to. -/
def Task.execution : Task → Option Execution
  | executionIpLimiter x | executionCases x _ _ | executionRest x _ _ _ | executionLimiter x _
  | executionReserve x _ | executionJudge0 x _ _ | executionSettling x _ _ => some x
  | _ => none

/-- The handler has set `executionInProgress` and not reset it yet. -/
def Task.holdsLock : Task → Bool
  | executionCases _ _ _ | executionRest _ _ _ _ | executionLimiter _ _ | executionReserve _ _
  | executionJudge0 _ _ _ | executionSettling _ _ _ => true
  | _ => false

/-- The quota was reserved for the handler. -/
def Task.reserved : Task → Bool
  | executionJudge0 _ _ _ => true
  | executionSettling _ submissionReserved _ => submissionReserved
  | _ => false

/-- What the handler has loaded so far belongs to the problem. -/
def Task.LoadedFor (p : Option ProblemId) : Task → Prop
  | executionCases _ _ problemId => p = some problemId
  | executionRest _ _ problemId testCases =>
    p = some problemId ∧ ∀ testCase ∈ testCases, testCase.problemId = problemId
  | executionLimiter _ loaded | executionReserve _ loaded | executionJudge0 _ loaded _ =>
    p = some loaded.problem.id ∧ loaded.boilerplate.problemId = loaded.problem.id ∧
      ∀ testCase ∈ loaded.testCases, testCase.problemId = loaded.problem.id
  | _ => True

theorem Task.family_of_execution {t : Task} (h : t.execution ≠ none) : t.family = .execution := by
  cases t <;> first | rfl | exact absurd rfl h

theorem Task.execution_of_holdsLock {t : Task} (h : t.holdsLock = true) : t.execution ≠ none := by
  cases t <;> simp [holdsLock, execution] at h ⊢

/-- The fields around the lock. -/
structure LockView where
  executionInProgress : Bool
  submissionsUsed : ℕ
  submissionLimit : ℕ
  nextHandler : ℕ

def Server.lockView (s : Server) : LockView where
  executionInProgress := s.room.executionInProgress
  submissionsUsed := s.room.submissionsUsed
  submissionLimit := s.room.submissionLimit
  nextHandler := s.nextHandler

/-! ## The steps -/

inductive LockStep (s : Server) (t : ServerTrigger) (g : Step) : Prop where
  | apart
      (htaken : ∀ task ∈ t.taken, task.holdsLock = false)
      (hnext : ∀ task ∈ g.next, task.execution = none)
      (hlock : g.state.lockView = s.lockView)
      (hout : ∀ e ∈ notes g.out, e.family ≠ some .execution)
  | opened (x : Execution)
      (htaken : ∀ task ∈ t.taken, task.execution = none)
      (hx : x.handler = s.nextHandler)
      (hnext : g.next = [.executionIpLimiter x])
      (hlock : g.state.lockView = { s.lockView with nextHandler := s.nextHandler + 1 })
      (hout : notes g.out = [])
  | locked (x : Execution) (task : Task)
      (htaken : t.taken = [.executionIpLimiter x])
      (hcan : s.room.canExecute = none)
      (hnext : g.next = [task])
      (hx : task.execution = some x)
      (hholds : task.holdsLock = true)
      (hfree : task.reserved = false)
      (hloaded : task.LoadedFor s.room.problemId)
      (hlock : g.state.lockView = { s.lockView with executionInProgress := true })
      (hout : notes g.out = [])
  | moved (task task' : Task)
      (htaken : t.taken = [task])
      (hnext : g.next = [task'])
      (hx : task'.execution = task.execution)
      (hholds : task.holdsLock = true)
      (hholds' : task'.holdsLock = true)
      (hreserved : task'.reserved = task.reserved)
      (hloaded : task.LoadedFor s.room.problemId → task'.LoadedFor s.room.problemId)
      (hstate : g.state = s)
      (hout : notes g.out = [] ∨ ∃ x code p, task = .executionCases x code p ∧
        notes g.out = [.customCasesLoaded p s.room.customTestCases])
  | reserved (x : Execution) (loaded : LoadedExecutionResources) (nonce : JsString)
      (htaken : t.taken = [.executionReserve x loaded])
      (hnext : g.next = [.executionJudge0 x loaded nonce])
      (hstate : g.state = s)
      (hout : notes g.out = [.executionReserved x.handler,
        .judge0Submit (harness loaded nonce) loaded.problem.timeLimitMs])
  | finished (x : Execution) (submissionReserved : Bool) (failure : Option Failure)
      (htaken : t.taken = [.executionSettling x submissionReserved failure])
      (hnext : g.next = [])
      (hlock : g.state.lockView = { s.lockView with
        executionInProgress := false
        submissionsUsed := s.room.submissionsUsed + submissionReserved.toNat })
      (hout : notes g.out = [.executionFinished x.handler])

variable {cfg : Config} {s : Server} {t : ServerTrigger} {o : Outcome} {g : Step}

namespace LockStep

/-- The segments of other families. -/
theorem of_within {f : Family} (h : Within f s g) (hf : f ≠ .execution)
    (htaken : ∀ task ∈ t.taken, task.holdsLock = false) : LockStep s t g := by
  refine .apart htaken (fun task hm => ?_) ?_ (fun e he => ?_)
  · by_contra hx
    exact hf ((h.next task hm).symm.trans (Task.family_of_execution hx))
  · refine h.observe Server.lockView ?_
    cases f <;> first | exact fun _ => rfl | exact absurd rfl hf
  · rw [h.out e he]
    exact fun heq => hf (Option.some.inj heq)

/-- A handler that ends before it takes the lock. -/
theorem of_quiet (htaken : ∀ task ∈ t.taken, task.holdsLock = false) (hstate : g.state = s)
    (hnext : g.next = []) (hout : notes g.out = []) : LockStep s t g := by
  refine .apart htaken ?_ (by rw [hstate]) ?_
  · simp [hnext]
  · simp [hout]

end LockStep

theorem createExecutionSession_lock (s : Server) (socket : SocketId) (type : ExecutionType)
    (htaken : ∀ task ∈ t.taken, task.execution = none) :
    LockStep s t (createExecutionSession s socket type) := by
  have hfree : ∀ task ∈ t.taken, task.holdsLock = false := by
    intro task hm
    by_contra hholds
    exact Task.execution_of_holdsLock (by simpa using hholds) (htaken task hm)
  unfold createExecutionSession
  split
  · exact .of_quiet hfree rfl rfl rfl
  · split_ifs
    · exact .of_quiet hfree rfl rfl rfl
    · exact .opened ⟨s.nextHandler, socket, type⟩ htaken rfl rfl rfl rfl

theorem afterExecutionIpLimiter_lock {x : Execution}
    (h : afterExecutionIpLimiter cfg s x o = some g) :
    LockStep s (.task (.executionIpLimiter x) o) g := by
  have hfree : ∀ task ∈ (Trigger.task (.executionIpLimiter x) o : ServerTrigger).taken,
      task.holdsLock = false := by
    simp [Trigger.taken, Task.holdsLock]
  unfold afterExecutionIpLimiter at h
  split at h
  · split at h <;> cases h
    · exact .of_quiet hfree rfl rfl (by simp)
    · rename_i p hcan hp
      unfold startExecution
      dsimp only
      split_ifs
      · exact .locked x _ rfl hcan rfl rfl rfl rfl hp rfl (by simp)
      · exact .locked x _ rfl hcan rfl rfl rfl rfl trivial rfl (by simp)
  · cases h; exact .of_quiet hfree rfl rfl (by simp)
  · cases h; exact .of_quiet hfree rfl rfl (by simp [Effect.family])
  · cases h

theorem customCases_problemId {room : Room} {p : ProblemId} {visible : List TestCase}
    {testCase : TestCase} (h : testCase ∈ customCases room p visible) : testCase.problemId = p := by
  rw [customCases, List.mem_mapIdx] at h
  obtain ⟨i, hi, rfl⟩ := h
  rfl

theorem afterExecutionCases_lock {x : Execution} {code : JsString} {p : ProblemId}
    (h : afterExecutionCases s x code p o = some g) :
    LockStep s (.task (.executionCases x code p) o) g := by
  unfold afterExecutionCases at h
  split at h
  · rename_i rows
    split_ifs at h with hrows
    have hvisible : ∀ row ∈ rows, row.problemId = p := by simpa using hrows
    split at h <;> cases h
    · exact .moved _ _ rfl rfl rfl rfl rfl rfl (fun hp => ⟨hp, hvisible⟩) rfl (.inl rfl)
    · rename_i current _ hcurrent
      refine .moved _ _ rfl rfl rfl rfl rfl rfl (fun hp => ⟨hp, ?_⟩) rfl
        (.inr ⟨x, code, p, rfl, rfl⟩)
      obtain rfl : current = p := Option.some.inj (hcurrent.symm.trans hp)
      intro testCase hm
      rcases List.mem_append.mp hm with hm | hm
      · exact hvisible testCase hm
      · exact customCases_problemId hm
  · cases h
    exact .moved _ _ rfl rfl rfl rfl rfl rfl (fun _ => trivial) rfl (.inl rfl)
  · cases h

theorem afterExecutionRest_lock {x : Execution} {code : JsString} {p : ProblemId}
    {cases : List TestCase} (h : afterExecutionRest cfg s x code p cases o = some g) :
    LockStep s (.task (.executionRest x code p cases) o) g := by
  unfold afterExecutionRest at h
  split at h
  · split_ifs at h with hids hlimiter
    all_goals
      obtain ⟨hboilerplate, rfl⟩ := hids
      cases h
      exact .moved _ _ rfl rfl rfl rfl rfl rfl
        (fun hp => ⟨hp.1, hboilerplate, hp.2⟩) rfl (.inl rfl)
  · cases h
    exact .moved _ _ rfl rfl rfl rfl rfl rfl (fun _ => trivial) rfl (.inl (by simp))
  · cases h
    exact .moved _ _ rfl rfl rfl rfl rfl rfl (fun _ => trivial) rfl (.inl rfl)
  · cases h

theorem afterExecutionLimiter_lock {x : Execution} {loaded : LoadedExecutionResources}
    (h : afterExecutionLimiter s x loaded o = some g) :
    LockStep s (.task (.executionLimiter x loaded) o) g := by
  unfold afterExecutionLimiter at h
  split at h <;> cases h
  · exact .moved _ _ rfl rfl rfl rfl rfl rfl id rfl (.inl rfl)
  · exact .moved _ _ rfl rfl rfl rfl rfl rfl (fun _ => trivial) rfl (.inl rfl)

theorem afterExecutionReserve_lock {x : Execution} {loaded : LoadedExecutionResources}
    (h : afterExecutionReserve s x loaded o = some g) :
    LockStep s (.task (.executionReserve x loaded) o) g := by
  unfold afterExecutionReserve at h
  split at h <;> cases h
  · exact .reserved x loaded _ rfl rfl rfl rfl
  · exact .moved _ _ rfl rfl rfl rfl rfl rfl (fun _ => trivial) rfl (.inl (by simp))
  · exact .moved _ _ rfl rfl rfl rfl rfl rfl (fun _ => trivial) rfl (.inl rfl)

theorem afterExecutionJudge0_lock {x : Execution} {loaded : LoadedExecutionResources}
    {nonce : JsString} (h : afterExecutionJudge0 cfg s x loaded nonce o = some g) :
    LockStep s (.task (.executionJudge0 x loaded nonce) o) g := by
  unfold afterExecutionJudge0 at h
  split at h
  · split at h
    · cases h
      exact .moved _ _ rfl rfl rfl rfl rfl rfl (fun _ => trivial) rfl (.inl (by simp))
    · split at h <;> cases h
      · exact .moved _ _ rfl rfl rfl rfl rfl rfl (fun _ => trivial) rfl (.inl (by simp))
      · exact .moved _ _ rfl rfl rfl rfl rfl rfl (fun _ => trivial) rfl (.inl rfl)
  · cases h
    exact .moved _ _ rfl rfl rfl rfl rfl rfl (fun _ => trivial) rfl (.inl rfl)
  · cases h

theorem afterExecutionSettling_lock (s : Server) (x : Execution) (submissionReserved : Bool)
    (failure : Option Failure) (o : Outcome) :
    LockStep s (.task (.executionSettling x submissionReserved failure) o)
      (afterExecutionSettling s x submissionReserved failure) := by
  refine .finished x submissionReserved failure rfl ?_ ?_ ?_
  · cases failure <;> rfl
  · cases failure <;> cases submissionReserved <;> rfl
  · cases failure <;> simp [afterExecutionSettling, finishExecution, Effect.family]

/-- **The lock.** Every segment of the server treats the lock in one of the ways listed. -/
theorem fire_lock (h : (server cfg).fire s t = some g) : LockStep s t g := by
  have hwithin := fire_within h
  cases t with
  | event e => exact .of_within hwithin nofun (by simp [Trigger.taken])
  | task t o =>
    change resumeTask cfg s t o = some g at h
    cases t with
    | executionIpLimiter x => exact afterExecutionIpLimiter_lock h
    | executionCases x code p => exact afterExecutionCases_lock h
    | executionRest x code p cases => exact afterExecutionRest_lock h
    | executionLimiter x loaded => exact afterExecutionLimiter_lock h
    | executionReserve x loaded => exact afterExecutionReserve_lock h
    | executionJudge0 x loaded nonce => exact afterExecutionJudge0_lock h
    | executionSettling x reserved failure =>
      cases o <;> cases h
      exact afterExecutionSettling_lock s x reserved failure .go
    | admitted socket event seen =>
      cases o <;> cases h
      have htaken : ∀ task ∈ (Trigger.task (.admitted socket event seen) .go : ServerTrigger).taken,
          task.execution = none := by
        simp [Trigger.taken, Task.execution]
      by_cases hf : event.family = .execution
      · unfold runHandler
        split
        · exact .of_quiet (by simp [Trigger.taken, Task.holdsLock]) rfl rfl rfl
        · cases event <;> first | exact createExecutionSession_lock s socket _ htaken | cases hf
      · exact .of_within hwithin hf (by simp [Trigger.taken, Task.holdsLock])
    | _ => exact .of_within hwithin nofun (by simp [Trigger.taken, Task.holdsLock])

end CodeShare
