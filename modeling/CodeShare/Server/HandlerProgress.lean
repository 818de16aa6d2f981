import CodeShare.Foundations.Draining
import CodeShare.Server.Frames

/-! # What handlers wait for, and how much of them is left

A suspended handler goes on with whatever the service behind its await answers, and every answer
brings it nearer to its end: `Task.awaits` lists the answers, `Task.remaining` measures the rest of a
handler, and `server_drains` says that every segment lowers it.
-/

namespace CodeShare
open Tasks
set_option autoImplicit false

/-! ## What an await can come back with -/

namespace Outcome

/-- Of a rate limiter. -/
def ofRateLimiter : Outcome → Bool
  | allowed | limited _ | failed _ => true
  | _ => false

/-- Of a place in an operation limiter. -/
def ofOperationLimiter : Outcome → Bool
  | go | failed _ => true
  | _ => false

/-- Of a daily quota. -/
def ofQuota : Outcome → Bool
  | answer _ | failed _ => true
  | _ => false

/-- Of a look-up of a problem's detail. -/
def ofDetail (problemId : ProblemId) : Outcome → Bool
  | detail found => found.all fun detail => detail.id = problemId
  | failed _ => true
  | _ => false

/-- Of a look-up of a problem. -/
def ofProblem (problemId : ProblemId) : Outcome → Bool
  | problem found => found.all fun problem => problem.id = problemId
  | failed _ => true
  | _ => false

/-- A model sends no empty text: `if (content) yield content`. -/
def Nonempty : Outcome → Prop
  | chunk text => text ≠ []
  | _ => True

instance : DecidablePred Nonempty := fun o => by
  cases o <;> unfold Nonempty <;> infer_instance

end Outcome

/-- The answers that the service behind an await can give. -/
def Task.awaits : Task → Outcome → Bool
  | admitted _ _ _, o | executionSettling _ _ _, o | hintFailing _ _, o | importFailing _ _, o =>
    match o with
    | .go => true
    | _ => false
  | joinLimiter _ _, o | executionIpLimiter _, o | hintIpLimiter _, o | importIpLimiter _ _, o =>
    o.ofRateLimiter
  | executionLimiter _ _, o | hintLimiter _ _, o | importLimiter _ _, o => o.ofOperationLimiter
  | hintQuota _, o | hintReserve _ _, o | importQuota _ _, o | importReserve _ _, o => o.ofQuota
  | hydrating _ none _, o =>
    match o with
    | .go => true
    | _ => false
  | hydrating _ (some problemId) _, o => o.ofDetail problemId
  | selecting _ problemId, o | importLoad _ problemId, o => o.ofDetail problemId
  | hintProblem _ problemId, o | revealing _ problemId, o => o.ofProblem problemId
  | executionCases _ _ problemId, o =>
    match o with
    | .cases rows => rows.all fun row => row.problemId = problemId
    | .failed _ => true
    | _ => false
  | executionRest _ _ problemId _, o =>
    match o with
    | .resources (some boilerplate) (some problem) =>
      boilerplate.problemId = problemId && problem.id = problemId
    | .resources _ _ | .failed _ => true
    | _ => false
  | executionReserve _ _, o =>
    match o with
    | .granted _ | .answer false | .failed _ => true
    | _ => false
  | executionJudge0 _ _ _, o =>
    match o with
    | .response _ | .failed _ => true
    | _ => false
  | hintStored d, o =>
    match o with
    | .hint found => found.all fun hint => d.problemId = some hint.problemId
    | .failed _ => true
    | _ => false
  | hintStream _ _ _ closing, o =>
    match o with
    | .chunk _ => !closing
    | .streamEnd | .failed _ => true
    | _ => false
  | importScrape _ _, o =>
    match o with
    | .imported _ | .failed _ => true
    | _ => false
  | addingTestCase _ _ problemId, o =>
    match o with
    | .boilerplate found => found.all fun boilerplate => boilerplate.problemId = problemId
    | .failed _ => true
    | _ => false

/-- How much of a handler may still be to run; a stream has its texts to come before its end. -/
def Task.remaining (cfg : Config) : Task → ℕ
  | hydrating _ _ _ | executionSettling _ _ _ | hintFailing _ _ | importFailing _ _ | selecting _ _
  | importLoad _ _ | addingTestCase _ _ _ | revealing _ _ => 1
  | joinLimiter _ _ | executionJudge0 _ _ _ | importScrape _ _ => 2
  | executionReserve _ _ | importReserve _ _ => 3
  | executionLimiter _ _ | importLimiter _ _ => 4
  | executionRest _ _ _ _ | importQuota _ _ => 5
  | executionCases _ _ _ | importIpLimiter _ _ => 6
  | executionIpLimiter _ => 7
  | hintStream _ _ generated closing => if closing then 1 else cfg.maxLLMHintChars * 2 - generated.length + 2
  | hintReserve _ _ => cfg.maxLLMHintChars * 2 + 3
  | hintLimiter _ _ => cfg.maxLLMHintChars * 2 + 4
  | hintProblem _ _ => cfg.maxLLMHintChars * 2 + 5
  | hintQuota _ => cfg.maxLLMHintChars * 2 + 6
  | hintIpLimiter _ => cfg.maxLLMHintChars * 2 + 7
  | hintStored _ => cfg.maxLLMHintChars * 2 + 8
  | admitted _ _ _ => cfg.maxLLMHintChars * 2 + 9

/-- What an event can cost: only received ones start handlers. -/
def ServerEvent.price (cfg : Config) : ServerEvent → ℕ
  | receive _ _ => cfg.maxLLMHintChars * 2 + 9
  | _ => 0

/-! ## No handler is stuck -/

section
variable {cfg : Config} {s : Server} {o : Outcome} {x : Execution} {d : Delivery} {p : ProblemId}
  {socket : SocketId} {url : JsString}

theorem afterHydration_isSome (problemId : Option ProblemId) (announced : Option RoomUser) :
    (afterHydration cfg s socket problemId announced o).isSome =
      (Task.hydrating socket problemId announced).awaits o := by
  cases problemId with
  | none => cases o <;> try rfl
            rename_i found
            cases found <;> rfl
  | some p =>
    cases o <;> try rfl
    rename_i found
    cases found with
    | none => rfl
    | some detail =>
      by_cases h : detail.id = p
      · simp [afterHydration, Task.awaits, Outcome.ofDetail, h]
      · simp [afterHydration, Task.awaits, Outcome.ofDetail, h, Ne.symm h]

theorem afterExecutionIpLimiter_isSome (hproblem : s.room.problemId ≠ none) :
    (afterExecutionIpLimiter cfg s x o).isSome = o.ofRateLimiter := by
  obtain ⟨p, hp⟩ := Option.ne_none_iff_exists'.mp hproblem
  cases o <;> try rfl
  simp only [afterExecutionIpLimiter, Outcome.ofRateLimiter]
  rw [hp]
  cases s.room.canExecute <;> rfl

theorem afterExecutionCases_isSome {code : JsString} (hproblem : s.room.problemId ≠ none) :
    (afterExecutionCases s x code p o).isSome = (Task.executionCases x code p).awaits o := by
  obtain ⟨q, hq⟩ := Option.ne_none_iff_exists'.mp hproblem
  cases o <;> try rfl
  rename_i rows
  simp only [afterExecutionCases, Task.awaits]
  rw [hq]
  split_ifs with hrows
  · rw [hrows]
    cases x.executionType <;> rfl
  · simpa using hrows

theorem afterExecutionRest_isSome {code : JsString} {testCases : List TestCase} :
    (afterExecutionRest cfg s x code p testCases o).isSome =
      (Task.executionRest x code p testCases).awaits o := by
  cases o <;> try rfl
  rename_i boilerplate problem
  cases boilerplate <;> cases problem <;> try rfl
  simp only [afterExecutionRest, Task.awaits]
  split_ifs with hboth hlimiter
  · simp [hboth]
  · simp [hboth]
  · simpa using hboth

theorem afterExecutionReserve_isSome {loaded : LoadedExecutionResources} :
    (afterExecutionReserve s x loaded o).isSome = (Task.executionReserve x loaded).awaits o := by
  cases o <;> try rfl
  rename_i yes
  cases yes <;> rfl

theorem afterExecutionJudge0_isSome {loaded : LoadedExecutionResources} {nonce : JsString} :
    (afterExecutionJudge0 cfg s x loaded nonce o).isSome =
      (Task.executionJudge0 x loaded nonce).awaits o := by
  cases o <;> try rfl
  simp only [afterExecutionJudge0, Task.awaits]
  split
  · rfl
  · split <;> rfl

theorem afterStoredHint_isSome :
    (afterStoredHint cfg s d o).isSome = (Task.hintStored d).awaits o := by
  cases o <;> try rfl
  rename_i found
  cases found with
  | none => rfl
  | some hint =>
    simp only [afterStoredHint, Task.awaits, Option.all_some]
    split_ifs with h <;> simp [h]

theorem afterHintQuota_isSome (hproblem : s.room.problemId ≠ none) :
    (afterHintQuota cfg s d o).isSome = o.ofQuota := by
  obtain ⟨q, hq⟩ := Option.ne_none_iff_exists'.mp hproblem
  cases o <;> try rfl
  rename_i yes
  cases yes with
  | false => rfl
  | true =>
    simp only [afterHintQuota, Outcome.ofQuota]
    rw [hq]
    split_ifs <;> rfl

theorem afterHintProblem_isSome : (afterHintProblem cfg s d p o).isSome = o.ofProblem p := by
  cases o <;> try rfl
  rename_i found
  cases found with
  | none => rfl
  | some problem =>
    simp only [afterHintProblem, Outcome.ofProblem, Option.all_some]
    split_ifs with h <;> simp_all

theorem afterHintStream_isSome {prompt : HintPrompt} {generated : JsString} {closing : Bool} :
    (afterHintStream cfg s d prompt generated closing o).isSome =
      (Task.hintStream d prompt generated closing).awaits o := by
  cases o <;> try rfl
  cases closing <;> rfl

theorem afterSelecting_isSome : (afterSelecting cfg s socket p o).isSome = o.ofDetail p := by
  cases o <;> try rfl
  rename_i found
  cases found with
  | none => rfl
  | some detail =>
    simp only [afterSelecting, Outcome.ofDetail, Option.all_some]
    split_ifs with h <;> simp [h]

theorem afterImportIpLimiter_isSome :
    (afterImportIpLimiter s socket url o).isSome = o.ofRateLimiter := by
  cases o <;> try rfl
  simp only [afterImportIpLimiter, Outcome.ofRateLimiter]
  split_ifs <;> rfl

theorem afterImportQuota_isSome : (afterImportQuota cfg s socket url o).isSome = o.ofQuota := by
  cases o <;> try rfl
  rename_i yes
  cases yes with
  | false => rfl
  | true =>
    simp only [afterImportQuota, Outcome.ofQuota]
    split_ifs <;> rfl

theorem afterImportLoad_isSome : (afterImportLoad cfg s socket p o).isSome = o.ofDetail p := by
  cases o <;> try rfl
  rename_i found
  cases found with
  | none => rfl
  | some detail =>
    simp only [afterImportLoad, Outcome.ofDetail, Option.all_some]
    split_ifs with h <;> simp [h]

theorem afterAddingTestCase_isSome {testCase : CustomTestCase} :
    (afterAddingTestCase s socket testCase p o).isSome =
      (Task.addingTestCase socket testCase p).awaits o := by
  cases o <;> try rfl
  rename_i found
  simp only [afterAddingTestCase, Task.awaits]
  split_ifs with hother hmatch hfull <;> cases found <;> simp_all

theorem afterRevealing_isSome : (afterRevealing cfg s socket p o).isSome = o.ofProblem p := by
  cases o <;> try rfl
  rename_i found
  cases found with
  | none => rfl
  | some problem =>
    simp only [afterRevealing, Outcome.ofProblem, Option.all_some]
    split_ifs with h
    · simpa using h
    · split <;> simp_all

/-- The handlers that only ever wait in a room with a problem. -/
def Task.needsProblem (task : Task) : Bool :=
  decide (task.family = .execution) || decide (task.family = .hint)

/-- **A suspended handler goes on with exactly the answers it waits for.** -/
theorem resume_isSome (cfg : Config) (o : Outcome) {task : Task}
    (hproblem : task.needsProblem = true → s.room.problemId ≠ none) :
    (resumeTask cfg s task o).isSome = task.awaits o := by
  cases task with
  | admitted => cases o <;> rfl
  | joinLimiter => cases o <;> rfl
  | hydrating => exact afterHydration_isSome _ _
  | executionIpLimiter => exact afterExecutionIpLimiter_isSome (hproblem rfl)
  | executionCases => exact afterExecutionCases_isSome (hproblem rfl)
  | executionRest => exact afterExecutionRest_isSome
  | executionLimiter => cases o <;> rfl
  | executionReserve => exact afterExecutionReserve_isSome
  | executionJudge0 => exact afterExecutionJudge0_isSome
  | executionSettling => cases o <;> rfl
  | hintStored => exact afterStoredHint_isSome
  | hintIpLimiter => cases o <;> rfl
  | hintQuota => exact afterHintQuota_isSome (hproblem rfl)
  | hintProblem => exact afterHintProblem_isSome
  | hintLimiter => cases o <;> rfl
  | hintReserve =>
    cases o <;> try rfl
    rename_i yes
    cases yes <;> rfl
  | hintStream => exact afterHintStream_isSome
  | hintFailing => cases o <;> rfl
  | selecting => exact afterSelecting_isSome
  | importIpLimiter => exact afterImportIpLimiter_isSome
  | importQuota => exact afterImportQuota_isSome
  | importLimiter => cases o <;> rfl
  | importReserve =>
    cases o <;> try rfl
    rename_i yes
    cases yes <;> rfl
  | importScrape => cases o <;> rfl
  | importLoad => exact afterImportLoad_isSome
  | importFailing => cases o <;> rfl
  | addingTestCase => exact afterAddingTestCase_isSome
  | revealing => exact afterRevealing_isSome

end

/-! ## Every segment brings its handler nearer to its end -/

/-- A segment leaves at most one task behind, and at most so much of it. -/
def LeavesWork (cfg : Config) (bound : ℕ) (g : Step) : Prop :=
  g.next = [] ∨ ∃ task, g.next = [task] ∧ task.remaining cfg ≤ bound

section
variable {cfg : Config} {s : Server} {o : Outcome} {g : Step} {x : Execution} {d : Delivery}
  {p : ProblemId} {socket : SocketId} {url : JsString} {prompt : HintPrompt} {bound : ℕ}

theorem LeavesWork.workload_le (h : LeavesWork cfg bound g) : workload (Task.remaining cfg) g.next ≤ bound := by
  rcases h with hnone | ⟨task, hnext, htask⟩
  · rw [hnone]
    exact Nat.zero_le _
  · rw [hnext, workload_singleton]
    exact htask

theorem LeavesWork.mono {bound' : ℕ} (h : LeavesWork cfg bound g) (hle : bound ≤ bound') :
    LeavesWork cfg bound' g := by
  rcases h with hnone | ⟨task, hnext, htask⟩
  · exact .inl hnone
  · exact .inr ⟨task, hnext, htask.trans hle⟩

/-! ### Joins -/

theorem takeSeat_leaves {payload : UserJoinPayload} : LeavesWork cfg 1 (takeSeat s socket payload) := by
  unfold takeSeat
  split
  · exact .inr ⟨_, rfl, Nat.le_refl 1⟩
  · split_ifs
    · exact .inl (disconnectSocket_continues _ _).next
    · exact .inr ⟨_, rfl, Nat.le_refl 1⟩

theorem afterJoinLimiter_leaves {payload : UserJoinPayload}
    (h : afterJoinLimiter s socket payload o = some g) : LeavesWork cfg 1 g := by
  unfold afterJoinLimiter at h
  split at h <;> cases h
  · exact takeSeat_leaves
  · exact .inl rfl
  · exact .inl rfl

theorem announcement_suspends_nothing (g : Step) (announced : Option RoomUser) :
    (emitPresenceBroadcast g socket announced).next = g.next := by
  cases announced <;> rfl

theorem afterHydration_leaves {problemId : Option ProblemId} {announced : Option RoomUser}
    (h : afterHydration cfg s socket problemId announced o = some g) : LeavesWork cfg 0 g := by
  unfold afterHydration at h
  split at h
  · split_ifs at h
    cases h
    exact .inl (announcement_suspends_nothing _ _)
  · split_ifs at h
    cases h
    exact .inl (announcement_suspends_nothing _ _)
  · split_ifs at h
    cases h
    exact .inl (announcement_suspends_nothing _ _)
  · split_ifs at h
    cases h
    exact .inl (announcement_suspends_nothing _ _)
  · cases h

/-! ### Executions -/

theorem startExecution_leaves : LeavesWork cfg 6 (startExecution cfg s x p) := by
  unfold startExecution
  dsimp only
  split_ifs
  · exact .inr ⟨_, rfl, Nat.le_refl 6⟩
  · exact .inr ⟨_, rfl, by simp [Task.remaining]⟩

theorem afterExecutionIpLimiter_leaves (h : afterExecutionIpLimiter cfg s x o = some g) :
    LeavesWork cfg 6 g := by
  unfold afterExecutionIpLimiter at h
  split at h
  · split at h <;> cases h
    · exact .inl rfl
    · exact startExecution_leaves
  · cases h; exact .inl rfl
  · cases h; exact .inl rfl
  · cases h

theorem afterExecutionCases_leaves {code : JsString} (h : afterExecutionCases s x code p o = some g) :
    LeavesWork cfg 5 g := by
  unfold afterExecutionCases at h
  split at h
  · split_ifs at h
    split at h <;> cases h <;> exact .inr ⟨_, rfl, Nat.le_refl 5⟩
  · cases h; exact .inr ⟨_, rfl, by simp [Task.remaining]⟩
  · cases h

theorem afterExecutionRest_leaves {code : JsString} {testCases : List TestCase}
    (h : afterExecutionRest cfg s x code p testCases o = some g) : LeavesWork cfg 4 g := by
  unfold afterExecutionRest at h
  split at h
  · split_ifs at h <;> cases h <;> exact .inr ⟨_, rfl, by simp [Task.remaining]⟩
  · cases h; exact .inr ⟨_, rfl, by simp [Task.remaining]⟩
  · cases h; exact .inr ⟨_, rfl, by simp [Task.remaining]⟩
  · cases h

theorem afterExecutionLimiter_leaves {loaded : LoadedExecutionResources}
    (h : afterExecutionLimiter s x loaded o = some g) : LeavesWork cfg 3 g := by
  unfold afterExecutionLimiter at h
  split at h <;> cases h <;> exact .inr ⟨_, rfl, by simp [Task.remaining]⟩

theorem afterExecutionReserve_leaves {loaded : LoadedExecutionResources}
    (h : afterExecutionReserve s x loaded o = some g) : LeavesWork cfg 2 g := by
  unfold afterExecutionReserve at h
  split at h <;> cases h <;> exact .inr ⟨_, rfl, by simp [Task.remaining]⟩

theorem afterExecutionJudge0_leaves {loaded : LoadedExecutionResources} {nonce : JsString}
    (h : afterExecutionJudge0 cfg s x loaded nonce o = some g) : LeavesWork cfg 1 g := by
  unfold afterExecutionJudge0 at h
  split at h
  · split at h
    · cases h; exact .inr ⟨_, rfl, Nat.le_refl 1⟩
    · split at h <;> cases h <;> exact .inr ⟨_, rfl, Nat.le_refl 1⟩
  · cases h; exact .inr ⟨_, rfl, Nat.le_refl 1⟩
  · cases h

/-! ### Hints -/

theorem prepareLLMHintRequest_leaves :
    LeavesWork cfg (cfg.maxLLMHintChars * 2 + 7) (prepareLLMHintRequest cfg s d) := by
  unfold prepareLLMHintRequest
  split_ifs
  · exact .inl rfl
  · exact .inl rfl
  · exact .inr ⟨_, rfl, Nat.le_refl _⟩

theorem afterHintFailure_next (s : Server) (d : Delivery) (reason : Failure) :
    (afterHintFailure s d reason).next = [] := by
  cases reason <;> rfl

theorem afterStoredHint_leaves (h : afterStoredHint cfg s d o = some g) :
    LeavesWork cfg (cfg.maxLLMHintChars * 2 + 7) g := by
  unfold afterStoredHint at h
  split at h
  · split_ifs at h
    cases h
    exact .inl rfl
  · cases h; exact prepareLLMHintRequest_leaves
  · cases h; exact .inl (afterHintFailure_next s d _)
  · cases h

theorem afterHintIpLimiter_leaves (h : afterHintIpLimiter s d o = some g) :
    LeavesWork cfg (cfg.maxLLMHintChars * 2 + 6) g := by
  unfold afterHintIpLimiter at h
  split at h <;> cases h
  · exact .inr ⟨_, rfl, Nat.le_refl _⟩
  · exact .inl rfl
  · exact .inr ⟨_, rfl, by simp [Task.remaining]⟩

theorem afterHintQuota_leaves (h : afterHintQuota cfg s d o = some g) :
    LeavesWork cfg (cfg.maxLLMHintChars * 2 + 5) g := by
  unfold afterHintQuota at h
  split at h
  · split_ifs at h
    · cases h; exact .inl rfl
    · split at h <;> cases h
      exact .inr ⟨_, rfl, Nat.le_refl _⟩
  · cases h; exact .inl rfl
  · cases h; exact .inr ⟨_, rfl, by simp [Task.remaining]⟩
  · cases h

theorem afterHintProblem_leaves (h : afterHintProblem cfg s d p o = some g) :
    LeavesWork cfg (cfg.maxLLMHintChars * 2 + 4) g := by
  unfold afterHintProblem at h
  split at h
  · split_ifs at h <;> cases h
    · exact .inl rfl
    · exact .inr ⟨_, rfl, Nat.le_refl _⟩
    · exact .inr ⟨_, rfl, by simp [Task.remaining]⟩
  · cases h; exact .inl rfl
  · cases h; exact .inr ⟨_, rfl, by simp [Task.remaining]⟩
  · cases h

theorem afterHintLimiter_leaves (h : afterHintLimiter s d prompt o = some g) :
    LeavesWork cfg (cfg.maxLLMHintChars * 2 + 3) g := by
  unfold afterHintLimiter at h
  split at h <;> cases h
  · exact .inr ⟨_, rfl, Nat.le_refl _⟩
  · exact .inr ⟨_, rfl, by simp [Task.remaining]⟩

theorem afterHintReserve_leaves (h : afterHintReserve s d prompt o = some g) :
    LeavesWork cfg (cfg.maxLLMHintChars * 2 + 2) g := by
  unfold afterHintReserve at h
  split at h <;> cases h
  · exact .inr ⟨_, rfl, by simp [Task.remaining]⟩
  · exact .inl rfl
  · exact .inr ⟨_, rfl, by simp [Task.remaining]⟩

/-- Too much text closes a stream, and less brings its end nearer. -/
theorem afterHintStream_leaves {generated : JsString} {closing : Bool} (ho : o.Nonempty)
    (h : afterHintStream cfg s d prompt generated closing o = some g) :
    LeavesWork cfg ((Task.hintStream d prompt generated closing).remaining cfg - 1) g := by
  unfold afterHintStream at h
  split at h
  · rename_i text
    split_ifs at h with hclosing
    cases h
    obtain rfl : closing = false := by simpa using hclosing
    have hlength : 0 < text.length := List.length_pos_iff.mpr ho
    refine .inr ⟨_, rfl, ?_⟩
    simp only [Task.remaining, List.length_append, decide_eq_true_eq, Bool.false_eq_true, if_false]
    split_ifs <;> omega
  · cases h
    unfold finishHintStream
    split <;> exact .inl rfl
  · cases h; exact .inl rfl
  · cases h

/-! ### Problems, test cases and solutions -/

theorem afterSelecting_leaves (h : afterSelecting cfg s socket p o = some g) : LeavesWork cfg 0 g := by
  unfold afterSelecting at h
  split at h
  · split_ifs at h
    cases h
    exact .inl rfl
  · cases h; exact .inl rfl
  · cases h; exact .inl rfl
  · cases h

theorem afterImportIpLimiter_leaves (h : afterImportIpLimiter s socket url o = some g) :
    LeavesWork cfg 5 g := by
  unfold afterImportIpLimiter at h
  split at h
  · split_ifs at h <;> cases h
    · exact .inl rfl
    · exact .inr ⟨_, rfl, Nat.le_refl 5⟩
  · cases h; exact .inl rfl
  · cases h; exact .inl rfl
  · cases h

theorem afterImportQuota_leaves (h : afterImportQuota cfg s socket url o = some g) :
    LeavesWork cfg 4 g := by
  unfold afterImportQuota at h
  split at h
  · dsimp only at h
    split_ifs at h <;> cases h <;> exact .inr ⟨_, rfl, by simp [Task.remaining]⟩
  · cases h; exact .inl rfl
  · cases h; exact .inl rfl
  · cases h

theorem afterImportLimiter_leaves (h : afterImportLimiter s socket url o = some g) :
    LeavesWork cfg 3 g := by
  unfold afterImportLimiter at h
  split at h <;> cases h <;> exact .inr ⟨_, rfl, by simp [Task.remaining]⟩

theorem afterImportReserve_leaves (h : afterImportReserve s socket url o = some g) :
    LeavesWork cfg 2 g := by
  unfold afterImportReserve at h
  split at h <;> cases h
  · exact .inr ⟨_, rfl, Nat.le_refl 2⟩
  · exact .inl rfl
  · exact .inr ⟨_, rfl, by simp [Task.remaining]⟩

theorem afterImportScrape_leaves (h : afterImportScrape s socket o = some g) : LeavesWork cfg 1 g := by
  unfold afterImportScrape at h
  split at h <;> cases h <;> exact .inr ⟨_, rfl, Nat.le_refl 1⟩

theorem afterImportFailure_next (s : Server) (socket : SocketId) (reason : Failure) :
    (afterImportFailure s socket reason).next = [] := by
  cases reason <;> rfl

theorem afterImportLoad_leaves (h : afterImportLoad cfg s socket p o = some g) : LeavesWork cfg 0 g := by
  unfold afterImportLoad at h
  split at h
  · split_ifs at h
    cases h
    exact .inl rfl
  · cases h; exact .inl rfl
  · cases h; exact .inl (afterImportFailure_next s socket _)
  · cases h

theorem afterAddingTestCase_leaves {testCase : CustomTestCase}
    (h : afterAddingTestCase s socket testCase p o = some g) : LeavesWork cfg 0 g := by
  rcases afterAddingTestCase_cases h with ⟨_, -, rfl⟩ | ⟨_, -, -, rfl⟩ <;> exact .inl rfl

theorem afterRevealing_leaves (h : afterRevealing cfg s socket p o = some g) : LeavesWork cfg 0 g := by
  unfold afterRevealing at h
  split at h
  · split_ifs at h
    split at h <;> cases h <;> exact .inl rfl
  · cases h; exact .inl rfl
  · cases h; exact .inl rfl
  · cases h

/-! ### Admitted events -/

theorem handleUserJoin_leaves {payload : Option UserJoinPayload} :
    LeavesWork cfg 2 (handleUserJoin s socket payload) := by
  unfold handleUserJoin
  split
  · exact .inl rfl
  · split
    · exact .inl rfl
    · split
      · exact .inr ⟨_, rfl, by simp [Task.remaining]⟩
      · exact .inr ⟨_, rfl, Nat.le_refl 2⟩

theorem handleHintRequest_leaves :
    LeavesWork cfg (cfg.maxLLMHintChars * 2 + 8) (handleHintRequest cfg s socket) := by
  unfold handleHintRequest
  split
  · exact .inl rfl
  · split_ifs
    · exact .inr ⟨_, rfl, Nat.le_refl _⟩
    · exact .inl (sendPendingHintRequest_continues cfg _ socket).next

theorem handleHintApprove_leaves {seen : Option SeenRequest} :
    LeavesWork cfg (cfg.maxLLMHintChars * 2 + 8) (handleHintApprove s socket seen) := by
  unfold handleHintApprove
  split
  · exact .inl rfl
  · exact .inr ⟨_, rfl, Nat.le_refl _⟩

theorem handleHintDeny_next (s : Server) : (handleHintDeny s).next = [] := by
  unfold handleHintDeny
  split
  · rfl
  · exact (denyPendingHintRequest_spec _ _).2.1

theorem createExecutionSession_leaves {executionType : ExecutionType} :
    LeavesWork cfg 7 (createExecutionSession s socket executionType) := by
  unfold createExecutionSession
  split
  · exact .inl rfl
  · split_ifs
    · exact .inl rfl
    · exact .inr ⟨_, rfl, Nat.le_refl 7⟩

theorem handleProblemImport_leaves {leetcodeUrl : Option JsString} :
    LeavesWork cfg 6 (handleProblemImport cfg s socket leetcodeUrl) := by
  unfold handleProblemImport
  split
  · exact .inl rfl
  · split_ifs
    · exact .inl rfl
    · split
      · exact .inl rfl
      · exact .inr ⟨_, rfl, Nat.le_refl 6⟩

theorem handleProblemSelect_leaves {problemId : Option ProblemId} :
    LeavesWork cfg 1 (handleProblemSelect s socket problemId) := by
  unfold handleProblemSelect
  split
  · exact .inl rfl
  · exact .inl rfl
  · exact .inr ⟨_, rfl, Nat.le_refl 1⟩

theorem handleSolutionReveal_leaves : LeavesWork cfg 1 (handleSolutionReveal s socket) := by
  unfold handleSolutionReveal
  split
  · exact .inl rfl
  · split_ifs
    · exact .inl rfl
    · split
      · exact .inl rfl
      · exact .inr ⟨_, rfl, Nat.le_refl 1⟩

theorem handleTestcaseAdd_leaves {data : Option CustomTestCase} :
    LeavesWork cfg 1 (handleTestcaseAdd s socket data) := by
  rcases handleTestcaseAdd_cases s socket data with ⟨-, h⟩ | ⟨_, h⟩ | ⟨_, _, -, h⟩ <;> rw [h]
  · exact .inl rfl
  · exact .inl rfl
  · exact .inr ⟨_, rfl, Nat.le_refl 1⟩

theorem runHandler_leaves {seen : Option SeenRequest} {event : ClientEvent} :
    LeavesWork cfg (cfg.maxLLMHintChars * 2 + 8) (runHandler cfg s socket seen event) := by
  unfold runHandler
  split
  · exact .inl rfl
  · cases event with
    | userJoin payload => exact handleUserJoin_leaves.mono (by omega)
    | problemSelect id => exact handleProblemSelect_leaves.mono (by omega)
    | problemImport url => exact handleProblemImport_leaves.mono (by omega)
    | codeRun => exact createExecutionSession_leaves.mono (by omega)
    | codeSubmit => exact createExecutionSession_leaves.mono (by omega)
    | hintRequest =>
      dsimp only
      split_ifs
      · exact handleHintRequest_leaves
      · exact .inl rfl
    | hintApprove =>
      dsimp only
      split_ifs
      · exact handleHintApprove_leaves
      · exact .inl rfl
    | hintDeny =>
      dsimp only
      split_ifs
      · exact .inl (handleHintDeny_next s)
      · exact .inl rfl
    | solutionReveal => exact handleSolutionReveal_leaves.mono (by omega)
    | testcaseAdd testCase => exact handleTestcaseAdd_leaves.mono (by omega)

end

/-! ## Every segment -/

section
variable {cfg : Config} {s : Server} {o : Outcome} {g : Step}

theorem Task.remaining_pos (cfg : Config) (task : Task) : 0 < task.remaining cfg := by
  cases task with
  | hintStream _ _ _ closing => cases closing <;> simp [Task.remaining]
  | _ => simp [Task.remaining]

/-- What a segment leaves weighs less than the task that it took. -/
theorem resume_leaves {task : Task} (ho : o.Nonempty) (h : resumeTask cfg s task o = some g) :
    LeavesWork cfg (task.remaining cfg - 1) g := by
  cases task with
  | admitted socket event seen =>
    cases o <;> cases h
    exact runHandler_leaves.mono (by simp [Task.remaining])
  | joinLimiter => exact (afterJoinLimiter_leaves h).mono (by simp [Task.remaining])
  | hydrating => exact (afterHydration_leaves h).mono (by simp [Task.remaining])
  | executionIpLimiter => exact (afterExecutionIpLimiter_leaves h).mono (by simp [Task.remaining])
  | executionCases => exact (afterExecutionCases_leaves h).mono (by simp [Task.remaining])
  | executionRest => exact (afterExecutionRest_leaves h).mono (by simp [Task.remaining])
  | executionLimiter => exact (afterExecutionLimiter_leaves h).mono (by simp [Task.remaining])
  | executionReserve => exact (afterExecutionReserve_leaves h).mono (by simp [Task.remaining])
  | executionJudge0 => exact (afterExecutionJudge0_leaves h).mono (by simp [Task.remaining])
  | executionSettling x reserved failure =>
    cases o <;> cases h
    exact .inl (by cases failure <;> rfl)
  | hintStored => exact (afterStoredHint_leaves h).mono (by simp [Task.remaining])
  | hintIpLimiter => exact (afterHintIpLimiter_leaves h).mono (by simp [Task.remaining])
  | hintQuota => exact (afterHintQuota_leaves h).mono (by simp [Task.remaining])
  | hintProblem => exact (afterHintProblem_leaves h).mono (by simp [Task.remaining])
  | hintLimiter => exact (afterHintLimiter_leaves h).mono (by simp [Task.remaining])
  | hintReserve => exact (afterHintReserve_leaves h).mono (by simp [Task.remaining])
  | hintStream => exact afterHintStream_leaves ho h
  | hintFailing d reason =>
    cases o <;> cases h
    exact .inl (afterHintFailure_next s d reason)
  | selecting => exact (afterSelecting_leaves h).mono (by simp [Task.remaining])
  | importIpLimiter => exact (afterImportIpLimiter_leaves h).mono (by simp [Task.remaining])
  | importQuota => exact (afterImportQuota_leaves h).mono (by simp [Task.remaining])
  | importLimiter => exact (afterImportLimiter_leaves h).mono (by simp [Task.remaining])
  | importReserve => exact (afterImportReserve_leaves h).mono (by simp [Task.remaining])
  | importScrape => exact (afterImportScrape_leaves h).mono (by simp [Task.remaining])
  | importLoad => exact (afterImportLoad_leaves h).mono (by simp [Task.remaining])
  | importFailing socket reason =>
    cases o <;> cases h
    exact .inl (afterImportFailure_next s socket reason)
  | addingTestCase => exact (afterAddingTestCase_leaves h).mono (by simp [Task.remaining])
  | revealing => exact (afterRevealing_leaves h).mono (by simp [Task.remaining])

theorem resume_lighter {task : Task} (ho : o.Nonempty) (h : resumeTask cfg s task o = some g) :
    workload (Task.remaining cfg) g.next < task.remaining cfg := by
  have hle := (resume_leaves ho h).workload_le
  have hpos := task.remaining_pos cfg
  omega

theorem authMiddleware_leaves {socket : SocketId} {event : ClientEvent} :
    LeavesWork cfg (cfg.maxLLMHintChars * 2 + 9) (authMiddleware s socket event) := by
  rcases authMiddleware_next s socket event with hnone | ⟨_, -, hnext⟩ | ⟨_, -, -, -, hnext⟩
  · exact .inl hnone
  · exact .inr ⟨_, hnext, Nat.le_refl _⟩
  · exact .inr ⟨_, hnext, Nat.le_refl _⟩

theorem handleEvent_price {e : ServerEvent} (h : handleEvent cfg s e = some g) :
    workload (Task.remaining cfg) g.next ≤ e.price cfg := by
  rcases handleEvent_next h with hnone | ⟨socket, event, rfl, rfl⟩
  · rw [hnone]
    exact Nat.zero_le _
  · exact authMiddleware_leaves.workload_le

/-- **Every segment brings its handler nearer to its end.** -/
theorem server_drains (cfg : Config) :
    (server cfg).Drains (Task.remaining cfg) (ServerEvent.price cfg) Outcome.Nonempty where
  event _ _ _ h := handleEvent_price h
  resume _ _ _ _ ho h := resume_lighter ho h

/-- Every await has an answer, and one that is no empty text. -/
theorem Task.exists_awaits (task : Task) : ∃ o, task.awaits o = true ∧ o.Nonempty := by
  cases task with
  | admitted => exact ⟨.go, rfl, trivial⟩
  | executionSettling => exact ⟨.go, rfl, trivial⟩
  | hintFailing => exact ⟨.go, rfl, trivial⟩
  | importFailing => exact ⟨.go, rfl, trivial⟩
  | hydrating _ problemId _ =>
    cases problemId with
    | none => exact ⟨.go, rfl, trivial⟩
    | some p => exact ⟨.failed .other, rfl, trivial⟩
  | _ => exact ⟨.failed .other, rfl, trivial⟩

end

end CodeShare
