import CodeShare.Properties.ProblemStability
import CodeShare.Server.AnnouncementSteps

/-! # Custom test cases and the current problem

`testcase:add` reads the problem before it waits for the boilerplate, and appends behind the wait. A
switch empties the list in between. The room holds, announces and executes only cases of its problem
exactly when none is stored after its problem has gone.
-/

namespace CodeShare
open Tasks
set_option autoImplicit false

/-- A custom test case is stored only under the problem it was checked against. -/
def StoresForCurrent (c : ServerConf) (t : ServerTrigger) : Prop :=
  ∀ testCase, stores c.shared t = some testCase →
    c.shared.room.problemId = some testCase.checkedFor

instance (c : ServerConf) (t : ServerTrigger) : Decidable (StoresForCurrent c t) :=
  decidable_of_iff (∀ testCase ∈ stores c.shared t,
    c.shared.room.problemId = some testCase.checkedFor) Iff.rfl

/-- The boilerplates of the problems, as `testcase:add` looks them up. -/
def AnswersFrom (boilerplates : ProblemId → Option BoilerplateTemplate) (_ : ServerConf) :
    ServerTrigger → Prop
  | .task (.addingTestCase _ _ problemId) (.boilerplate found) => found = boilerplates problemId
  | _ => True

instance (boilerplates : ProblemId → Option BoilerplateTemplate) (c : ServerConf) (t : ServerTrigger) :
    Decidable (AnswersFrom boilerplates c t) := by
  unfold AnswersFrom
  split <;> infer_instance

/-- The custom test cases of the room are checked against the parameters of its problem. -/
def CasesCurrent (boilerplates : ProblemId → Option BoilerplateTemplate) (c : ServerConf) : Prop :=
  ∀ testCase ∈ c.shared.room.customTestCases, c.shared.room.problemId = some testCase.checkedFor ∧
    ∀ boilerplate, boilerplates testCase.checkedFor = some boilerplate →
      matchesParameters testCase.toCustomTestCase (some boilerplate) = true

/-- The custom test cases that a segment announces or executes are those of the room's problem. -/
structure UsesCurrent (turn : ServerTurn) : Prop where
  announced : ∀ k testCase, .testcaseAdded testCase ∈ messagesTo k turn.out →
    ∃ stored ∈ turn.after.shared.room.customTestCases, stored.toCustomTestCase = testCase ∧
      turn.after.shared.room.problemId = some stored.checkedFor
  executed : ∀ p testCases, Effect.customCasesLoaded p testCases ∈ turn.out →
    ∀ testCase ∈ testCases, turn.before.shared.room.problemId = some testCase.checkedFor

/-! ## One step -/

section
variable {boilerplates : ProblemId → Option BoilerplateTemplate} {cfg : Config} {c c' : ServerConf}
  {out : List Effect} {s : Server} {t : ServerTrigger} {g : Step} {rest : List Task}

theorem stores_of_loads {p : ProblemId} (h : loads t = some p) : stores s t = none := by
  unfold loads at h
  split at h
  · rfl
  · rfl
  · cases h

theorem stores_matches {testCase : StoredTestCase} (hanswers : AnswersFrom boilerplates c t)
    (h : stores s t = some testCase) :
    matchesParameters testCase.toCustomTestCase (boilerplates testCase.checkedFor) = true := by
  unfold stores at h
  split at h
  · rename_i found
    split_ifs at h with hfits
    obtain rfl := Option.some.inj h
    have hfound : found = boilerplates _ := hanswers
    rw [← hfound]
    exact hfits.1
  · cases h

theorem casesCurrent_step (h : CasesCurrent boilerplates c) (hanswers : AnswersFrom boilerplates c t)
    (hby : (server cfg).StepBy c c' out t g rest) :
    StoresForCurrent c t ↔ CasesCurrent boilerplates c' := by
  unfold CasesCurrent
  rw [hby.shared]
  cases hload : loads t with
  | some p =>
    obtain ⟨hintLimit, importsUsed, hroom⟩ := (fire_switched hby.fire hload).room
    rw [hroom]
    refine iff_of_true (fun testCase hstores => ?_) nofun
    rw [stores_of_loads hload] at hstores
    cases hstores
  | none =>
    rw [fire_problemId hby.fire hload, customTestCases_step hby.fire hload]
    constructor
    · intro hcurrent testCase hm
      rcases List.mem_append.mp hm with hm | hm
      · exact h testCase hm
      · have hstores := Option.mem_toList.mp hm
        refine ⟨hcurrent testCase hstores, fun boilerplate hfound => ?_⟩
        rw [← hfound]
        exact stores_matches hanswers hstores
    · intro hall testCase hstores
      exact (hall testCase (List.mem_append_right _ (Option.mem_toList.mpr hstores))).1

/-- An announced test case has just been stored. -/
theorem announced_stored {k : SocketId} {testCase : CustomTestCase}
    (h : (server cfg).fire s t = some g) (hm : .testcaseAdded testCase ∈ messagesTo k g.out) :
    ∃ stored ∈ g.state.room.customTestCases, stored.toCustomTestCase = testCase := by
  cases fire_announces h with
  | quiet hview hout => cases hout k _ hm
  | connected hview hout => rw [hout] at hm; cases hm
  | replies hreplies hview =>
    cases hreplies with
    | silent _ _ _ hout => rw [hout] at hm; cases hm
    | refused _ _ _ _ _ _ _ hout => rw [hout] at hm; simp at hm
    | started _ _ _ _ _ _ _ hout => rw [hout] at hm; simp at hm
    | tooLong _ _ _ _ _ _ _ _ _ hout => rw [hout] at hm; simp at hm
    | replied _ _ reply _ _ _ _ _ hout =>
      rw [hout] at hm
      cases reply <;> simp [ExecutionReply.message] at hm
    | finished _ _ _ _ _ _ _ hout => rw [hout] at hm; simp at hm
  | hintRefused _ _ _ _ hout => rw [hout] at hm; simp at hm
  | hintDelivered _ _ _ _ _ hout => rw [hout] at hm; simp at hm
  | hintAsked _ _ _ _ hout => rw [hout] at hm; simp at hm
  | hintAnswered _ _ _ hout => rw [hout] at hm; simp at hm
  | loaded detail after _ hafter _ hout =>
    rw [hout] at hm
    rcases List.mem_append.mp hm with hm | hm
    · cases List.eq_of_mem_replicate hm
    · obtain ⟨m, hquiet, hm⟩ := List.mem_flatMap.mp hm
      rw [← List.eq_of_mem_replicate hm] at hquiet
      cases hafter _ hquiet
  | testCaseAdded stored hview hout =>
    rw [hout] at hm
    refine ⟨stored, ?_, ?_⟩
    · have hcases : g.state.room.customTestCases = s.room.customTestCases ++ [stored] :=
        congrArg RoomView.customTestCases hview
      rw [hcases]
      exact List.mem_append_right _ (List.mem_singleton_self stored)
    · exact (Message.testcaseAdded.inj (List.eq_of_mem_replicate hm)).symm
  | joined _ _ _ _ _ hanswers => rw [hanswers.out] at hm; simp [joinMessages] at hm
  | hydrated _ _ _ hends => rw [hends.out] at hm; simp [problemLoadedPayload] at hm
  | closed socket before _ _ hbefore _ hout =>
    rw [hout, List.mem_append, List.mem_append] at hm
    rcases hm with (hm | hm) | hm
    · cases hbefore k _ hm
    · simp at hm
    · split_ifs at hm <;> simp at hm
  | removed _ rotated _ _ hout => rw [hout] at hm; split_ifs at hm <;> simp at hm

end

/-! ## Runs -/

/-- The custom test cases of the room, of its announcements and of its executions belong to the current
problem exactly in the runs in which none is stored after its problem has gone. -/
theorem cases_current_iff {boilerplates : ProblemId → Option BoilerplateTemplate} {cfg : Config}
    {mode : RoomMode} {now : Time} {acts : List ServerAct} {c : ServerConf} {out : List Effect}
    (hanswers : Meeting cfg (AnswersFrom boilerplates) mode now acts)
    (hreach : Reaches cfg mode now acts c out) :
    ((server cfg).Always (CasesCurrent boilerplates) (initial cfg mode now) acts ∧
        ∀ turn ∈ (server cfg).history (initial cfg mode now) acts, UsesCurrent turn) ↔
      Meeting cfg StoresForCurrent mode now acts := by
  have hcases : Meeting cfg StoresForCurrent mode now acts ↔
      (server cfg).Always (CasesCurrent boilerplates) (initial cfg mode now) acts :=
    Machine.meets_iff_always
      (fun _ _ _ _ _ _ h hanswers hby => casesCurrent_step h hanswers hby) nofun hanswers hreach
  rw [hcases]
  refine and_iff_left_of_imp fun halways turn hm => ?_
  obtain ⟨g, rest, hby⟩ := Machine.history_by hm
  obtain ⟨hbefore, hafter⟩ := halways.of_mem hm
  constructor
  · intro k testCase hannounced
    rw [hby.out] at hannounced
    obtain ⟨stored, hstored, hcase⟩ := announced_stored hby.fire hannounced
    rw [← hby.shared] at hstored
    exact ⟨stored, hstored, hcase, (hafter stored hstored).1⟩
  · intro p testCases hread
    obtain ⟨rfl, -⟩ := customCasesLoaded_step hby hread
    exact fun testCase hcase => (hbefore testCase hcase).1

def exampleCustomCase : CustomTestCase where
  input := [(js "nums", .arr [])]
  expectedOutput := .null

/-- A test case is added to problem 7. -/
def exampleAdd : List ServerAct :=
  exampleJoin 0 .go ++ exampleSelect 0 7 ++
    [.event (.receive 0 (.testcaseAdd (some exampleCustomCase))), .resume 0 .go,
      .resume 0 (.boilerplate (some (exampleBoilerplate 7)))]

theorem cases_current_iff_example : ∃ c out,
    Reaches plainConfig .collaboration 0 exampleAdd c out ∧
    c.shared.room.customTestCases = [⟨exampleCustomCase, 7⟩] ∧
    (((server plainConfig).Always (CasesCurrent fun p => some (exampleBoilerplate p))
        (initial plainConfig .collaboration 0) exampleAdd ∧
      ∀ turn ∈ (server plainConfig).history (initial plainConfig .collaboration 0) exampleAdd,
        UsesCurrent turn) ↔
      Meeting plainConfig StoresForCurrent .collaboration 0 exampleAdd) := by
  obtain ⟨c, out, hreach, hcases⟩ : ∃ c out,
      Reaches plainConfig .collaboration 0 exampleAdd c out ∧
        c.shared.room.customTestCases = [⟨exampleCustomCase, 7⟩] := ⟨_, _, rfl, rfl⟩
  have hanswers : Meeting plainConfig (AnswersFrom fun p => some (exampleBoilerplate p))
      .collaboration 0 exampleAdd := by
    unfold Meeting
    decide
  exact ⟨c, out, hreach, hcases, cases_current_iff hanswers hreach⟩

/-- Problem 8 arrives while the boilerplate of problem 7 is looked up. -/
def overtakenAdd : List ServerAct :=
  exampleJoin 0 .go ++ exampleSelect 0 7 ++
    [.event (.receive 0 (.testcaseAdd (some exampleCustomCase))), .resume 0 .go,
      .event (.receive 0 (.problemSelect (some 8))), .resume 1 .go,
      .resume 1 (.detail (some (exampleDetail 8))),
      .resume 0 (.boilerplate (some (exampleBoilerplate 7)))]

theorem case_stored_for_later_problem : ∃ c out,
    Reaches plainConfig .collaboration 0 overtakenAdd c out ∧
    c.shared.room.problemId = some 8 ∧
    c.shared.room.customTestCases = [⟨exampleCustomCase, 7⟩] ∧
    out.getLast? = some (.deliver 0 (.testcaseAdded exampleCustomCase)) :=
  ⟨_, _, rfl, rfl, rfl, rfl⟩

end CodeShare
