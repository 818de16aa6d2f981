import CodeShare.Properties.GeneratedCases
import CodeShare.Properties.TestCaseParameters

/-! # Generated cases are answered twice

Whatever fails, is retried or is done by other runs meanwhile: no run stores a case that the model has not
generated for it and whose output it has not, asked for it anew, given again. A case that cannot be told from
such a one is all that a run adds, behind what is there.
-/

namespace CodeShare.Generation
open Tasks
set_option autoImplicit false

abbrev GeneratorTurn := Turn Generator GenerationTask GenerationContext GenerationOutcome GenerationEnd

/-! ## What the model has said -/

/-- The model has given the case to the run, and it fits the problem. -/
structure Generated (cfg : GeneratorConfig) (past : List GeneratorTurn) (x : GenerationRun)
    (testCase : ParsedJson) : Prop where
  answered : ∃ turn ∈ past, ∃ raw cases, turn.trigger = .task (.generateCases x) (.answered raw) ∧
    parseGeneratedCases cfg.parse raw = some cases ∧ testCase ∈ cases
  fits : structurallyValid x.context.parameterNames (inferOutputType x.context.visibleOutputs) testCase = true

/-- The model has given the case, and later, asked for its output alone, has given that again. -/
structure Confirmed (cfg : GeneratorConfig) (past : List GeneratorTurn) (x : GenerationRun)
    (testCase : ParsedJson) : Prop where
  confirmed : ∃ earlier turn later, past = earlier ++ turn :: later ∧ Generated cfg earlier x testCase ∧
    ∃ verified batch remaining answers raw,
      turn.trigger = .task (.verifyCases x verified batch remaining) (.settled answers) ∧
      (testCase, some raw) ∈ batch.zip answers ∧ verifyOneCase cfg testCase (some raw) = true

/-- What a task has of cases, and what is known of them. -/
def GenerationTask.Backed (cfg : GeneratorConfig) (past : List GeneratorTurn) : GenerationTask → Prop
  | countHidden _ | generateCases _ => True
  | verifyCases x verified batch remaining =>
    (∀ testCase ∈ verified, Confirmed cfg past x testCase) ∧
      ∀ testCase ∈ batch ++ remaining, Generated cfg past x testCase
  | maxOrderIndex x verified => ∀ testCase ∈ verified, Confirmed cfg past x testCase
  | createMany x rows => ∀ row ∈ rows, ∃ testCase startIndex i, Confirmed cfg past x testCase ∧
      row = newRow x startIndex i testCase

/-- Where a row of the table comes from. -/
def Backed (cfg : GeneratorConfig) (stored : Stored) (past : List GeneratorTurn) (row : TestCaseRow) : Prop :=
  row ∈ stored.table ∨ ∃ x testCase startIndex i, Confirmed cfg past x testCase ∧
    row = newRow x startIndex i testCase

section
variable {cfg : GeneratorConfig} {past more : List GeneratorTurn} {x : GenerationRun} {testCase : ParsedJson}

theorem Generated.mono (h : Generated cfg past x testCase) : Generated cfg (past ++ more) x testCase where
  answered := by
    obtain ⟨turn, hm, h⟩ := h.answered
    exact ⟨turn, List.mem_append_left _ hm, h⟩
  fits := h.fits

theorem Confirmed.mono (h : Confirmed cfg past x testCase) : Confirmed cfg (past ++ more) x testCase where
  confirmed := by
    obtain ⟨earlier, turn, later, rfl, hagain⟩ := h.confirmed
    exact ⟨earlier, turn, later ++ more, by rw [List.append_assoc, List.cons_append], hagain⟩

theorem Confirmed.fits (h : Confirmed cfg past x testCase) :
    structurallyValid x.context.parameterNames (inferOutputType x.context.visibleOutputs) testCase = true := by
  obtain ⟨_, _, _, -, hgenerated, -⟩ := h.confirmed
  exact hgenerated.fits

theorem GenerationTask.Backed.mono {task : GenerationTask} (h : task.Backed cfg past) :
    task.Backed cfg (past ++ more) := by
  cases task with
  | countHidden x | generateCases x => trivial
  | verifyCases x verified batch remaining =>
    exact ⟨fun testCase hm => (h.1 testCase hm).mono, fun testCase hm => (h.2 testCase hm).mono⟩
  | maxOrderIndex x verified => exact fun testCase hm => (h testCase hm).mono
  | createMany x rows =>
    intro row hm
    obtain ⟨testCase, startIndex, i, hconfirmed, hrow⟩ := h row hm
    exact ⟨testCase, startIndex, i, hconfirmed.mono, hrow⟩

theorem Backed.mono {stored : Stored} {row : TestCaseRow} (h : Backed cfg stored past row) :
    Backed cfg stored (past ++ more) row := by
  rcases h with h | ⟨x, testCase, startIndex, i, hconfirmed, hrow⟩
  · exact .inl h
  · exact .inr ⟨x, testCase, startIndex, i, hconfirmed.mono, hrow⟩

end

/-! ## Segments -/

section
variable {cfg : GeneratorConfig} {past : List GeneratorTurn} {s : Generator} {x : GenerationRun}
  {task : GenerationTask} {o : GenerationOutcome} {g : GenerationStep}

theorem attemptFailed_next (s : Generator) (x : GenerationRun) :
    ∀ task ∈ (attemptFailed s x).next, task.Backed cfg past := by
  unfold attemptFailed
  split_ifs
  · exact List.forall_mem_singleton.mpr trivial
  · exact List.forall_mem_nil _

/-- On to the next batch, or behind the last. -/
theorem verifyNext_next {verified remaining : List ParsedJson}
    (hverified : ∀ testCase ∈ verified, Confirmed cfg past x testCase)
    (hremaining : ∀ testCase ∈ remaining, Generated cfg past x testCase) :
    ∀ task ∈ (verifyNext s x verified remaining).next, task.Backed cfg past := by
  unfold verifyNext
  split_ifs
  · refine List.forall_mem_singleton.mpr ⟨hverified, ?_⟩
    rw [List.take_append_drop]
    exact hremaining
  · exact List.forall_mem_nil _
  · exact List.forall_mem_singleton.mpr hverified

theorem mem_structuralValidation {maxCases : ℕ} {parameterNames : List JsString}
    {visibleOutputs cases validated : List ParsedJson} {testCase : ParsedJson}
    (h : structuralValidation maxCases parameterNames visibleOutputs cases = some validated)
    (hm : testCase ∈ validated) :
    testCase ∈ cases ∧ structurallyValid parameterNames (inferOutputType visibleOutputs) testCase = true := by
  unfold structuralValidation at h
  split_ifs at h
  obtain rfl := Option.some.inj h
  exact List.mem_filter.mp (List.mem_of_mem_take hm)

theorem structurallyValid_output {parameterNames : List JsString} {sampleOutputType : Option JsString}
    {testCase : ParsedJson} (h : structurallyValid parameterNames sampleOutputType testCase = true) :
    ∃ expectedOutput, testCase.get (js "expectedOutput") = some expectedOutput := by
  unfold structurallyValid at h
  split at h
  · rename_i expectedOutput _ houtput
    exact ⟨expectedOutput, houtput⟩
  · cases h

theorem generateCases_next {turn : GeneratorTurn} (hturn : turn.trigger = .task (.generateCases x) o)
    (h : afterGenerateCases cfg s x o = some g) : ∀ task ∈ g.next, task.Backed cfg (past ++ [turn]) := by
  cases o with
  | answered raw =>
    unfold afterGenerateCases at h
    dsimp only at h
    split at h
    · obtain rfl := Option.some.inj h
      exact List.forall_mem_nil _
    · rename_i validated hvalidated
      obtain rfl := Option.some.inj h
      obtain ⟨cases, hparse, hcases⟩ := Option.bind_eq_some_iff.mp hvalidated
      refine verifyNext_next (List.forall_mem_nil _) fun testCase hm => ?_
      obtain ⟨hcase, hfits⟩ := mem_structuralValidation hcases hm
      exact ⟨⟨turn, by simp, raw, cases, hturn, hparse, hcase⟩, hfits⟩
    · obtain rfl := Option.some.inj h
      exact attemptFailed_next s x
  | failed =>
    obtain rfl := Option.some.inj h
    exact attemptFailed_next s x
  | executed | executedAndLost | settled _ => cases h

theorem verifyCases_next {turn : GeneratorTurn} {verified batch remaining : List ParsedJson}
    (hturn : turn.trigger = .task (.verifyCases x verified batch remaining) o)
    (hbacked : (GenerationTask.verifyCases x verified batch remaining).Backed cfg past)
    (h : afterVerifyCases cfg s x verified batch remaining o = some g) :
    ∀ task ∈ g.next, task.Backed cfg (past ++ [turn]) := by
  cases o with
  | settled answers =>
    unfold afterVerifyCases at h
    dsimp only at h
    split_ifs at h with hlength
    obtain rfl := Option.some.inj h
    obtain ⟨hverified, hgenerated⟩ := hbacked
    refine verifyNext_next (List.forall_mem_append.mpr ⟨fun testCase hm => (hverified testCase hm).mono, ?_⟩)
      fun testCase hm => (hgenerated testCase (List.mem_append_right _ hm)).mono
    intro testCase hm
    obtain ⟨⟨_, answer⟩, hpassed, rfl⟩ := List.mem_map.mp hm
    obtain ⟨hpair, hverify⟩ := List.mem_filter.mp hpassed
    cases answer with
    | none => simp [verifyOneCase] at hverify
    | some raw =>
      have hbatch := hgenerated _ (List.mem_append_left _ (List.of_mem_zip hpair).1)
      exact ⟨⟨past, turn, [], rfl, hbatch, verified, batch, remaining, answers, raw, hturn, hpair, hverify⟩⟩
  | executed | executedAndLost | answered _ | failed => cases h

theorem maxOrderIndex_next {verified : List ParsedJson}
    (hbacked : ∀ testCase ∈ verified, Confirmed cfg past x testCase)
    (h : afterMaxOrderIndex s x verified o = some g) : ∀ task ∈ g.next, task.Backed cfg past := by
  cases o with
  | executed =>
    obtain rfl := Option.some.inj h
    refine List.forall_mem_singleton.mpr fun row hrow => ?_
    obtain ⟨i, hi, rfl⟩ := List.mem_mapIdx.mp hrow
    exact ⟨_, _, i, hbacked _ (List.getElem_mem hi), rfl⟩
  | failed =>
    obtain rfl := Option.some.inj h
    exact attemptFailed_next s x
  | executedAndLost | answered _ | settled _ => cases h

theorem createMany_next {rows : List TestCaseRow} (h : afterCreateMany s x rows o = some g) :
    ∀ task ∈ g.next, task.Backed cfg past := by
  cases o with
  | executed =>
    obtain rfl := Option.some.inj h
    exact List.forall_mem_nil _
  | executedAndLost | failed =>
    obtain rfl := Option.some.inj h
    exact attemptFailed_next _ x
  | answered _ | settled _ => cases h

theorem countHidden_next (h : afterCountHidden s x o = some g) : ∀ task ∈ g.next, task.Backed cfg past := by
  cases o with
  | executed =>
    unfold afterCountHidden at h
    dsimp only at h
    split_ifs at h <;> obtain rfl := Option.some.inj h
    · exact List.forall_mem_nil _
    · exact List.forall_mem_singleton.mpr trivial
  | failed =>
    obtain rfl := Option.some.inj h
    exact attemptFailed_next s x
  | executedAndLost | answered _ | settled _ => cases h

/-- The tasks that a segment leaves are backed by what was said, the segment itself included. -/
theorem fire_backed {turn : GeneratorTurn} (hturn : turn.trigger = .task task o) (hbacked : task.Backed cfg past)
    (h : (generator cfg).fire s (.task task o) = some g) : ∀ task ∈ g.next, task.Backed cfg (past ++ [turn]) := by
  cases task with
  | countHidden x => exact countHidden_next h
  | generateCases x => exact generateCases_next hturn h
  | verifyCases x verified batch remaining => exact verifyCases_next hturn hbacked h
  | maxOrderIndex x verified => exact maxOrderIndex_next (fun testCase hm => (hbacked testCase hm).mono) h
  | createMany x rows => exact createMany_next h

end

/-! ## Runs -/

/-- What is stored and what is at work has been answered twice so far. -/
structure AnsweredTwice (cfg : GeneratorConfig) (stored : Stored) (past : List GeneratorTurn)
    (c : GeneratorConf) : Prop where
  kept : stored.table <+: c.shared.table
  grows : ∀ turn ∈ past, turn.before.shared.table <+: turn.after.shared.table
  rows : ∀ row ∈ c.shared.table, Backed cfg stored past row
  tasks : ∀ task ∈ c.pool, task.Backed cfg past

theorem AnsweredTwice.step {cfg : GeneratorConfig} {stored : Stored} {past : List GeneratorTurn}
    {c c' : GeneratorConf} {out : List GenerationEnd} {t : GeneratorTrigger} {g : GenerationStep}
    {rest : List GenerationTask} (h : AnsweredTwice cfg stored past c) (htracked : Tracked cfg.maxCases c)
    (hby : (generator cfg).StepBy c c' out t g rest) :
    AnsweredTwice cfg stored (past ++ [⟨c, t, c', out⟩]) c' := by
  obtain ⟨added, hadded, hinsert⟩ := added_rows htracked hby
  refine ⟨?_, List.forall_mem_append.mpr ⟨h.grows, List.forall_mem_singleton.mpr ?_⟩, fun row hm => ?_,
    fun task hm => ?_⟩
  · rw [hadded]
    exact h.kept.trans (List.prefix_append _ _)
  · dsimp only
    rw [hadded]
    exact List.prefix_append _ _
  · rw [hadded] at hm
    rcases List.mem_append.mp hm with hm | hm
    · exact (h.rows row hm).mono
    · rcases hinsert with ⟨-, rfl⟩ | ⟨x, rows, o, rfl, -, -, hsub, -, -⟩
      · cases hm
      · have htaken := h.tasks _ (hby.mem_of_taken (List.mem_singleton_self _))
        obtain ⟨testCase, startIndex, i, hconfirmed, hnew⟩ := htaken row (hsub.subset hm)
        exact .inr ⟨x, testCase, startIndex, i, hconfirmed.mono, hnew⟩
  · rcases hby.mem_after hm with hm | hm
    · exact (h.tasks task (hby.mem_of_rest hm)).mono
    · have hfire := hby.fire
      cases t with
      | event context =>
        obtain rfl := Option.some.inj hfire
        rw [List.mem_singleton.mp hm]
        trivial
      | task taken o =>
        have htaken := h.tasks taken (hby.mem_of_taken (List.mem_singleton_self taken))
        exact fire_backed rfl htaken hfire task hm

/-- **Generated cases are answered twice.** Every segment leaves the rows that were there and adds hidden rows
behind them; each is stored by a run for its problem and has the texts of a case that binds the problem's
parameters, which the model has given to that run, and whose output it has given again later. -/
theorem generated_cases_answered_twice {cfg : GeneratorConfig} {stored : Stored} {acts : List GeneratorAct}
    {c : GeneratorConf} {out : List GenerationEnd}
    (hrun : (generator cfg).run stored.initial acts = some (c, out)) :
    stored.table <+: c.shared.table ∧
    (∀ turn ∈ (generator cfg).history stored.initial acts,
      turn.before.shared.table <+: turn.after.shared.table) ∧
    ∀ row ∈ c.shared.table, row ∈ stored.table ∨
      ∃ x testCase input expectedOutput,
        Confirmed cfg ((generator cfg).history stored.initial acts) x testCase ∧
        row.storedBy = some x.run ∧ row.problemId = x.context.problemId ∧ row.isVisible = false ∧
        testCase.get (js "input") = some input ∧ KeysAre input.ownKeys x.context.parameterNames ∧
        row.input = input.stringify ∧
        testCase.get (js "expectedOutput") = some expectedOutput ∧
        row.expectedOutput = expectedOutput.stringify := by
  have h : AnsweredTwice cfg stored ((generator cfg).history stored.initial acts) c := by
    refine (Machine.run_history_preserves (P := fun _ _ _ => True)
      (I := fun past c => AnsweredTwice cfg stored past c ∧ Tracked cfg.maxCases c) ?_ ?_ ?_ hrun).1
    · exact fun _ _ _ _ _ _ _ h _ hby => ⟨h.1.step h.2 hby, tracked_step h.2 hby⟩
    · exact ⟨⟨List.prefix_refl _, List.forall_mem_nil _, fun row hm => .inl hm, List.forall_mem_nil _⟩,
        initial_tracked _ stored⟩
    · exact fun _ _ _ _ => trivial
  refine ⟨h.kept, h.grows, fun row hm => (h.rows row hm).imp id ?_⟩
  rintro ⟨x, testCase, startIndex, i, hconfirmed, rfl⟩
  obtain ⟨input, hinput, hkeys, -⟩ := structurallyValid_input hconfirmed.fits
  obtain ⟨output, houtput⟩ := structurallyValid_output hconfirmed.fits
  refine ⟨x, testCase, input, output, hconfirmed, rfl, rfl, rfl, hinput, hkeys, ?_, houtput, ?_⟩
  · simp [newRow, hinput]
  · simp [newRow, houtput]

/-- Two runs at once; what the first is told to be the output of its case is another one. -/
def exampleDisagreeing : List GeneratorAct :=
  [.event exampleContext, .event exampleContext, .resume 0 .executed, .resume 0 .executed,
    .resume 0 (.answered (js "cases")), .resume 0 (.answered (js "cases")),
    .resume 0 (.settled [some (js "cases")]), .resume 0 (.settled [some (js "1")]), .resume 0 .executed,
    .resume 0 .executedAndLost, .resume 0 .executed]

theorem generated_cases_answered_twice_example : ∃ c out,
    (generator exampleGenerator).run exampleTable.initial exampleDisagreeing = some (c, out) ∧
    c.shared.table.map (fun row => (row.orderIndex, row.storedBy)) = [(0, none), (1, some 1)] ∧
    exampleTable.table <+: c.shared.table ∧
    (∀ turn ∈ (generator exampleGenerator).history exampleTable.initial exampleDisagreeing,
      turn.before.shared.table <+: turn.after.shared.table) ∧
    ∀ row ∈ c.shared.table, row ∈ exampleTable.table ∨
      ∃ x testCase input expectedOutput, Confirmed exampleGenerator
        ((generator exampleGenerator).history exampleTable.initial exampleDisagreeing) x testCase ∧
        row.storedBy = some x.run ∧ row.problemId = x.context.problemId ∧ row.isVisible = false ∧
        testCase.get (js "input") = some input ∧ KeysAre input.ownKeys x.context.parameterNames ∧
        row.input = input.stringify ∧
        testCase.get (js "expectedOutput") = some expectedOutput ∧
        row.expectedOutput = expectedOutput.stringify := by
  have hrun : ((generator exampleGenerator).run exampleTable.initial exampleDisagreeing).map
      (fun r => r.1.shared.table.map fun row => (row.orderIndex, row.storedBy)) =
      some [(0, none), (1, some 1)] := by decide +kernel
  obtain ⟨⟨c, out⟩, hrun, htable⟩ := Option.map_eq_some_iff.mp hrun
  exact ⟨c, out, hrun, htable, generated_cases_answered_twice hrun⟩

end CodeShare.Generation
