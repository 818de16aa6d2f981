import CodeShare.Properties.CaseVerdict
import CodeShare.Properties.Grading
import CodeShare.Properties.HarnessAlignment
import CodeShare.Properties.ResultProtocol

/-! # What the room is told about an execution

From what the children of a script do to the message of the server, through the script's parent, the
text on its output, the parser, the schema and the grader. A test case counts as passed exactly when
its child returned a value that is read as the expected output; there are three ways in which the
whole result is lost, and one in which the error of a failed preflight is.
-/

namespace CodeShare
open Harness
set_option autoImplicit false

/-! ## Right answers -/

section
variable (R : Runtime)

/-- The child of the test case returned, in time and in bounds, a value that is read as the expected
output. -/
def RightAnswer (case : TestCase × ChildBehaviour R.Double) : Prop :=
  ∃ got expected, case.2.returned = some got ∧ case.1.expectedOutput = some expected ∧
    Alike R (ReadsAs R) isProto got.value expected

open Classical in
/-- Which test cases were answered right. -/
noncomputable def rightAnswers (cases : List (TestCase × ChildBehaviour R.Double)) : List Bool :=
  cases.map fun case => decide (RightAnswer R case)

end

/-- The result of an execution in which these test cases were answered right. -/
def ExecutionResult.Reports (right : List Bool) : ExecutionResult → Prop
  | run passed total cases _ _ =>
    passed = right.count true ∧ total = right.length ∧ cases.map (·.passed) = right ∧
      cases.map (·.index) = List.range right.length
  | submit passed total firstFailure =>
    passed = right.count true ∧ total = right.length ∧
      firstFailure.map (·.index) = right.findIdx? (!·)

/-! ## From entries to grades -/

section
variable {R : Runtime} {entries : List (CaseEntry R.Double)} {results : List HarnessCase}

/-- Each result is what the schema makes of its entry. -/
theorem casesSchema_read {index : ℕ}
    (h : casesSchema (.arr (parsed.parsedItems R (entriesFrom R index entries))) = some results) :
    List.Forall₂ (fun entry result => ∃ i, readEntry R i entry = some result) entries results := by
  induction entries generalizing index results with
  | nil =>
    obtain rfl := Option.some.inj h
    exact .nil
  | cons entry rest ih =>
    rw [entriesFrom, parsed.parsedItems, casesSchema_cons, harnessCaseSchema_toPy,
      Option.bind_eq_some_iff] at h
    obtain ⟨result, hread, hrest⟩ := h
    obtain ⟨results', hrest', rfl⟩ := Option.map_eq_some_iff.mp hrest
    split_ifs at hread
    exact .cons ⟨_, hread⟩ (ih hrest')

/-- The grade of a result is the verdict on the value of its entry. -/
theorem readEntry_passes {index : ℤ} {entry : CaseEntry R.Double} {result : HarnessCase}
    (h : readEntry R index entry = some result) (expectedOutput : Option Json) :
    result.passes expectedOutput = true ↔ ∃ got expected, entry.got = some got ∧
      expectedOutput = some expected ∧ Alike R (ReadsAs R) isProto got.value expected := by
  cases entry with
  | ok elapsed got repr =>
    obtain ⟨gotJson, hschema, rfl⟩ := Option.map_eq_some_iff.mp h
    simp only [HarnessCase.passes, Option.any_eq_true, CaseEntry.got, Option.some.injEq,
      ← compared_iff, Compared]
    constructor
    · rintro ⟨expected, rfl, hequal⟩
      exact ⟨got, expected, rfl, rfl, gotJson, hschema, hequal⟩
    · rintro ⟨_, expected, rfl, rfl, _, hsame, hequal⟩
      obtain rfl := Option.some.inj (hschema.symm.trans hsame)
      exact ⟨expected, rfl, hequal⟩
  | unserializable elapsed repr =>
    obtain rfl := Option.some.inj h
    simp [HarnessCase.passes, CaseEntry.got]
  | error elapsed text truncated =>
    obtain rfl := Option.some.inj h
    simp [HarnessCase.passes, CaseEntry.got]

/-- The grades, position by position, are the right answers. -/
theorem graded_passed {cases : List (TestCase × ChildBehaviour R.Double)}
    (hread : List.Forall₂ (fun entry result => ∃ i, readEntry R i entry = some result) entries results)
    (hgots : entries.map CaseEntry.got = cases.map fun case => case.2.returned) :
    (List.zipWith (fun result testCase => gradeHarnessCase result testCase.expectedOutput) results
      (cases.map Prod.fst)).map (·.passed) = rightAnswers R cases := by
  induction hread generalizing cases with
  | nil =>
    cases cases with
    | nil => rfl
    | cons case cases => cases hgots
  | @cons entry result entries results hentry _ ih =>
    classical
    cases cases with
    | nil => cases hgots
    | cons case cases =>
      obtain ⟨i, hentry⟩ := hentry
      obtain ⟨hgot, hgots⟩ := List.cons.inj hgots
      have hpasses := readEntry_passes hentry case.1.expectedOutput
      rw [hgot] at hpasses
      rw [List.map_cons, List.zipWith_cons_cons, List.map_cons, ih hgots, rightAnswers, rightAnswers,
        List.map_cons, gradeHarnessCase_passed]
      congr 1
      rw [Bool.eq_iff_iff]
      exact hpasses.trans (decide_eq_true_iff (p := RightAnswer R case)).symm

end

/-! ## From grades to the result -/

section
variable {testCases : List TestCase} {graded : List GradedHarnessCase} {right : List Bool}

theorem find_failed_index (n : ℕ) (hpassed : graded.map (·.passed) = right)
    (hindex : graded.map (·.index) = List.range' n graded.length) :
    (graded.find? fun r => !r.passed).map (·.index) = (right.findIdx? (!·)).map (· + n) := by
  induction graded generalizing right n with
  | nil =>
    obtain rfl : right = [] := hpassed.symm
    rfl
  | cons r graded ih =>
    subst hpassed
    rw [List.map_cons, List.length_cons, List.range'_succ] at hindex
    obtain ⟨hfirst, hrest⟩ := List.cons.inj hindex
    rw [List.map_cons, List.find?_cons, List.findIdx?_cons]
    cases hr : r.passed with
    | false => simp [hfirst]
    | true =>
      have hlater := ih (n + 1) rfl hrest
      simp only [Bool.not_true, hlater, Bool.false_eq_true, if_false, Option.map_map]
      congr 1
      funext i
      simp only [Function.comp_apply]
      omega

/-- Both kinds of results report the grades. -/
theorem emitExecutionResult_reports (data : HarnessResultPayload) (executionType : ExecutionType)
    (hgraded : gradeHarnessResults data.results testCases = some graded)
    (hpassed : graded.map (·.passed) = right)
    (hindex : graded.map (·.index) = List.range graded.length) :
    ∃ result, emitExecutionResult executionType data testCases = some result ∧ result.Reports right := by
  have hcount : graded.countP (·.passed) = right.count true := by
    rw [← hpassed, List.count, List.countP_map]
    refine List.countP_congr fun r _ => ?_
    simp
  have hlength : graded.length = right.length := by rw [← hpassed, List.length_map]
  cases executionType with
  | run =>
    rw [emitExecutionResult, buildRunResult, hgraded]
    refine ⟨_, rfl, ?_, ?_, ?_, ?_⟩
    · rw [List.countP_map]
      exact hcount
    · rw [List.length_map, hlength]
    · rw [List.map_map]
      exact hpassed
    · rw [List.map_map, ← hlength]
      exact hindex
  | submit =>
    rw [emitExecutionResult, buildSubmitResult, hgraded]
    refine ⟨_, rfl, hcount, hlength, ?_⟩
    have hfirst := find_failed_index 0 hpassed (by rw [hindex, List.range_eq_range'])
    rw [Option.map_map]
    refine Eq.trans ?_ (hfirst.trans ?_)
    · rfl
    · simp

end

/-! ## The whole way -/

section
variable (R : Runtime) {preflight : ProcessEnd R.Double}
  {cases : List (TestCase × ChildBehaviour R.Double)}

/-- Every returned value leaves room for the payload around it. -/
def Shallow (cases : List (TestCase × ChildBehaviour R.Double)) : Prop :=
  ∀ case ∈ cases, ∀ got ∈ case.2.returned, pyNesting got.value + 3 ≤ R.jsonNesting

/-- The schema accepts all entries. -/
def Acceptable (cases : List (TestCase × ChildBehaviour R.Double)) : Prop :=
  cases.length ≤ 2 ^ 53 ∧ ∀ case ∈ cases, ∀ got ∈ case.2.returned, Representable R got.value

/-- The script emits a result unless a returned value nests too deeply. -/
theorem parentMain_emits (cases : List (TestCase × ChildBehaviour R.Double))
    (hpass : handlePreflightFailure R (runChild R preflight) = some none) :
    ∃ entries userStdout, entries.map CaseEntry.got = cases.map (fun case => case.2.returned) ∧
      (Shallow R cases → parentMain R preflight (processEnds R 0 (cases.map Prod.snd)) =
        some (.result, resultPayload R (entriesFrom R 0 entries, userStdout))) ∧
      (¬ Shallow R cases → parentMain R preflight (processEnds R 0 (cases.map Prod.snd)) = none) := by
  obtain ⟨entries, userStdout, hemit, hgots⟩ := parentMain_passes R hpass (cases.map Prod.snd)
  have hshallow := (pyNesting_resultPayload R entries userStdout).trans
    (forall_got_iff R hgots fun got => pyNesting got.value + 3 ≤ R.jsonNesting)
  rw [List.map_map] at hgots
  refine ⟨entries, userStdout, hgots, fun h => ?_, fun h => ?_⟩
  · rw [hemit, emitTaggedPayload, if_pos (hshallow.mpr h)]
  · rw [hemit, emitTaggedPayload, if_neg (mt hshallow.mp h)]

/-- What the server makes of the data of a payload. -/
theorem resultReply_payload {entries : List (CaseEntry R.Double)} (userStdout : BoundedStdout)
    (hgots : entries.map CaseEntry.got = cases.map fun case => case.2.returned)
    (executionType : ExecutionType) :
    (Acceptable R cases → ∃ result,
      resultReply executionType (cases.map Prod.fst)
        (.ok (parsed R (resultPayload R (entriesFrom R 0 entries, userStdout)))) = .result result ∧
      result.Reports (rightAnswers R cases)) ∧
    (¬ Acceptable R cases → resultReply executionType (cases.map Prod.fst)
      (.ok (parsed R (resultPayload R (entriesFrom R 0 entries, userStdout)))) = validationFailed) := by
  have hlength : entries.length = cases.length := by
    have hlengths := congrArg List.length hgots
    rwa [List.length_map, List.length_map] at hlengths
  have hacceptable : (casesSchema (.arr (parsed.parsedItems R (entriesFrom R 0 entries)))).isSome ↔
      Acceptable R cases := by
    have hreturned : entries.map CaseEntry.got = (cases.map Prod.snd).map ChildBehaviour.returned := by
      rw [List.map_map]
      exact hgots
    have hvalues := forall_got_iff R hreturned fun got => Representable R got.value
    rw [casesSchema_isSome, hvalues, hlength, Nat.sub_zero]
    rfl
  rw [resultReply, harnessResultSchema_resultPayload]
  constructor
  · intro h
    obtain ⟨results, hresults⟩ := Option.isSome_iff_exists.mp (hacceptable.mpr h)
    have hindexes := casesSchema_index R 0 hresults
    have hcount : results.length = cases.length := by
      have hlengths := congrArg List.length hindexes
      rwa [List.length_map, List.length_map, List.length_range', hlength] at hlengths
    rw [hlength, ← hcount, ← List.range_eq_range'] at hindexes
    have hsame : results.length = (cases.map Prod.fst).length := by rw [hcount, List.length_map]
    have hgraded := gradeHarnessResults_range hindexes hsame
    have hgradedIndex : (List.zipWith (fun result testCase =>
        gradeHarnessCase result testCase.expectedOutput) results (cases.map Prod.fst)).map (·.index) =
        List.range results.length := by
      refine List.ext_getElem (by simp [hcount]) fun i hi hi' => ?_
      rw [List.length_range] at hi'
      rw [List.getElem_map, List.getElem_zipWith, gradeHarnessCase_index,
        getElem_index_range hindexes i hi', Int.toNat_natCast, List.getElem_range]
    have hgradedLength : (List.zipWith (fun result testCase =>
        gradeHarnessCase result testCase.expectedOutput) results (cases.map Prod.fst)).length =
        results.length := by
      simp [hcount]
    rw [hresults, Option.map_some]
    dsimp only
    obtain ⟨result, hresult, hreports⟩ := emitExecutionResult_reports
      ⟨results, utf16 userStdout.getvalue, if userStdout.truncated then some true else none⟩ executionType
      hgraded (graded_passed (casesSchema_read hresults) hgots) (by rw [hgradedLength]; exact hgradedIndex)
    rw [hresult]
    exact ⟨result, rfl, hreports⟩
  · intro h
    rw [Option.not_isSome_iff_eq_none.mp (mt hacceptable.mp h)]
    rfl

/-- The error of a failed preflight is emitted. -/
theorem preflight_emitted {text : PyText} {outcome : HarnessOutcome}
    (hfails : handlePreflightFailure R (runChild R preflight) = some (some (outcome, errorPayload R (.str text))))
    (children : List (ProcessEnd R.Double)) :
    parentMain R preflight children = some (outcome, errorPayload R (.str text)) := by
  have hnesting : pyNesting (errorPayload R (.str text)) ≤ R.jsonNesting :=
    le_trans (by simp [errorPayload, pyNesting, pyNesting.entriesNesting]) R.jsonNesting_ge
  rw [parentMain, hfails]
  exact if_pos hnesting

/-- And it is read unless it is too long. -/
theorem branch_error {outcome : HarnessOutcome} {errorType : ExecutionErrorType}
    (herror : outcome.errorType = some errorType) {text : PyText} {written : JsString}
    {parse : JsString → Option ParsedJson} (hparse : parse written = some (parsed R (errorPayload R (.str text))))
    (executionType : ExecutionType) (testCases : List TestCase) :
    branch executionType testCases outcome (reading parse written) =
      .ok (if harnessPayloadChars < written.length then
        .error .parseError (js "Could not parse execution results.")
      else .error errorType (sanitizeStderr (some (utf16 text)))) := by
  have hproperty : errorProperty (parsed R (errorPayload R (.str text))) = .ok (some (.str (utf16 text))) := rfl
  unfold branch reading
  rw [herror]
  split_ifs with hlong
  · rfl
  · rw [hparse]
    dsimp only
    rw [hproperty]
    rfl

/-- **What the room is told about an execution.** Let `JSON.parse` read what `json.dumps` has written, and
let the output around what the script emits be without markers. Of a preflight that fails with a text the
room is told that text, or that nothing could be parsed when it is too long. Of one that passes: unless a
returned value nests too deeply, in which case the script ends without a word, the script emits a result,
and the room is told that the output is too long, or that it failed validation, or a result that counts and
lists as passed exactly the test cases whose child returned, in time and in bounds, a value that is read as
the expected output. -/
theorem execution_verdict {nonce before after : JsString} (hnonce : HexNonce nonce)
    (hbefore : Lines.Complete newline before) (hclean : Unmarked nonce before) (hafter : Unmarked nonce after)
    (dumps : PyVal R.Double → JsString) (parse : JsString → Option ParsedJson)
    (hwritten : ∀ outcome payload,
      parentMain R preflight (processEnds R 0 (cases.map Prod.snd)) = some (outcome, payload) →
      IsObjectText (dumps payload) ∧ parse (dumps payload) = some (parsed R payload))
    (executionType : ExecutionType) :
    (∀ text outcome errorType, outcome.errorType = some errorType →
      handlePreflightFailure R (runChild R preflight) = some (some (outcome, errorPayload R (.str text))) →
      parentMain R preflight (processEnds R 0 (cases.map Prod.snd)) = some (outcome, errorPayload R (.str text)) ∧
      handleAcceptedExecutionResult parse executionType
        (before ++ (emission outcome nonce (dumps (errorPayload R (.str text))) ++ after)) nonce
        (cases.map Prod.fst) = .ok (if harnessPayloadChars < (dumps (errorPayload R (.str text))).length then
          .error .parseError (js "Could not parse execution results.")
        else .error errorType (sanitizeStderr (some (utf16 text))))) ∧
    (handlePreflightFailure R (runChild R preflight) = some none →
      (parentMain R preflight (processEnds R 0 (cases.map Prod.snd)) = none ↔ ¬ Shallow R cases) ∧
      ∀ outcome payload,
        parentMain R preflight (processEnds R 0 (cases.map Prod.snd)) = some (outcome, payload) →
        ∃ reply, handleAcceptedExecutionResult parse executionType
            (before ++ (emission outcome nonce (dumps payload) ++ after)) nonce (cases.map Prod.fst) = .ok reply ∧
          (harnessPayloadChars < (dumps payload).length →
            reply = .error .outputLimit (js "Execution output exceeded the allowed size.")) ∧
          ((dumps payload).length ≤ harnessPayloadChars → ¬ Acceptable R cases → reply = validationFailed) ∧
          ((dumps payload).length ≤ harnessPayloadChars → Acceptable R cases →
            ∃ result, reply = .result result ∧ result.Reports (rightAnswers R cases))) := by
  refine ⟨fun text outcome errorType herror hfails => ?_, fun hpass => ?_⟩
  · have hemitted := preflight_emitted R hfails (processEnds R 0 (cases.map Prod.snd))
    obtain ⟨htext, hparse⟩ := hwritten _ _ hemitted
    rw [handleAccepted_within parse outcome executionType _ hnonce htext hbefore hclean hafter]
    exact ⟨hemitted, branch_error R herror hparse executionType _⟩
  · obtain ⟨entries, userStdout, hgots, hemits, hfails⟩ := parentMain_emits R cases hpass
    refine ⟨⟨fun hnone hshallow => ?_, hfails⟩, fun outcome payload hmain => ?_⟩
    · rw [hemits hshallow] at hnone
      cases hnone
    · obtain ⟨htext, hparse⟩ := hwritten outcome payload hmain
      have hshallow : Shallow R cases := by
        by_contra hdeep
        rw [hfails hdeep] at hmain
        cases hmain
      obtain ⟨rfl, rfl⟩ := Prod.mk.inj (Option.some.inj ((hemits hshallow).symm.trans hmain))
      obtain ⟨haccepted, hrefused⟩ := resultReply_payload R userStdout hgots executionType
      refine ⟨_, handleAccepted_within parse _ executionType (cases.map Prod.fst) hnonce htext hbefore hclean hafter,
        fun hlong => ?_, fun hfits hbad => ?_, fun hfits hgood => ?_⟩
      · rw [reading, if_pos hlong]
        rfl
      · rw [reading, if_neg (Nat.not_lt.mpr hfits), hparse]
        exact hrefused hbad
      · rw [reading, if_neg (Nat.not_lt.mpr hfits), hparse]
        exact haccepted hgood

end

/-! ## An execution of two test cases -/

def braced (body : JsString) : JsString := 123 :: (body ++ [125])

/-- One child returns `True`, the other one does not end. -/
def exampleChildren : List (TestCase × ChildBehaviour exampleRuntime.Double) :=
  [(exampleTestCase, returnsTrue), (exampleTestCase, .timesOut [])]

/-- What `json.dumps` writes for them. -/
def exampleText : JsString :=
  braced (js "\"results\": [" ++ braced (js "\"index\": 0, \"status\": \"ok\", \"elapsed_ms\": 3.0, " ++
    js "\"got_json\": true, \"got_repr\": \"True\"") ++ js ", " ++ braced (js "\"index\": 1, " ++
    js "\"status\": \"error\", \"elapsed_ms\": 0, \"error\": \"Execution process timed out.\"") ++
    js "], \"userStdout\": \"\"")

/-- And what `JSON.parse` reads from it. -/
def exampleParse (text : JsString) : Option ParsedJson :=
  if text = exampleText then
    (parentMain exampleRuntime passedPreflight (processEnds exampleRuntime 0 (exampleChildren.map Prod.snd))).map
      fun emitted => parsed exampleRuntime emitted.2
  else none

/-- The preflight finds an error in the submitted code. -/
def brokenPreflight : ProcessEnd exampleRuntime.Double :=
  .exited 0 ⟨60, some (.dict [(js "status", .str (js "syntax_error")), (js "error", .str (js "invalid syntax"))])⟩ []

/-- What the sandbox prints in front of the script. -/
def exampleNoise : JsString := js "warming up" ++ [newline]

theorem exampleNoise_complete : Lines.Complete newline exampleNoise := Or.inr ⟨_, rfl⟩

theorem exampleNoise_unmarked : Unmarked exampleNonce exampleNoise := by
  have hnonce : HexNonce exampleNonce := by
    unfold HexNonce
    decide
  intro outcome p h
  have hline := startTag_not_mem outcome hnonce
  rw [show exampleNoise = js "warming up" ++ newline :: [] from rfl, startLine_cons_iff hline (by decide)] at h
  rcases h with ⟨-, heq⟩ | ⟨q, -, h⟩
  · cases outcome <;> exact absurd heq (by decide)
  · exact Lines.LineAt.not_nil startTag_ne_nil h

/-- Two test cases are graded, and a script with an error is told of. -/
theorem execution_verdict_example :
    (∃ outcome payload result,
      parentMain exampleRuntime passedPreflight
        (processEnds exampleRuntime 0 (exampleChildren.map Prod.snd)) = some (outcome, payload) ∧
      handleAcceptedExecutionResult exampleParse .run
        (exampleNoise ++ (emission outcome exampleNonce exampleText ++ [])) exampleNonce
        (exampleChildren.map Prod.fst) = .ok (.result result) ∧
      result.Reports (rightAnswers exampleRuntime exampleChildren)) ∧
    handleAcceptedExecutionResult (errorParse (js "invalid syntax")) .submit
      (exampleNoise ++ (emission .compilationError exampleNonce (errorText (js "invalid syntax")) ++ []))
      exampleNonce (exampleChildren.map Prod.fst) = .ok (.error .compilationError (js "invalid syntax")) := by
  have hnonce : HexNonce exampleNonce := by
    unfold HexNonce
    decide
  have hreturned : ∀ {P : LoadedValue exampleRuntime.Double → Prop}, P ⟨.bool true, rfl⟩ →
      ∀ case ∈ exampleChildren, ∀ got ∈ case.2.returned, P got := by
    intro P htrue case hcase got hgot
    rcases List.mem_pair.mp hcase with rfl | rfl
    · obtain rfl := Option.some.inj hgot
      exact htrue
    · cases hgot
  have hwritten : ∀ outcome payload, parentMain exampleRuntime passedPreflight
        (processEnds exampleRuntime 0 (exampleChildren.map Prod.snd)) = some (outcome, payload) →
      IsObjectText exampleText ∧ exampleParse exampleText = some (parsed exampleRuntime payload) := by
    intro outcome payload hmain
    refine ⟨⟨by decide, _, rfl⟩, ?_⟩
    rw [exampleParse, if_pos rfl, hmain]
    rfl
  have hbroken : ∀ outcome payload, parentMain exampleRuntime brokenPreflight
        (processEnds exampleRuntime 0 (exampleChildren.map Prod.snd)) = some (outcome, payload) →
      IsObjectText (errorText (js "invalid syntax")) ∧
        errorParse (js "invalid syntax") (errorText (js "invalid syntax")) =
          some (parsed exampleRuntime payload) := by
    intro outcome payload hmain
    obtain ⟨-, rfl⟩ := Prod.mk.inj (Option.some.inj hmain)
    exact ⟨errorText_isObjectText (by decide), if_pos rfl⟩
  constructor
  · obtain ⟨hsilent, htold⟩ := (execution_verdict exampleRuntime hnonce exampleNoise_complete
      exampleNoise_unmarked (unmarked_nil _) (fun _ => exampleText) exampleParse hwritten .run).2
      passedPreflight_passes
    have hemits : parentMain exampleRuntime passedPreflight
        (processEnds exampleRuntime 0 (exampleChildren.map Prod.snd)) ≠ none := fun hnone =>
      hsilent.mp hnone (hreturned (by decide))
    obtain ⟨⟨outcome, payload⟩, hmain⟩ := Option.ne_none_iff_exists'.mp hemits
    obtain ⟨reply, hreply, -, -, hgraded⟩ := htold outcome payload hmain
    obtain ⟨result, rfl, hreports⟩ :=
      hgraded (by decide +kernel) ⟨Nat.le_of_ble_eq_true rfl, hreturned trivial⟩
    exact ⟨outcome, payload, result, hmain, hreply, hreports⟩
  · exact ((execution_verdict exampleRuntime hnonce exampleNoise_complete exampleNoise_unmarked
      (unmarked_nil _) (fun _ => errorText (js "invalid syntax")) (errorParse (js "invalid syntax")) hbroken
      .submit).1 (js "invalid syntax") .compilationError .compilationError rfl rfl).2

end CodeShare
