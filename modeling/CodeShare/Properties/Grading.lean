import CodeShare.Server.ExecutionService
import Mathlib.Order.Bounds.Basic

/-! # Grading

A payload is graded when the indexes of its results are those of the test cases, in any order. The two
results are made from the same graded list, which is in the order of the test cases. What a submission
says about a hidden case is its index, and only where it failed.
-/

namespace CodeShare
open Enumeration
set_option autoImplicit false

/-- The case ended well, with the expected output. -/
def HarnessCase.passes (expectedOutput : Option Json) : HarnessCase → Bool
  | .ok _ _ gotJson _ => expectedOutput.any (isDeepStrictEqual gotJson)
  | _ => false

theorem HarnessCase.passes_iff {result : HarnessCase} {expectedOutput : Option Json} :
    result.passes expectedOutput ↔ ∃ elapsedMs gotJson gotRepr expected,
      result = .ok result.index elapsedMs gotJson gotRepr ∧
        expectedOutput = some expected ∧ isDeepStrictEqual gotJson expected := by
  cases result with
  | ok index elapsedMs gotJson gotRepr =>
    simp only [HarnessCase.passes, HarnessCase.index, Option.any_eq_true, HarnessCase.ok.injEq, true_and]
    constructor
    · rintro ⟨expected, hexpected, hequal⟩
      exact ⟨elapsedMs, gotJson, gotRepr, expected, ⟨rfl, rfl, rfl⟩, hexpected, hequal⟩
    · rintro ⟨_, _, _, expected, ⟨rfl, rfl, rfl⟩, hexpected, hequal⟩
      exact ⟨expected, hexpected, hequal⟩
  | unserializable index elapsedMs gotRepr => simp [HarnessCase.passes]
  | error index elapsedMs error errorTruncated => simp [HarnessCase.passes]

section
variable {result : HarnessCase} {expectedOutput : Option Json}

theorem gradeHarnessCase_index : (gradeHarnessCase result expectedOutput).index = result.index.toNat := by
  unfold gradeHarnessCase
  cases result with
  | ok index elapsedMs gotJson gotRepr =>
    dsimp only
    split_ifs <;> rfl
  | unserializable index elapsedMs gotRepr => rfl
  | error index elapsedMs error errorTruncated => rfl

theorem gradeHarnessCase_passed :
    (gradeHarnessCase result expectedOutput).passed = result.passes expectedOutput := by
  unfold gradeHarnessCase HarnessCase.passes
  cases result with
  | ok index elapsedMs gotJson gotRepr =>
    dsimp only
    by_cases hpassed : expectedOutput.any (isDeepStrictEqual gotJson) = true
    · rw [if_pos hpassed, hpassed]
    · rw [if_neg hpassed, Bool.eq_false_iff.mpr hpassed]
  | unserializable index elapsedMs gotRepr => rfl
  | error index elapsedMs error errorTruncated => rfl

end

/-- `gradeHarnessCase` with the test case of its own index. -/
def gradeOwn (testCases : List TestCase) (result : HarnessCase) : GradedHarnessCase :=
  gradeHarnessCase result (expectedOutputAt testCases result.index)

section
variable {results results' : List HarnessCase} {testCases : List TestCase} {result : HarnessCase}

/-! ## The graded list -/

theorem gradeHarnessResults_eq (h : Enumerates HarnessCase.index testCases.length results) :
    gradeHarnessResults results testCases =
      some ((results.insertionSort fun a b => a.index ≤ b.index).map (gradeOwn testCases)) := by
  rw [gradeHarnessResults, if_pos (hasExactCaseIndexes_iff.mpr h)]
  rfl

theorem gradeHarnessResults_eq_none (h : ¬ Enumerates HarnessCase.index testCases.length results) :
    gradeHarnessResults results testCases = none := by
  rw [gradeHarnessResults, if_neg (mt hasExactCaseIndexes_iff.mp h)]

theorem gradeHarnessResults_congr (h : results'.Perm results) :
    gradeHarnessResults results' testCases = gradeHarnessResults results testCases := by
  by_cases hexact : Enumerates HarnessCase.index testCases.length results
  · rw [gradeHarnessResults_eq hexact, gradeHarnessResults_eq ((enumerates_congr h).mpr hexact),
      hexact.insertionSort_congr h]
  · rw [gradeHarnessResults_eq_none hexact,
      gradeHarnessResults_eq_none (mt (enumerates_congr h).mp hexact)]

/-- The graded list of a payload, with the graded result of each test case at its place. -/
structure GradedList (results : List HarnessCase) (testCases : List TestCase)
    (graded : List GradedHarnessCase) : Prop where
  length_eq : graded.length = testCases.length
  own : ∀ (i : ℕ) (hi : i < graded.length), ∃ result ∈ results,
    result.index = i ∧ graded[i] = gradeOwn testCases result

theorem gradedList_of_enumerates (h : Enumerates HarnessCase.index testCases.length results) :
    GradedList results testCases
      ((results.insertionSort fun a b => a.index ≤ b.index).map (gradeOwn testCases)) := by
  have hindexes := h.map_insertionSort
  refine ⟨by rw [List.length_map, List.length_insertionSort, h.length_eq], fun i hi => ?_⟩
  rw [List.length_map] at hi
  have hcount : i < testCases.length := by rwa [List.length_insertionSort, h.length_eq] at hi
  have hindex : ((results.insertionSort fun a b => a.index ≤ b.index).map HarnessCase.index)[i]? =
      ((List.range testCases.length).map (Nat.cast : ℕ → ℤ))[i]? := by rw [hindexes]
  rw [List.getElem?_map, List.getElem?_map, List.getElem?_eq_getElem hi,
    List.getElem?_range hcount] at hindex
  refine ⟨_, (List.mem_insertionSort _).mp (List.getElem_mem hi), Option.some.inj hindex, ?_⟩
  rw [List.getElem_map]

variable {graded : List GradedHarnessCase}

theorem GradedList.index_eq (h : GradedList results testCases graded) {i : ℕ} (hi : i < graded.length) :
    graded[i].index = i := by
  obtain ⟨result, -, hindex, hgraded⟩ := h.own i hi
  rw [hgraded, gradeOwn, gradeHarnessCase_index, hindex, Int.toNat_natCast]

/-- The first failed case is the failed case of the least index. -/
theorem GradedList.isLeast_find (h : GradedList results testCases graded) {r : GradedHarnessCase}
    (hfind : (graded.find? fun r => !r.passed) = some r) :
    IsLeast {i | ∃ r ∈ graded, r.index = i ∧ r.passed = false} r.index := by
  obtain ⟨hfailed, i, hi, rfl, hbefore⟩ := List.find?_eq_some_iff_getElem.mp hfind
  rw [Bool.not_eq_true'] at hfailed
  constructor
  · exact ⟨graded[i], List.getElem_mem hi, rfl, hfailed⟩
  · rintro j ⟨r, hr, rfl, hfailed'⟩
    obtain ⟨j, hj, rfl⟩ := List.mem_iff_getElem.mp hr
    rw [h.index_eq hi, h.index_eq hj]
    by_contra hlt
    have hpassed := hbefore j (by omega)
    rw [hfailed'] at hpassed
    exact absurd hpassed (by decide)

/-! ## The two results -/

/-- What a run says about the test case at `i`. -/
structure GradedAgainst (results : List HarnessCase) (testCases : List TestCase) (i : ℕ)
    (expectedOutput : Option Json) (c : CaseResult) : Prop where
  index_eq : c.index = i
  own : ∃ result ∈ results, result.index = i ∧
    c = caseResult testCases (gradeHarnessCase result expectedOutput) ∧
    (c.passed ↔ ∃ elapsedMs gotJson gotRepr expected, result = .ok i elapsedMs gotJson gotRepr ∧
      expectedOutput = some expected ∧ isDeepStrictEqual gotJson expected)

theorem GradedList.against (h : GradedList results testCases graded) {i : ℕ} {testCase : TestCase}
    (hi : testCases[i]? = some testCase) :
    ∃ c, (graded.map (caseResult testCases))[i]? = some c ∧
      GradedAgainst results testCases i testCase.expectedOutput c := by
  obtain ⟨hlt, -⟩ := List.getElem?_eq_some_iff.mp hi
  rw [← h.length_eq] at hlt
  obtain ⟨result, hmem, hindex, hgraded⟩ := h.own i hlt
  have hexpected : expectedOutputAt testCases result.index = testCase.expectedOutput := by
    rw [expectedOutputAt, hindex, Int.toNat_natCast, hi, Option.bind_some]
  have hpassed : (caseResult testCases graded[i]).passed =
      result.passes (expectedOutputAt testCases result.index) := by
    rw [hgraded, ← gradeHarnessCase_passed]
    rfl
  refine ⟨caseResult testCases graded[i], ?_, h.index_eq hlt, result, hmem, hindex, ?_, ?_⟩
  · rw [List.getElem?_map, List.getElem?_eq_getElem hlt, Option.map_some]
  · rw [hgraded, gradeOwn, hexpected]
  · rw [hpassed, HarnessCase.passes_iff, hexpected, hindex]

theorem exists_failed_case {i : ℕ} : (∃ c ∈ graded.map (caseResult testCases), c.index = i ∧
    c.passed = false) ↔ ∃ r ∈ graded, r.index = i ∧ r.passed = false := by
  constructor
  · rintro ⟨c, hc, hindex, hfailed⟩
    obtain ⟨r, hr, rfl⟩ := List.mem_map.mp hc
    exact ⟨r, hr, hindex, hfailed⟩
  · rintro ⟨r, hr, hindex, hfailed⟩
    exact ⟨caseResult testCases r, List.mem_map_of_mem hr, hindex, hfailed⟩

end

/-- The run and the submission of one payload. -/
structure Graded (results : List HarnessCase) (testCases : List TestCase) (passed : ℕ)
    (cases : List CaseResult) (firstFailure : Option FirstFailure) : Prop where
  length_eq : cases.length = testCases.length
  against : ∀ (i : ℕ) (testCase : TestCase), testCases[i]? = some testCase → ∃ c, cases[i]? = some c ∧
    GradedAgainst results testCases i testCase.expectedOutput c
  passed_eq : passed = cases.countP (·.passed)
  none_iff : firstFailure = none ↔ ∀ c ∈ cases, c.passed
  isLeast : ∀ f ∈ firstFailure, IsLeast {i | ∃ c ∈ cases, c.index = i ∧ c.passed = false} f.index

section
variable {results : List HarnessCase} {testCases : List TestCase} {graded : List GradedHarnessCase}

theorem GradedList.gradedResults (h : GradedList results testCases graded) :
    Graded results testCases (graded.countP (·.passed)) (graded.map (caseResult testCases))
      ((graded.find? fun r => !r.passed).map (firstFailure testCases)) where
  length_eq := by rw [List.length_map, h.length_eq]
  against i testCase hi := h.against hi
  passed_eq := by
    rw [List.countP_map]
    rfl
  none_iff := by
    rw [Option.map_eq_none_iff, List.find?_eq_none, List.forall_mem_map]
    exact forall₂_congr fun r _ => by rw [Bool.not_eq_true', Bool.not_eq_false]; rfl
  isLeast f hf := by
    obtain ⟨r, hfind, rfl⟩ := Option.map_eq_some_iff.mp hf
    simp only [exists_failed_case]
    exact h.isLeast_find hfind

/-- Grading is complete, does not depend on the order of the results, and is the same for the two. -/
theorem grading_complete (results : List HarnessCase) (testCases : List TestCase)
    (userStdout : JsString) (userStdoutTruncated : Option Bool) :
    ((buildRunResult results userStdout testCases userStdoutTruncated).isSome ↔
        Enumerates HarnessCase.index testCases.length results) ∧
      ((buildSubmitResult results testCases).isSome ↔
        Enumerates HarnessCase.index testCases.length results) ∧
      (∀ results' : List HarnessCase, results'.Perm results →
        buildRunResult results' userStdout testCases userStdoutTruncated =
            buildRunResult results userStdout testCases userStdoutTruncated ∧
          buildSubmitResult results' testCases = buildSubmitResult results testCases) ∧
      (Enumerates HarnessCase.index testCases.length results →
        ∃ passed cases firstFailure,
          buildRunResult results userStdout testCases userStdoutTruncated =
              some (.run passed testCases.length cases userStdout (userStdoutTruncated = some true)) ∧
            buildSubmitResult results testCases =
              some (.submit passed testCases.length firstFailure) ∧
            Graded results testCases passed cases firstFailure) := by
  refine ⟨?_, ?_, fun results' hperm => ?_, fun h => ?_⟩
  · unfold buildRunResult
    by_cases h : Enumerates HarnessCase.index testCases.length results
    · rw [gradeHarnessResults_eq h]
      exact iff_of_true rfl h
    · rw [gradeHarnessResults_eq_none h]
      exact iff_of_false Bool.false_ne_true h
  · unfold buildSubmitResult
    by_cases h : Enumerates HarnessCase.index testCases.length results
    · rw [gradeHarnessResults_eq h]
      exact iff_of_true rfl h
    · rw [gradeHarnessResults_eq_none h]
      exact iff_of_false Bool.false_ne_true h
  · unfold buildRunResult buildSubmitResult
    rw [gradeHarnessResults_congr hperm]
    exact ⟨rfl, rfl⟩
  · have hgraded := gradedList_of_enumerates h
    have hcases := hgraded.gradedResults
    refine ⟨_, _, _, ?_, ?_, hcases⟩
    · rw [buildRunResult, gradeHarnessResults_eq h]
      dsimp only
      rw [← hcases.passed_eq, hcases.length_eq]
    · rw [buildSubmitResult, gradeHarnessResults_eq h]
      dsimp only
      rw [hgraded.length_eq]

end

/-! ## Hidden test cases -/

/-- What may be known of a test case: its data only where it is visible. -/
def visiblePart (testCase : TestCase) : Option TestCase :=
  if testCase.isVisible then some testCase else none

/-- The test case a result is for. -/
def caseAt (testCases : List TestCase) (index : ℤ) : Option TestCase :=
  if index < 0 then none else testCases[index.toNat]?

/-- What may be known of a result: whether its case passed, and all of it where the case is visible. -/
structure CaseView where
  index : ℤ
  passed : Option Bool
  shown : Option HarnessCase

def caseView (testCases : List TestCase) (result : HarnessCase) : CaseView where
  index := result.index
  passed := (caseAt testCases result.index).map fun testCase => result.passes testCase.expectedOutput
  shown := (caseAt testCases result.index).bind fun testCase =>
    if testCase.isVisible then some result else none

/-- The two differ only in what is hidden, and perhaps in the order of the results. -/
structure AgreeOnVisible (results : List HarnessCase) (testCases : List TestCase)
    (results' : List HarnessCase) (testCases' : List TestCase) : Prop where
  testCases_eq : testCases.map visiblePart = testCases'.map visiblePart
  results_perm : (results.map (caseView testCases)).Perm (results'.map (caseView testCases'))

section
variable {results results' : List HarnessCase} {testCases testCases' : List TestCase}
  {result result' : HarnessCase}

theorem AgreeOnVisible.length_eq (h : AgreeOnVisible results testCases results' testCases') :
    testCases.length = testCases'.length := by
  simpa using congrArg List.length h.testCases_eq

theorem AgreeOnVisible.enumerates_iff (h : AgreeOnVisible results testCases results' testCases') :
    Enumerates HarnessCase.index testCases.length results ↔
      Enumerates HarnessCase.index testCases'.length results' := by
  have hindexes : (results.map HarnessCase.index).Perm (results'.map HarnessCase.index) := by
    have hviews := h.results_perm.map CaseView.index
    rw [List.map_map, List.map_map] at hviews
    exact hviews
  rw [← h.length_eq]
  exact ⟨hindexes.symm.trans, hindexes.trans⟩

theorem map_insertionSort_caseView :
    (results.insertionSort fun a b => a.index ≤ b.index).map (caseView testCases) =
      (results.map (caseView testCases)).insertionSort fun a b => a.index ≤ b.index :=
  List.map_insertionSort _ _ _ _ fun _ _ _ _ => Iff.rfl

/-- In order, the views are the same. -/
theorem AgreeOnVisible.sorted_eq (h : AgreeOnVisible results testCases results' testCases')
    (hexact : Enumerates HarnessCase.index testCases'.length results') :
    (results.insertionSort fun a b => a.index ≤ b.index).map (caseView testCases) =
      (results'.insertionSort fun a b => a.index ≤ b.index).map (caseView testCases') := by
  have hviews : Enumerates CaseView.index testCases'.length (results'.map (caseView testCases')) := by
    rw [Enumerates, List.map_map]
    exact hexact
  rw [map_insertionSort_caseView, map_insertionSort_caseView]
  exact hviews.insertionSort_congr h.results_perm

theorem getElem?_of_caseAt {index : ℤ} {testCase : TestCase}
    (h : caseAt testCases index = some testCase) : testCases[index.toNat]? = some testCase := by
  unfold caseAt at h
  split_ifs at h
  exact h

theorem caseAt_of_mem (h : Enumerates HarnessCase.index testCases.length results)
    (hresult : result ∈ results) : ∃ testCase, caseAt testCases result.index = some testCase := by
  obtain ⟨hlow, hhigh⟩ := h.mem_iff.mp (List.mem_map_of_mem hresult)
  have hlt : result.index.toNat < testCases.length := by omega
  exact ⟨testCases[result.index.toNat], by
    rw [caseAt, if_neg (by omega), List.getElem?_eq_getElem hlt]⟩

theorem caseAt_of_view (hview : caseView testCases result = caseView testCases' result')
    {testCase : TestCase} (hat : caseAt testCases result.index = some testCase) :
    ∃ testCase', caseAt testCases' result'.index = some testCase' := by
  have hpassed := congrArg CaseView.passed hview
  simp only [caseView, hat, Option.map_some] at hpassed
  obtain ⟨testCase', hat', -⟩ := Option.map_eq_some_iff.mp hpassed.symm
  exact ⟨testCase', hat'⟩

/-- A submission reads nothing that tells the two apart. -/
structure SameToSubmission (testCases testCases' : List TestCase) (r r' : GradedHarnessCase) : Prop where
  passed_eq : r.passed = r'.passed
  failure_eq : firstFailure testCases r = firstFailure testCases' r'

theorem SameToSubmission.submission {graded graded' : List GradedHarnessCase}
    (h : List.Forall₂ (SameToSubmission testCases testCases') graded graded') :
    graded.countP (·.passed) = graded'.countP (·.passed) ∧ graded.length = graded'.length ∧
      (graded.find? fun r => !r.passed).map (firstFailure testCases) =
        (graded'.find? fun r => !r.passed).map (firstFailure testCases') := by
  induction h with
  | nil => exact ⟨rfl, rfl, rfl⟩
  | @cons r r' graded graded' hsame _ ih =>
    obtain ⟨hcount, hlength, hfailure⟩ := ih
    refine ⟨?_, ?_, ?_⟩
    · rw [List.countP_cons, List.countP_cons, hcount, hsame.passed_eq]
    · rw [List.length_cons, List.length_cons, hlength]
    · rw [List.find?_cons, List.find?_cons, hsame.passed_eq]
      cases r'.passed with
      | true => exact hfailure
      | false => exact congrArg some hsame.failure_eq

theorem firstFailure_hidden {testCase : TestCase} {r : GradedHarnessCase}
    (hcase : testCases[r.index]? = some testCase) (hhidden : testCase.isVisible = false) :
    firstFailure testCases r =
      ⟨r.index, [], js "Output did not match a hidden test case.", js "Hidden test case expectation.",
        false⟩ := by
  simp [firstFailure, hcase, hhidden]

theorem visiblePart_at (h : testCases.map visiblePart = testCases'.map visiblePart) {i : ℕ}
    {testCase testCase' : TestCase} (hcase : testCases[i]? = some testCase)
    (hcase' : testCases'[i]? = some testCase') : visiblePart testCase = visiblePart testCase' := by
  have hat : (testCases.map visiblePart)[i]? = (testCases'.map visiblePart)[i]? := by rw [h]
  rw [List.getElem?_map, List.getElem?_map, hcase, hcase'] at hat
  exact Option.some.inj hat

theorem visible_of_visiblePart_eq {testCase testCase' : TestCase}
    (h : visiblePart testCase = visiblePart testCase') :
    testCase.isVisible = testCase'.isVisible ∧ (testCase.isVisible → testCase = testCase') := by
  unfold visiblePart at h
  split_ifs at h with hvisible hvisible'
  · exact ⟨hvisible.trans hvisible'.symm, fun _ => Option.some.inj h⟩
  · rename_i hhidden
    rw [Bool.not_eq_true] at hvisible hhidden
    rw [hvisible, hhidden]
    exact ⟨rfl, nofun⟩

/-- Results of one view for test cases that agree: the same to a submission. -/
theorem sameToSubmission_of_view (hview : caseView testCases result = caseView testCases' result')
    {testCase testCase' : TestCase} (hat : caseAt testCases result.index = some testCase)
    (hat' : caseAt testCases' result'.index = some testCase')
    (hpart : visiblePart testCase = visiblePart testCase') :
    SameToSubmission testCases testCases' (gradeOwn testCases result) (gradeOwn testCases' result') := by
  have hindex : result.index = result'.index := congrArg CaseView.index hview
  have hpassed := congrArg CaseView.passed hview
  have hshown := congrArg CaseView.shown hview
  simp only [caseView, hat, hat', Option.map_some, Option.some.injEq, Option.bind_some] at hpassed hshown
  have hget := getElem?_of_caseAt hat
  have hget' := getElem?_of_caseAt hat'
  have hexpected : expectedOutputAt testCases result.index = testCase.expectedOutput := by
    rw [expectedOutputAt, hget, Option.bind_some]
  have hexpected' : expectedOutputAt testCases' result'.index = testCase'.expectedOutput := by
    rw [expectedOutputAt, hget', Option.bind_some]
  rw [gradeOwn, gradeOwn, hexpected, hexpected']
  obtain ⟨hvisible, hsame⟩ := visible_of_visiblePart_eq hpart
  refine ⟨by rw [gradeHarnessCase_passed, gradeHarnessCase_passed, hpassed], ?_⟩
  by_cases hisVisible : testCase.isVisible = true
  · rw [if_pos hisVisible, if_pos (hvisible ▸ hisVisible), Option.some.injEq] at hshown
    rw [← hsame hisVisible, ← hshown] at hget' ⊢
    rw [firstFailure, firstFailure, gradeHarnessCase_index, hget, hget']
  · rw [Bool.not_eq_true] at hisVisible
    rw [firstFailure_hidden (by rw [gradeHarnessCase_index]; exact hget) hisVisible,
      firstFailure_hidden (by rw [gradeHarnessCase_index]; exact hget') (hvisible ▸ hisVisible),
      gradeHarnessCase_index, gradeHarnessCase_index, hindex]

theorem AgreeOnVisible.sameToSubmission (h : AgreeOnVisible results testCases results' testCases')
    (hexact : Enumerates HarnessCase.index testCases'.length results') :
    List.Forall₂ (SameToSubmission testCases testCases')
      ((results.insertionSort fun a b => a.index ≤ b.index).map (gradeOwn testCases))
      ((results'.insertionSort fun a b => a.index ≤ b.index).map (gradeOwn testCases')) := by
  have hviews := h.sorted_eq hexact
  rw [← List.forall₂_eq_eq_eq, List.forall₂_map_left_iff, List.forall₂_map_right_iff] at hviews
  rw [List.forall₂_map_left_iff, List.forall₂_map_right_iff]
  have hknown : ∀ result ∈ results.insertionSort fun a b => a.index ≤ b.index,
      ∃ testCase, caseAt testCases result.index = some testCase := by
    intro result hresult
    exact caseAt_of_mem (h.enumerates_iff.mpr hexact) ((List.mem_insertionSort _).mp hresult)
  refine ((List.forall₂_and_left _ _).mpr ⟨hknown, hviews⟩).imp ?_
  rintro result result' ⟨⟨testCase, hat⟩, hview⟩
  obtain ⟨testCase', hat'⟩ := caseAt_of_view hview hat
  have hindex : result.index = result'.index := congrArg CaseView.index hview
  have hpart := visiblePart_at h.testCases_eq (getElem?_of_caseAt hat) (hindex ▸ getElem?_of_caseAt hat')
  exact sameToSubmission_of_view hview hat hat' hpart

/-- What a submission says does not depend on what is hidden. -/
theorem submit_secrecy (h : AgreeOnVisible results testCases results' testCases') :
    buildSubmitResult results testCases = buildSubmitResult results' testCases' := by
  unfold buildSubmitResult
  by_cases hexact : Enumerates HarnessCase.index testCases'.length results'
  · have hsame := h.sameToSubmission hexact
    obtain ⟨hcount, hlength, hfailure⟩ := SameToSubmission.submission hsame
    rw [gradeHarnessResults_eq hexact, gradeHarnessResults_eq (h.enumerates_iff.mpr hexact)]
    dsimp only
    rw [hcount, hlength, hfailure]
  · rw [gradeHarnessResults_eq_none hexact, gradeHarnessResults_eq_none (mt h.enumerates_iff.mp hexact)]

end

/-- A visible case that passes and a hidden one that does not. -/
def exampleCases (hidden : JsString) : List TestCase :=
  [⟨js "1", 7, [], some (.bool true), true, 0⟩, ⟨js "2", 7, [], some (.str hidden), false, 1⟩]

theorem submit_secrecy_two :
    buildSubmitResult [.ok 0 none (.bool true) none, .error 1 none (js "boom") (some true)]
        (exampleCases (js "a")) =
      buildSubmitResult [.ok 1 none (.str (js "a")) none, .ok 0 none (.bool true) none]
        (exampleCases (js "b")) :=
  submit_secrecy ⟨rfl, List.Perm.swap _ _ _⟩

end CodeShare
