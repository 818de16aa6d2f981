import CodeShare.Harness.CaseEntries
import CodeShare.Harness.Transport

/-! # Harness and grader

What the children do never costs an entry its index or a field, so the grader finds the results in the
order of the test cases. Two kinds of returned values cost all of them: an integer that no double can
hold, which the schema rejects, and brackets that nest too deeply for the payload around them, which
`json.dumps` rejects.
-/

namespace CodeShare
open Harness
set_option autoImplicit false

section
variable (R : Runtime)

/-! ## One entry -/

def entryElapsedMs (elapsed : Option R.Double) : JsNumber :=
  elapsed.elim (.ofDecimal false 0) (R.decimal false)

/-- What the schema makes of an entry with a safe index. -/
def readEntry (index : ℤ) : CaseEntry R.Double → Option HarnessCase
  | .ok elapsed got repr =>
    (jsonValueSchema (parsed R got.value)).map fun gotJson =>
      .ok index (some (R.decimal false elapsed)) gotJson (some (utf16 repr))
  | .unserializable elapsed repr =>
    some (.unserializable index (some (R.decimal false elapsed)) (utf16 repr))
  | .error elapsed text truncated =>
    some (.error index (some (entryElapsedMs R elapsed)) (utf16 text)
      (if truncated then some true else none))

theorem readEntry_isSome (index : ℤ) (entry : CaseEntry R.Double) :
    (readEntry R index entry).isSome ↔ ∀ got ∈ entry.got, Representable R got.value := by
  cases entry with
  | ok elapsed got repr =>
    rw [readEntry, Option.isSome_map, jsonValueSchema_parsed, CaseEntry.got]
    simp
  | unserializable elapsed repr => simp [readEntry, CaseEntry.got]
  | error elapsed text truncated => simp [readEntry, CaseEntry.got]

theorem readEntry_index {index : ℤ} {entry : CaseEntry R.Double} {result : HarnessCase}
    (h : readEntry R index entry = some result) : result.index = index := by
  cases entry with
  | ok elapsed got repr =>
    obtain ⟨gotJson, -, rfl⟩ := Option.map_eq_some_iff.mp h
    rfl
  | unserializable elapsed repr =>
    obtain rfl := Option.some.inj h
    rfl
  | error elapsed text truncated =>
    obtain rfl := Option.some.inj h
    rfl

section
variable (index : ℕ)

theorem harnessCaseSchema_ok (elapsed : R.Double) (got : LoadedValue R.Double) (repr : PyText) :
    harnessCaseSchema (parsed R ((CaseEntry.ok elapsed got repr).toPy R index)) =
      (integerSchema (.ofInt index)).bind fun i => readEntry R i (.ok elapsed got repr) := by
  have hget := get_parsed_dict R
    [(js "index", .int index), (js "status", .str (js "ok")),
      (js "elapsed_ms", .float false elapsed), (js "got_json", got.value), (js "got_repr", .str repr)]
    ["index", "status", "elapsed_ms", "got_json", "got_repr"] rfl (by decide)
  rw [CaseEntry.toPy, okCaseResult]
  generalize parsed R (.dict _) = v at hget ⊢
  have hindex : v.get (js "index") = some (.ofInt index) := hget _
  have hstatus : v.get (js "status") = some (.str (js "ok")) := hget _
  have helapsed : v.get (js "elapsed_ms") = some (.finite (R.decimal false elapsed)) := hget _
  have hgot : v.get (js "got_json") = some (parsed R got.value) := hget _
  have hrepr : v.get (js "got_repr") = some (.str (utf16 repr)) := hget _
  rw [harnessCaseSchema, hstatus]
  dsimp only
  rw [if_pos rfl, harnessOkCaseSchema, hindex, helapsed, hgot, hrepr,
    Option.bind_some (ParsedJson.ofInt index), Option.bind_some (parsed R got.value)]
  generalize integerSchema (.ofInt index) = safeIndex
  cases safeIndex with
  | none => rfl
  | some i =>
    rw [Option.bind_some i, readEntry]
    cases jsonValueSchema (parsed R got.value) <;> rfl

theorem harnessCaseSchema_unserializable (elapsed : R.Double) (repr : PyText) :
    harnessCaseSchema (parsed R ((CaseEntry.unserializable elapsed repr).toPy R index)) =
      (integerSchema (.ofInt index)).bind fun i => readEntry R i (.unserializable elapsed repr) := by
  have hget := get_parsed_dict R
    [(js "index", .int index), (js "status", .str (js "unserializable")),
      (js "elapsed_ms", .float false elapsed), (js "got_repr", .str repr)]
    ["index", "status", "elapsed_ms", "got_repr"] rfl (by decide)
  rw [CaseEntry.toPy, unserializableCaseResult]
  generalize parsed R (.dict _) = v at hget ⊢
  have hindex : v.get (js "index") = some (.ofInt index) := hget _
  have hstatus : v.get (js "status") = some (.str (js "unserializable")) := hget _
  have helapsed : v.get (js "elapsed_ms") = some (.finite (R.decimal false elapsed)) := hget _
  have hrepr : v.get (js "got_repr") = some (.str (utf16 repr)) := hget _
  rw [harnessCaseSchema, hstatus]
  dsimp only
  rw [if_neg (by decide), if_pos rfl, harnessUnserializableCaseSchema, hindex, helapsed, hrepr,
    Option.bind_some]
  generalize integerSchema (.ofInt index) = safeIndex
  cases safeIndex <;> rfl

theorem harnessCaseSchema_error (elapsed : Option R.Double) (text : PyText) (truncated : Bool) :
    harnessCaseSchema (parsed R ((CaseEntry.error elapsed text truncated).toPy R index)) =
      (integerSchema (.ofInt index)).bind fun i => readEntry R i (.error elapsed text truncated) := by
  have hfields : ∃ v : ParsedJson, parsed R ((CaseEntry.error elapsed text truncated).toPy R index) = v ∧
      v.get (js "index") = some (.ofInt index) ∧
      v.get (js "status") = some (.str (js "error")) ∧
      v.get (js "elapsed_ms") = some (parsed R (elapsed.elim (.int 0) (.float false))) ∧
      v.get (js "error") = some (.str (utf16 text)) ∧
      v.get (js "error_truncated") = if truncated then some (.bool true) else none := by
    refine ⟨_, rfl, ?_⟩
    cases truncated with
    | true =>
      have hget := get_parsed_dict R
        [(js "index", .int index), (js "status", .str (js "error")),
          (js "elapsed_ms", elapsed.elim (.int 0) (.float false)), (js "error", .str text),
          (js "error_truncated", .bool true)]
        ["index", "status", "elapsed_ms", "error", "error_truncated"] rfl (by decide)
      exact ⟨hget _, hget _, hget _, hget _, hget _⟩
    | false =>
      have hget := get_parsed_dict R
        [(js "index", .int index), (js "status", .str (js "error")),
          (js "elapsed_ms", elapsed.elim (.int 0) (.float false)), (js "error", .str text)]
        ["index", "status", "elapsed_ms", "error"] rfl (by decide)
      exact ⟨hget _, hget _, hget _, hget _, hget _⟩
  obtain ⟨v, hv, hindex, hstatus, helapsed, herror, htruncated⟩ := hfields
  have hnumber : numberSchema (parsed R (elapsed.elim (.int 0) (.float false))) =
      some (entryElapsedMs R elapsed) := by
    cases elapsed with
    | some elapsed => rfl
    | none =>
      rw [Option.elim, parsed, ofInt_zero]
      rfl
  rw [hv, harnessCaseSchema, hstatus]
  dsimp only
  rw [if_neg (by decide), if_neg (by decide), if_pos rfl, harnessErrorCaseSchema, hindex, helapsed, herror,
    htruncated, optionalSchema, hnumber, Option.bind_some]
  generalize integerSchema (.ofInt index) = safeIndex
  cases safeIndex with
  | none => rfl
  | some i => cases truncated <;> rfl

/-- An entry is read when its index is safe, and then to what it holds. -/
theorem harnessCaseSchema_toPy (entry : CaseEntry R.Double) :
    harnessCaseSchema (parsed R (entry.toPy R index)) =
      if index < 2 ^ 53 then readEntry R index entry else none := by
  have hread : harnessCaseSchema (parsed R (entry.toPy R index)) =
      (integerSchema (.ofInt index)).bind fun i => readEntry R i entry := by
    cases entry with
    | ok elapsed got repr => exact harnessCaseSchema_ok R index elapsed got repr
    | unserializable elapsed repr => exact harnessCaseSchema_unserializable R index elapsed repr
    | error elapsed text truncated => exact harnessCaseSchema_error R index elapsed text truncated
  rw [hread, integerSchema_ofInt]
  split_ifs
  · rfl
  · rfl

/-! ## All entries -/

theorem casesSchema_cons (v : ParsedJson) (rest : List ParsedJson) :
    casesSchema (.arr (v :: rest)) =
      (harnessCaseSchema v).bind fun result => (casesSchema (.arr rest)).map (result :: ·) := by
  rw [casesSchema, casesSchema, List.mapM_cons]
  cases harnessCaseSchema v with
  | none => rfl
  | some result => cases rest.mapM harnessCaseSchema <;> rfl

theorem casesSchema_isSome (entries : List (CaseEntry R.Double)) :
    (casesSchema (.arr (parsed.parsedItems R (entriesFrom R index entries)))).isSome ↔
      entries.length ≤ 2 ^ 53 - index ∧
        ∀ entry ∈ entries, ∀ got ∈ entry.got, Representable R got.value := by
  induction entries generalizing index with
  | nil => simp [entriesFrom, parsed.parsedItems, casesSchema]
  | cons entry rest ih =>
    have hstep := readEntry_isSome R index entry
    rw [entriesFrom, parsed.parsedItems, casesSchema_cons, harnessCaseSchema_toPy, List.length_cons,
      List.forall_mem_cons, ← hstep]
    have hrest := ih (index + 1)
    by_cases hindex : index < 2 ^ 53
    · rw [if_pos hindex]
      cases readEntry R index entry with
      | none => simp
      | some result =>
        rw [Option.bind_some, Option.isSome_map, hrest]
        constructor
        · rintro ⟨hlength, hall⟩
          exact ⟨by omega, rfl, hall⟩
        · rintro ⟨hlength, -, hall⟩
          exact ⟨by omega, hall⟩
    · rw [if_neg hindex]
      constructor
      · intro h
        cases h
      · rintro ⟨hlength, -⟩
        omega

/-- The results carry the indexes in order. -/
theorem casesSchema_index {entries : List (CaseEntry R.Double)} {results : List HarnessCase}
    (h : casesSchema (.arr (parsed.parsedItems R (entriesFrom R index entries))) = some results) :
    results.map HarnessCase.index = (List.range' index entries.length).map Nat.cast := by
  induction entries generalizing index results with
  | nil =>
    obtain rfl := Option.some.inj h
    rfl
  | cons entry rest ih =>
    rw [entriesFrom, parsed.parsedItems, casesSchema_cons, harnessCaseSchema_toPy,
      Option.bind_eq_some_iff] at h
    obtain ⟨result, hread, hrest⟩ := h
    obtain ⟨results', hrest', rfl⟩ := Option.map_eq_some_iff.mp hrest
    split_ifs at hread
    rw [List.map_cons, ih (index + 1) hrest', readEntry_index R hread, List.length_cons,
      List.range'_succ, List.map_cons]

end

/-! ## The payload -/

theorem harnessResultSchema_resultPayload (collected : Collected R) :
    harnessResultSchema (parsed R (resultPayload R collected)) =
      (casesSchema (.arr (parsed.parsedItems R collected.1))).map fun results =>
        ⟨results, utf16 collected.2.getvalue, if collected.2.truncated then some true else none⟩ := by
  obtain ⟨results, userStdout⟩ := collected
  have hfields : ∃ v : ParsedJson, parsed R (resultPayload R (results, userStdout)) = v ∧
      v.get (js "results") = some (.arr (parsed.parsedItems R results)) ∧
      v.get (js "userStdout") = some (.str (utf16 userStdout.getvalue)) ∧
      optionalSchema metadataSchema (v.get (js "metadata")) =
        some (if userStdout.truncated then some (some true) else none) := by
    refine ⟨_, rfl, ?_⟩
    rw [resultPayload]
    cases htruncated : userStdout.truncated with
    | true =>
      have hget := get_parsed_dict R
        [(js "results", .list results), (js "userStdout", .str userStdout.getvalue),
          (js "metadata", .dict [(js "userStdoutTruncated", .bool true)])]
        ["results", "userStdout", "metadata"] rfl (by decide)
      have hmetadata : optionalSchema metadataSchema
          (some (parsed R (.dict [(js "userStdoutTruncated", .bool true)]))) = some (some (some true)) := by
        have htrue : (parsed R (.dict [(js "userStdoutTruncated", .bool true)])).get
            (js "userStdoutTruncated") = some (.bool true) :=
          get_parsed_dict R _ ["userStdoutTruncated"] rfl (by decide) _
        rw [parsed] at htrue ⊢
        rw [optionalSchema, metadataSchema, htrue]
        rfl
      exact ⟨hget _, hget _, (congrArg _ (hget _)).trans hmetadata⟩
    | false =>
      have hget := get_parsed_dict R
        [(js "results", .list results), (js "userStdout", .str userStdout.getvalue)]
        ["results", "userStdout"] rfl (by decide)
      exact ⟨hget _, hget _, congrArg _ (hget (js "metadata"))⟩
  obtain ⟨v, hv, hresults, hstdout, hmetadata⟩ := hfields
  rw [hv, harnessResultSchema, hresults, hstdout, hmetadata, Option.bind_some (ParsedJson.arr _)]
  cases casesSchema (.arr (parsed.parsedItems R results)) with
  | none => rfl
  | some results => cases userStdout.truncated <;> rfl

/-! ## Nesting -/

theorem pyNesting_toPy (index : ℕ) (entry : CaseEntry R.Double) :
    pyNesting (entry.toPy R index) = (entry.got.elim 0 fun got => pyNesting got.value) + 1 := by
  cases entry with
  | ok elapsed got repr =>
    rw [CaseEntry.toPy, okCaseResult, pyNesting]
    simp [pyNesting.entriesNesting, pyNesting, CaseEntry.got]
  | unserializable elapsed repr => rfl
  | error elapsed text truncated => cases elapsed <;> cases truncated <;> rfl

theorem itemsNesting_entriesFrom {k : ℕ} (index : ℕ) (entries : List (CaseEntry R.Double)) :
    pyNesting.itemsNesting (entriesFrom R index entries) ≤ k + 1 ↔
      ∀ entry ∈ entries, ∀ got ∈ entry.got, pyNesting got.value ≤ k := by
  induction entries generalizing index with
  | nil => simp [entriesFrom, pyNesting.itemsNesting]
  | cons entry rest ih =>
    have hentry : (entry.got.elim 0 fun got => pyNesting got.value) ≤ k ↔
        ∀ got ∈ entry.got, pyNesting got.value ≤ k := by
      cases entry.got <;> simp
    rw [entriesFrom, pyNesting.itemsNesting, Nat.max_le, pyNesting_toPy, Nat.add_le_add_iff_right,
      hentry, ih, List.forall_mem_cons]

/-- The payload adds three levels. -/
theorem pyNesting_resultPayload (entries : List (CaseEntry R.Double)) (userStdout : BoundedStdout) :
    pyNesting (resultPayload R (entriesFrom R 0 entries, userStdout)) ≤ R.jsonNesting ↔
      ∀ entry ∈ entries, ∀ got ∈ entry.got, pyNesting got.value + 3 ≤ R.jsonNesting := by
  obtain ⟨k, hk⟩ := Nat.exists_eq_add_of_le R.jsonNesting_ge
  have hitems : pyNesting (resultPayload R (entriesFrom R 0 entries, userStdout)) ≤ R.jsonNesting ↔
      pyNesting.itemsNesting (entriesFrom R 0 entries) ≤ k + 1 := by
    rw [resultPayload, hk]
    cases userStdout.truncated <;> simp [pyNesting, pyNesting.entriesNesting] <;> omega
  have hbound : ∀ levels, levels + 3 ≤ R.jsonNesting ↔ levels ≤ k := by
    intro levels
    omega
  rw [hitems, itemsNesting_entriesFrom]
  simp only [hbound]

/-! ## The run -/

section
variable {preflight : ProcessEnd R.Double} {cases : List (TestCase × ChildBehaviour R.Double)}

/-- What the script emits is read by the schema as one result for each test case, in order, and graded
against the expected output of that test case. -/
def Aligned (preflight : ProcessEnd R.Double) (cases : List (TestCase × ChildBehaviour R.Double)) :
    Prop :=
  ∃ payload data,
    parentMain R preflight (processEnds R 0 (cases.map Prod.snd)) = some (.result, payload) ∧
    harnessResultSchema (parsed R payload) = some data ∧
    data.results.map HarnessCase.index = (List.range cases.length).map Nat.cast ∧
    gradeHarnessResults data.results (cases.map Prod.fst) =
      some (List.zipWith (fun result testCase => gradeHarnessCase result testCase.expectedOutput)
        data.results (cases.map Prod.fst)) ∧
    ∀ executionType, ∃ result,
      emitExecutionResult executionType data (cases.map Prod.fst) = some result ∧
        result.total = cases.length

/-- A returned value that arrives. -/
structure Transmissible (got : LoadedValue R.Double) : Prop where
  representable : Representable R got.value
  shallow : pyNesting got.value + 3 ≤ R.jsonNesting

theorem parentMain_passes (hpass : handlePreflightFailure R (runChild R preflight) = some none)
    (children : List (ChildBehaviour R.Double)) :
    ∃ entries userStdout,
      parentMain R preflight (processEnds R 0 children) =
        emitTaggedPayload R (.result, resultPayload R (entriesFrom R 0 entries, userStdout)) ∧
      entries.map CaseEntry.got = children.map ChildBehaviour.returned := by
  obtain ⟨entries, userStdout, hall, hgots⟩ :=
    collectAll_behaviours R children ([], .new userStdoutChars) 0
  refine ⟨entries, userStdout, ?_, hgots⟩
  rw [parentMain, hpass]
  dsimp only
  rw [hall, List.nil_append]

/-- The values of the entries are those that the children return. -/
theorem forall_got_iff {entries : List (CaseEntry R.Double)}
    (hgots : entries.map CaseEntry.got = (cases.map Prod.snd).map ChildBehaviour.returned)
    (P : LoadedValue R.Double → Prop) :
    (∀ entry ∈ entries, ∀ got ∈ entry.got, P got) ↔ ∀ c ∈ cases, ∀ got ∈ c.2.returned, P got := by
  calc (∀ entry ∈ entries, ∀ got ∈ entry.got, P got)
      ↔ ∀ returned ∈ entries.map CaseEntry.got, ∀ got ∈ returned, P got :=
        (List.forall_mem_map (P := fun returned => ∀ got ∈ returned, P got)).symm
    _ ↔ ∀ returned ∈ cases.map fun c => c.2.returned, ∀ got ∈ returned, P got := by
      rw [hgots, List.map_map]
      rfl
    _ ↔ ∀ c ∈ cases, ∀ got ∈ c.2.returned, P got :=
        List.forall_mem_map (P := fun returned => ∀ got ∈ returned, P got)

/-- Results in order are never refused. -/
theorem emitExecutionResult_range {data : HarnessResultPayload} {testCases : List TestCase}
    (h : data.results.map HarnessCase.index = (List.range data.results.length).map Nat.cast)
    (hlength : data.results.length = testCases.length) (executionType : ExecutionType) :
    ∃ result, emitExecutionResult executionType data testCases = some result ∧
      result.total = testCases.length := by
  have hgraded := gradeHarnessResults_range h hlength
  have htotal : (List.zipWith (fun result testCase => gradeHarnessCase result testCase.expectedOutput)
      data.results testCases).length = testCases.length := by
    rw [List.length_zipWith, hlength, Nat.min_self]
  cases executionType with
  | run =>
    refine ⟨_, by rw [emitExecutionResult, buildRunResult, hgraded], ?_⟩
    rw [ExecutionResult.total, List.length_map, htotal]
  | submit =>
    refine ⟨_, by rw [emitExecutionResult, buildSubmitResult, hgraded], ?_⟩
    rw [ExecutionResult.total, htotal]

theorem Aligned.transmissible
    (hpass : handlePreflightFailure R (runChild R preflight) = some none)
    (h : Aligned R preflight cases) :
    cases.length ≤ 2 ^ 53 ∧ ∀ c ∈ cases, ∀ got ∈ c.2.returned, Transmissible R got := by
  obtain ⟨payload, data, hmain, hdata, hindexes, -, -⟩ := h
  obtain ⟨entries, userStdout, hemit, hgots⟩ := parentMain_passes R hpass (cases.map Prod.snd)
  rw [hemit, emitTaggedPayload] at hmain
  split_ifs at hmain with hnesting
  obtain ⟨-, rfl⟩ := Prod.mk.inj (Option.some.inj hmain)
  rw [harnessResultSchema_resultPayload, Option.map_eq_some_iff] at hdata
  obtain ⟨results, hresults, -⟩ := hdata
  have hread := (casesSchema_isSome R 0 entries).mp (by rw [hresults]; rfl)
  have hlength : entries.length = cases.length := by
    have := congrArg List.length hgots
    simpa using this
  refine ⟨by omega, fun c hc got hgot => ⟨?_, ?_⟩⟩
  · exact (forall_got_iff R hgots _).mp hread.2 c hc got hgot
  · exact (forall_got_iff R hgots _).mp ((pyNesting_resultPayload R entries userStdout).mp hnesting) c hc got hgot

/-- In a run that passes the preflight, harness and grader are aligned exactly when there are at most 2^53
test cases and every value that a child returns can be transmitted. -/
theorem aligned_iff (hpass : handlePreflightFailure R (runChild R preflight) = some none) :
    Aligned R preflight cases ↔
      cases.length ≤ 2 ^ 53 ∧ ∀ c ∈ cases, ∀ got ∈ c.2.returned, Transmissible R got := by
  refine ⟨Aligned.transmissible R hpass, ?_⟩
  rintro ⟨hcount, hall⟩
  obtain ⟨entries, userStdout, hemit, hgots⟩ := parentMain_passes R hpass (cases.map Prod.snd)
  have hlength : entries.length = cases.length := by
    have hlengths := congrArg List.length hgots
    simpa using hlengths
  have hnesting := (pyNesting_resultPayload R entries userStdout).mpr
    ((forall_got_iff R hgots _).mpr fun c hc got hgot => (hall c hc got hgot).shallow)
  have hread := (casesSchema_isSome R 0 entries).mpr
    ⟨by omega, (forall_got_iff R hgots _).mpr fun c hc got hgot => (hall c hc got hgot).representable⟩
  obtain ⟨results, hresults⟩ := Option.isSome_iff_exists.mp hread
  obtain ⟨data, hdata, rfl⟩ : ∃ data,
      harnessResultSchema (parsed R (resultPayload R (entriesFrom R 0 entries, userStdout))) = some data ∧
        data.results = results := by
    rw [harnessResultSchema_resultPayload, hresults]
    exact ⟨_, rfl, rfl⟩
  have hindexes : data.results.map HarnessCase.index = (List.range cases.length).map Nat.cast := by
    rw [casesSchema_index R 0 hresults, hlength, List.range_eq_range']
  have hcases : data.results.length = cases.length := by
    have hlengths := congrArg List.length hindexes
    simpa using hlengths
  have htestCases : data.results.length = (cases.map Prod.fst).length := by rw [hcases, List.length_map]
  rw [← hcases] at hindexes
  refine ⟨_, data, ?_, hdata, ?_, ?_, ?_⟩
  · rw [hemit, emitTaggedPayload, if_pos hnesting]
  · rw [hindexes, hcases]
  · exact gradeHarnessResults_range hindexes htestCases
  · intro executionType
    obtain ⟨result, hresult, htotal⟩ := emitExecutionResult_range hindexes htestCases executionType
    exact ⟨result, hresult, by rw [htotal, List.length_map]⟩

end

end

/-! ## Two runs -/

/-- Times are whole milliseconds here. -/
def exampleRuntime : Runtime where
  Double := ℕ
  isZero n := n = 0
  decimal := JsNumber.ofDecimal
  text _ := []
  jsonNesting := 900
  jsonNesting_ge := by decide

def passedPreflight : ProcessEnd ℕ :=
  .exited 0 ⟨16, some (.dict [(js "status", .str (js "ok"))])⟩ []

theorem passedPreflight_passes :
    handlePreflightFailure exampleRuntime (runChild exampleRuntime passedPreflight) = some none := rfl

def exampleTestCase : TestCase where
  id := js "case"
  problemId := 7
  input := []
  expectedOutput := some (.bool true)
  isVisible := true
  orderIndex := 0

/-- The method returns `True`. -/
def returnsTrue : ChildBehaviour ℕ :=
  .completes ⟨[], .returned 3 (some ⟨.bool true, rfl⟩) (some (js "True"))⟩ 120 []

theorem aligned_iff_example :
    Aligned exampleRuntime passedPreflight
      [(exampleTestCase, returnsTrue), (exampleTestCase, .timesOut [])] := by
  have hcondition : [(exampleTestCase, returnsTrue), (exampleTestCase, .timesOut [])].length ≤ 2 ^ 53 ∧
      ∀ c ∈ [(exampleTestCase, returnsTrue), (exampleTestCase, .timesOut [])], ∀ got ∈ c.2.returned,
        Transmissible exampleRuntime got := by
    refine ⟨Nat.le_of_ble_eq_true rfl, ?_⟩
    intro c hc got hgot
    rcases List.mem_pair.mp hc with rfl | rfl
    · obtain rfl := Option.some.inj hgot
      exact ⟨trivial, by decide⟩
    · cases hgot
  exact (aligned_iff exampleRuntime passedPreflight_passes).mpr hcondition

/-- The method returns 10 ** 400, which `json.dumps` writes as an integer. -/
def returnsHugeInteger : ChildBehaviour ℕ :=
  .completes ⟨[], .returned 3 (some ⟨.int (10 ^ 400), rfl⟩) (some [])⟩ 920 []

theorem numberOfInt_huge : (numberOfInt (10 ^ 400)).isSome = false := by decide +kernel

/-- One such value, and the results of the whole run are not read. -/
theorem huge_integer_misaligns :
    ¬ ∀ (R : Runtime) (preflight : ProcessEnd R.Double)
      (cases : List (TestCase × ChildBehaviour R.Double)),
      handlePreflightFailure R (runChild R preflight) = some none → Aligned R preflight cases := by
  intro hclaim
  have haligned := hclaim exampleRuntime passedPreflight [(exampleTestCase, returnsHugeInteger)]
    passedPreflight_passes
  have htransmissible := (haligned.transmissible exampleRuntime passedPreflight_passes).2 _
    (List.mem_singleton_self _) ⟨.int (10 ^ 400), rfl⟩ rfl
  have hnumber : (numberOfInt (10 ^ 400)).isSome = true := htransmissible.representable
  rw [numberOfInt_huge] at hnumber
  cases hnumber

end CodeShare
