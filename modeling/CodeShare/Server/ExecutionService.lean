import CodeShare.Foundations.Enumeration
import CodeShare.Server.ExecutionHandler
import CodeShare.Server.HarnessOutput

/-! # Grading

From the parsed output of a script to what the room is told: `harnessResultSchema`, the comparison with
the expected outputs, and the results of a run and of a submission.
-/

namespace CodeShare
open Enumeration
set_option autoImplicit false

/-! ## The schema

A schema gives back the value it accepts, and `none` when it finds an issue. -/

/-- A JSON value: its numbers are finite. A record is rebuilt without `__proto__`. -/
def jsonValueSchema : ParsedJson → Option Json
  | .null => some .null
  | .bool b => some (.bool b)
  | .finite x => some (.num x)
  | .infinite _ => none
  | .str text => some (.str text)
  | .arr items => (itemsSchema items).map .arr
  | .obj members => (membersSchema members).map .obj
where
  itemsSchema : List ParsedJson → Option (List Json)
    | [] => some []
    | v :: rest =>
      match jsonValueSchema v, itemsSchema rest with
      | some v, some rest => some (v :: rest)
      | _, _ => none
  membersSchema : List (JsString × ParsedJson) → Option (List (JsString × Json))
    | [] => some []
    | (k, v) :: rest =>
      if k = js "__proto__" then membersSchema rest
      else
        match jsonValueSchema v, membersSchema rest with
        | some v, some rest => some ((k, v) :: rest)
        | _, _ => none

def maxSafeInteger : ℤ := 2 ^ 53 - 1

/-- `z.number().int()`: a safe integer. -/
def integerSchema : ParsedJson → Option ℤ
  | .finite x => x.toInt.filter fun n => -maxSafeInteger ≤ n ∧ n ≤ maxSafeInteger
  | _ => none

def numberSchema : ParsedJson → Option JsNumber
  | .finite x => some x
  | _ => none

def stringSchema : ParsedJson → Option JsString
  | .str text => some text
  | _ => none

def booleanSchema : ParsedJson → Option Bool
  | .bool b => some b
  | _ => none

/-- `.optional()`; a property of a JSON object is missing or has a value. -/
def optionalSchema {β : Type} (schema : ParsedJson → Option β) : Option ParsedJson → Option (Option β)
  | none => some none
  | some v => (schema v).map some

/-- `.nullish()`. -/
def nullishSchema {β : Type} (schema : ParsedJson → Option β) : Option ParsedJson → Option (Option β)
  | none | some .null => some none
  | some v => (schema v).map some

inductive HarnessCase where
  | ok (index : ℤ) (elapsedMs : Option JsNumber) (gotJson : Json) (gotRepr : Option JsString)
  | unserializable (index : ℤ) (elapsedMs : Option JsNumber) (gotRepr : JsString)
  | error (index : ℤ) (elapsedMs : Option JsNumber) (error : JsString) (errorTruncated : Option Bool)

def HarnessCase.index : HarnessCase → ℤ
  | ok index .. | unserializable index .. | error index .. => index

def HarnessCase.elapsedMs : HarnessCase → Option JsNumber
  | ok _ elapsedMs .. | unserializable _ elapsedMs _ | error _ elapsedMs .. => elapsedMs

def harnessOkCaseSchema (v : ParsedJson) : Option HarnessCase := do
  let index ← (v.get (js "index")).bind integerSchema
  let elapsedMs ← optionalSchema numberSchema (v.get (js "elapsed_ms"))
  let gotJson ← (v.get (js "got_json")).bind jsonValueSchema
  let gotRepr ← nullishSchema stringSchema (v.get (js "got_repr"))
  some (.ok index elapsedMs gotJson gotRepr)

def harnessUnserializableCaseSchema (v : ParsedJson) : Option HarnessCase := do
  let index ← (v.get (js "index")).bind integerSchema
  let elapsedMs ← optionalSchema numberSchema (v.get (js "elapsed_ms"))
  let gotRepr ← (v.get (js "got_repr")).bind stringSchema
  some (.unserializable index elapsedMs gotRepr)

def harnessErrorCaseSchema (v : ParsedJson) : Option HarnessCase := do
  let index ← (v.get (js "index")).bind integerSchema
  let elapsedMs ← optionalSchema numberSchema (v.get (js "elapsed_ms"))
  let error ← (v.get (js "error")).bind stringSchema
  let errorTruncated ← optionalSchema booleanSchema (v.get (js "error_truncated"))
  some (.error index elapsedMs error errorTruncated)

/-- The union that `status` discriminates. -/
def harnessCaseSchema (v : ParsedJson) : Option HarnessCase :=
  match v.get (js "status") with
  | some (.str status) =>
    if status = js "ok" then harnessOkCaseSchema v
    else if status = js "unserializable" then harnessUnserializableCaseSchema v
    else if status = js "error" then harnessErrorCaseSchema v
    else none
  | _ => none

structure HarnessResultPayload where
  results : List HarnessCase
  userStdout : JsString
  /-- `metadata?.userStdoutTruncated` -/
  userStdoutTruncated : Option Bool

def metadataSchema : ParsedJson → Option (Option Bool)
  | v@(.obj _) => optionalSchema booleanSchema (v.get (js "userStdoutTruncated"))
  | _ => none

def casesSchema : ParsedJson → Option (List HarnessCase)
  | .arr items => items.mapM harnessCaseSchema
  | _ => none

def harnessResultSchema (v : ParsedJson) : Option HarnessResultPayload := do
  let results ← (v.get (js "results")).bind casesSchema
  let userStdout ← (v.get (js "userStdout")).bind stringSchema
  let metadata ← optionalSchema metadataSchema (v.get (js "metadata"))
  some ⟨results, userStdout, metadata.join⟩

/-! ## Grading -/

/-- `isDeepStrictEqual` on JSON values. -/
def isDeepStrictEqual : Json → Json → Bool
  | .null, .null => true
  | .bool a, .bool b => a = b
  | .num x, .num y => x.sameValue y
  | .str s, .str t => s = t
  | .arr items, .arr others => itemsEqual items others
  | .obj members, .obj others => members.length = others.length && membersEqual members others
  | _, _ => false
where
  itemsEqual : List Json → List Json → Bool
    | [], [] => true
    | v :: items, w :: others => isDeepStrictEqual v w && itemsEqual items others
    | _, _ => false
  membersEqual : List (JsString × Json) → List (JsString × Json) → Bool
    | [], _ => true
    | (k, v) :: members, others =>
      (match others.find? fun m => m.1 = k with
        | some m => isDeepStrictEqual v m.2
        | none => false) && membersEqual members others

/-- `none` is undefined. -/
def formatHarnessValue : Option Json → JsString
  | some v => v.stringify
  | none => js "undefined"

/-- The loop with the indexes seen so far. -/
def distinctIndexes (testCaseCount : ℕ) (seen : List ℤ) : List HarnessCase → Bool
  | [] => seen.length = testCaseCount
  | result :: rest =>
    if result.index < 0 ∨ (testCaseCount : ℤ) ≤ result.index ∨ result.index ∈ seen then false
    else distinctIndexes testCaseCount (seen ++ [result.index]) rest

def hasExactCaseIndexes (results : List HarnessCase) (testCaseCount : ℕ) : Bool :=
  results.length = testCaseCount && distinctIndexes testCaseCount [] results

structure GradedHarnessCase where
  index : ℕ
  passed : Bool
  elapsedMs : Option JsNumber
  got : Option JsString
  expected : Option JsString
  error : Option JsString
  isErrorTruncated : Option Bool

/-- One case against an expected output, which may be undefined. -/
def gradeHarnessCase (result : HarnessCase) (expectedOutput : Option Json) : GradedHarnessCase :=
  let index := result.index.toNat
  match result with
  | .error _ elapsedMs error errorTruncated =>
    ⟨index, false, elapsedMs, none, none, some error, errorTruncated⟩
  | .unserializable _ elapsedMs gotRepr =>
    ⟨index, false, elapsedMs, some gotRepr, some (formatHarnessValue expectedOutput), none, none⟩
  | .ok _ elapsedMs gotJson _ =>
    if expectedOutput.any (isDeepStrictEqual gotJson) then
      ⟨index, true, elapsedMs, none, none, none, none⟩
    else
      ⟨index, false, elapsedMs, some (formatHarnessValue (some gotJson)),
        some (formatHarnessValue expectedOutput), none, none⟩

def expectedOutputAt (testCases : List TestCase) (index : ℤ) : Option Json :=
  testCases[index.toNat]?.bind (·.expectedOutput)

def gradeHarnessResults (parsedResults : List HarnessCase) (testCases : List TestCase) :
    Option (List GradedHarnessCase) :=
  if hasExactCaseIndexes parsedResults testCases.length then
    some ((parsedResults.insertionSort fun a b => a.index ≤ b.index).map fun result =>
      gradeHarnessCase result (expectedOutputAt testCases result.index))
  else none

/-! ### Results in order -/

section
variable {results : List HarnessCase}

/-- The loop from what it has seen: no index out of bounds, seen before or twice. -/
theorem distinctIndexes_iff {count : ℕ} {seen : List ℤ} :
    distinctIndexes count seen results = true ↔
      seen.length + results.length = count ∧
        (∀ result ∈ results, 0 ≤ result.index ∧ result.index < count ∧ result.index ∉ seen) ∧
        (results.map HarnessCase.index).Nodup := by
  induction results generalizing seen with
  | nil => simp [distinctIndexes]
  | cons result rest ih =>
    rw [distinctIndexes]
    by_cases hbad : result.index < 0 ∨ (count : ℤ) ≤ result.index ∨ result.index ∈ seen
    · rw [if_pos hbad]
      refine iff_of_false Bool.false_ne_true fun h => ?_
      obtain ⟨hlow, hhigh, hfresh⟩ := h.2.1 result List.mem_cons_self
      rcases hbad with hneg | hlarge | hmem
      · omega
      · omega
      · exact hfresh hmem
    · rw [if_neg hbad, ih]
      rw [not_or, not_or, Int.not_lt, Int.not_le] at hbad
      simp only [List.length_append, List.length_cons, List.length_nil, List.mem_append,
        List.mem_cons, List.not_mem_nil, or_false, not_or, forall_eq_or_imp, List.map_cons,
        List.nodup_cons, List.mem_map, not_exists, not_and, hbad, not_false_eq_true, true_and]
      constructor
      · rintro ⟨hlength, hrest, hnodup⟩
        exact ⟨by omega, fun r hr => ⟨(hrest r hr).1, (hrest r hr).2.1, (hrest r hr).2.2.1⟩,
          fun r hr => (hrest r hr).2.2.2, hnodup⟩
      · rintro ⟨hlength, hrest, hne, hnodup⟩
        exact ⟨by omega, fun r hr => ⟨(hrest r hr).1, (hrest r hr).2.1, (hrest r hr).2.2, hne r hr⟩,
          hnodup⟩

theorem hasExactCaseIndexes_iff {count : ℕ} :
    hasExactCaseIndexes results count = true ↔ Enumerates HarnessCase.index count results := by
  rw [hasExactCaseIndexes, Bool.and_eq_true, decide_eq_true_iff, distinctIndexes_iff, enumerates_iff]
  simp only [List.not_mem_nil, not_false_eq_true, and_true, List.length_nil, Nat.zero_add]
  exact and_self_left

theorem getElem_index_range
    (h : results.map HarnessCase.index = (List.range results.length).map Nat.cast) (i : ℕ)
    (hi : i < results.length) : results[i].index = i := by
  have hget : (results.map HarnessCase.index)[i]? =
      ((List.range results.length).map (Nat.cast : ℕ → ℤ))[i]? := by rw [h]
  rw [List.getElem?_map, List.getElem?_map, List.getElem?_eq_getElem hi, List.getElem?_range hi] at hget
  exact Option.some.inj hget

theorem insertionSort_range
    (h : results.map HarnessCase.index = (List.range results.length).map Nat.cast) :
    (results.insertionSort fun a b => a.index ≤ b.index) = results := by
  apply List.Pairwise.insertionSort_eq
  have hsorted : ((List.range results.length).map (Nat.cast : ℕ → ℤ)).Pairwise (· ≤ ·) := by
    rw [List.pairwise_map]
    exact (List.pairwise_le_range).imp fun hle => Int.ofNat_le.mpr hle
  rw [← h, List.pairwise_map] at hsorted
  exact hsorted

/-- Results in the order of the test cases are graded position by position. -/
theorem gradeHarnessResults_range {testCases : List TestCase}
    (h : results.map HarnessCase.index = (List.range results.length).map Nat.cast)
    (hlength : results.length = testCases.length) :
    gradeHarnessResults results testCases =
      some (List.zipWith (fun result testCase => gradeHarnessCase result testCase.expectedOutput)
        results testCases) := by
  have hexact : hasExactCaseIndexes results testCases.length = true := by
    rw [hasExactCaseIndexes_iff, ← hlength, Enumerates, h]
  rw [gradeHarnessResults, if_pos hexact, insertionSort_range h, Option.some.injEq]
  apply List.ext_getElem
  · rw [List.length_map, List.length_zipWith, hlength, Nat.min_self]
  · intro i hi _
    rw [List.length_map] at hi
    have hi' : i < testCases.length := hlength ▸ hi
    have hexpected : expectedOutputAt testCases results[i].index = testCases[i].expectedOutput := by
      rw [expectedOutputAt, getElem_index_range h i hi, Int.toNat_natCast,
        List.getElem?_eq_getElem hi', Option.bind_some]
    rw [List.getElem_map, List.getElem_zipWith, hexpected]

end

/-! ## Results -/

/-- TIMEOUTS. -/
def slowCaseThresholdMs : ℚ := 500

def inputText (testCase : TestCase) : JsString := (Json.obj testCase.input).stringify

/-- A missing property and a `false` one are the same here. -/
def caseResult (testCases : List TestCase) (r : GradedHarnessCase) : CaseResult :=
  let elapsedMs := r.elapsedMs.getD (.ofDecimal false 0)
  let failed := !r.passed
  let hasError := failed && r.error.any (· ≠ [])
  { index := r.index
    passed := r.passed
    elapsedMs := elapsedMs
    slow := slowCaseThresholdMs < elapsedMs.value
    error := if hasError then r.error else none
    isErrorTruncated := hasError && r.isErrorTruncated = some true
    got := if failed && !hasError then r.got else none
    expected := if failed && !hasError then r.expected else none
    input := if failed then testCases[r.index]?.map inputText else none }

def buildRunResult (parsedResults : List HarnessCase) (userStdout : JsString)
    (testCases : List TestCase) (userStdoutTruncated : Option Bool) : Option ExecutionResult :=
  match gradeHarnessResults parsedResults testCases with
  | none => none
  | some gradedResults =>
    let cases := gradedResults.map (caseResult testCases)
    some (.run (cases.countP (·.passed)) cases.length cases userStdout
      (userStdoutTruncated = some true))

def firstFailure (allTestCases : List TestCase) (firstFailed : GradedHarnessCase) : FirstFailure :=
  let testCase := allTestCases[firstFailed.index]?
  let hiddenFailure := testCase.any fun testCase => !testCase.isVisible
  { index := firstFailed.index
    input := if hiddenFailure then [] else (testCase.map inputText).getD []
    got :=
      if hiddenFailure then js "Output did not match a hidden test case."
      else (firstFailed.got.or firstFailed.error).getD []
    expected :=
      if hiddenFailure then js "Hidden test case expectation."
      else firstFailed.expected.getD []
    isErrorTruncated := !hiddenFailure && firstFailed.isErrorTruncated = some true }

def buildSubmitResult (parsedResults : List HarnessCase) (allTestCases : List TestCase) :
    Option ExecutionResult :=
  match gradeHarnessResults parsedResults allTestCases with
  | none => none
  | some gradedResults =>
    some (.submit (gradedResults.countP (·.passed)) gradedResults.length
      ((gradedResults.find? fun r => !r.passed).map (firstFailure allTestCases)))

def ExecutionResult.total : ExecutionResult → ℕ
  | run _ total .. | submit _ total _ => total

def emitExecutionResult (executionType : ExecutionType) (parsedResults : HarnessResultPayload)
    (testCases : List TestCase) : Option ExecutionResult :=
  match executionType with
  | .run =>
    buildRunResult parsedResults.results parsedResults.userStdout testCases
      parsedResults.userStdoutTruncated
  | .submit => buildSubmitResult parsedResults.results testCases

/-! ## The reply -/

/-- `data.error`, which throws for null. -/
def errorProperty : ParsedJson → Except Failure (Option ParsedJson)
  | .null => .error (.error (js "Cannot read properties of null (reading 'error')"))
  | data => .ok (data.get (js "error"))

structure HarnessModuleError where
  error : Option ParsedJson
  errorType : ExecutionErrorType

def parseHarnessModuleError (parse : JsString → Option ParsedJson) (stdout nonce : JsString) :
    Except Failure (Option HarnessModuleError) :=
  match HarnessOutcome.compilationError.read parse stdout nonce with
  | .ok data => (errorProperty data).map fun error => some ⟨error, .compilationError⟩
  | .error _ =>
    match HarnessOutcome.runtimeError.read parse stdout nonce with
    | .ok data => (errorProperty data).map fun error => some ⟨error, .runtimeError⟩
    | .error _ => .ok none

/-- `sanitizeStderr` of a value that has been cast to a string: it throws for what has no `replace`. -/
def sanitizeUnknown : Option ParsedJson → Except Failure JsString
  | none | some .null | some (.bool false) => .ok (sanitizeStderr none)
  | some (.str text) => .ok (sanitizeStderr (some text))
  | some (.finite x) =>
    if x.significand = 0 then .ok (sanitizeStderr none)
    else .error (.error (js "stderr.replace is not a function"))
  | some _ => .error (.error (js "stderr.replace is not a function"))

def moduleErrorReply (moduleError : HarnessModuleError) : AcceptedReply :=
  (sanitizeUnknown moduleError.error).map (.error moduleError.errorType)

def validationFailed : ExecutionReply := .error .parseError (js "Execution results failed validation.")

/-- What follows `parseResult`. -/
def resultReply (executionType : ExecutionType) (testCases : List TestCase) :
    Except ParseFailureReason ParsedJson → ExecutionReply
  | .error .payloadTooLarge => .error .outputLimit (js "Execution output exceeded the allowed size.")
  | .error _ => .error .parseError (js "Could not parse execution results.")
  | .ok data =>
    match harnessResultSchema data with
    | none => validationFailed
    | some validated =>
      match emitExecutionResult executionType validated testCases with
      | some result => .result result
      | none => validationFailed

def handleAcceptedExecutionResult (parse : JsString → Option ParsedJson)
    (executionType : ExecutionType) (stdout nonce : JsString) (testCases : List TestCase) :
    AcceptedReply :=
  match parseHarnessModuleError parse stdout nonce with
  | .error failure => .error failure
  | .ok (some moduleError) => moduleErrorReply moduleError
  | .ok none => .ok (resultReply executionType testCases (parseResult parse stdout nonce))

/-- The handlers with the grading of what a script has printed. -/
def Config.withGrading (cfg : Config) (parse : JsString → Option ParsedJson) : Config :=
  { cfg with acceptedReply := handleAcceptedExecutionResult parse }

end CodeShare
