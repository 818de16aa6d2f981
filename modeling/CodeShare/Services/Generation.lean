import CodeShare.Foundations.Tasks
import CodeShare.Room.Types
import CodeShare.Services.TestCaseGenerator
import CodeShare.Text.Json

/-! # Generating hidden test cases

`generateForProblem` of `TestCaseGeneratorService.ts` against the table of test cases. The guard, the choice
of the order indexes and the insert are statements of their own with calls of the model between them; any
number of runs may be at work at once. What the model is asked is left out, its answers are arbitrary.
-/

namespace CodeShare
open Tasks
set_option autoImplicit false

namespace Generation

/-! ## Texts -/

def codeFence : JsString := js "```"

/-- The group of the first match of /```(?:json)?\s*([\s\S]*?)```/. -/
def fencedText (text : JsString) : Option JsString := do
  let opening ← indexOf text codeFence 0
  let inner := text.drop (opening + codeFence.length)
  let inner := if js "json" <+: inner then inner.drop 4 else inner
  let closing ← indexOf inner codeFence 0
  return (inner.take closing).dropWhile isRegexSpace

/-- `JSON.parse` is the argument. -/
def parseGeneratedCases (parse : JsString → Option ParsedJson) (raw : JsString) :
    Option (List ParsedJson) :=
  let trimmed := jsTrim raw
  match parse (((fencedText trimmed).map jsTrim).getD trimmed) with
  | some (.arr items) => some items
  | _ => none

/-! ## The table -/

/-- A row of `test_cases`; which run has stored it is not in the source. A column of JSONB is given by
the text that it was written with. -/
structure TestCaseRow where
  problemId : ProblemId
  input : JsString
  expectedOutput : JsString
  isVisible : Bool
  orderIndex : ℤ
  storedBy : Option ℕ

def hiddenCases (table : List TestCaseRow) (problemId : ProblemId) : List TestCaseRow :=
  table.filter fun row => row.problemId = problemId ∧ row.isVisible = false

def countHidden (table : List TestCaseRow) (problemId : ProblemId) : ℕ :=
  (hiddenCases table problemId).length

def orderIndexes (table : List TestCaseRow) (problemId : ProblemId) : List ℤ :=
  (table.filter (·.problemId = problemId)).map (·.orderIndex)

def maxOrderIndex (table : List TestCaseRow) (problemId : ProblemId) : ℤ :=
  (orderIndexes table problemId).max?.getD (-1)

/-- `ON CONFLICT (problem_id, order_index) DO NOTHING`, for one row. -/
def insertRow (table : List TestCaseRow) (row : TestCaseRow) : List TestCaseRow :=
  if row.orderIndex ∈ orderIndexes table row.problemId then table else table ++ [row]

def createMany (table : List TestCaseRow) (rows : List TestCaseRow) : List TestCaseRow :=
  rows.foldl insertRow table

/-! ## Runs -/

/-- What a run is given of its problem, apart from the texts for the model. -/
structure GenerationContext where
  problemId : ProblemId
  parameterNames : List JsString
  visibleOutputs : List ParsedJson

/-- A run of `generateForProblem` in one of its attempts. -/
structure GenerationRun where
  run : ℕ
  attempt : ℕ
  context : GenerationContext

/-- What an attempt waits for. -/
inductive GenerationTask where
  | countHidden (x : GenerationRun)
  | generateCases (x : GenerationRun)
  | verifyCases (x : GenerationRun) (verified batch remaining : List ParsedJson)
  | maxOrderIndex (x : GenerationRun) (verified : List ParsedJson)
  | createMany (x : GenerationRun) (rows : List TestCaseRow)

/-- A statement is executed, or fails, or is executed and its answer gets lost; the model answers a call,
or all calls of a batch have been settled. -/
inductive GenerationOutcome where
  | executed
  | executedAndLost
  | answered (raw : JsString)
  | settled (answers : List (Option JsString))
  | failed

inductive GenerationEnd where
  | skipped
  | noValidCases
  | noVerifiedCases
  | completed (generatedCaseCount : ℕ)
  | failed

structure Generator where
  table : List TestCaseRow
  nextRun : ℕ

structure GeneratorConfig where
  parse : JsString → Option ParsedJson
  maxCases : ℕ

abbrev GenerationStep := Segment Generator GenerationTask GenerationEnd

def finish (s : Generator) (how : GenerationEnd) : GenerationStep := (Segment.of s).emit how

/-- There are two attempts. -/
def attemptFailed (s : Generator) (x : GenerationRun) : GenerationStep :=
  if x.attempt + 1 < 2 then (Segment.of s).suspend (.countHidden { x with attempt := x.attempt + 1 })
  else finish s .failed

def generateForProblem (s : Generator) (context : GenerationContext) : GenerationStep :=
  (Segment.of { s with nextRun := s.nextRun + 1 }).suspend (.countHidden ⟨s.nextRun, 0, context⟩)

def afterCountHidden (s : Generator) (x : GenerationRun) : GenerationOutcome → Option GenerationStep
  | .executed =>
    if 0 < countHidden s.table x.context.problemId then some (finish s .skipped)
    else some ((Segment.of s).suspend (.generateCases x))
  | .failed => some (attemptFailed s x)
  | _ => none

def batchSize : ℕ := 4

/-- The next turn of the loop in `verifyCases`, or what comes behind it. -/
def verifyNext (s : Generator) (x : GenerationRun) (verified remaining : List ParsedJson) :
    GenerationStep :=
  if remaining ≠ [] then
    (Segment.of s).suspend
      (.verifyCases x verified (remaining.take batchSize) (remaining.drop batchSize))
  else if verified = [] then finish s .noVerifiedCases
  else (Segment.of s).suspend (.maxOrderIndex x verified)

/-- What the parsing of the answer and the validation throw is caught by the loop over the attempts. -/
def afterGenerateCases (cfg : GeneratorConfig) (s : Generator) (x : GenerationRun) :
    GenerationOutcome → Option GenerationStep
  | .answered raw =>
    match (parseGeneratedCases cfg.parse raw).bind
        (structuralValidation cfg.maxCases x.context.parameterNames x.context.visibleOutputs) with
    | some [] => some (finish s .noValidCases)
    | some validated => some (verifyNext s x [] validated)
    | none => some (attemptFailed s x)
  | .failed => some (attemptFailed s x)
  | _ => none

/-- A call that was rejected verifies nothing, nor does an answer that cannot be parsed. -/
def verifyOneCase (cfg : GeneratorConfig) (testCase : ParsedJson) (answer : Option JsString) : Bool :=
  match answer.bind fun raw => cfg.parse (jsTrim raw) with
  | some verifiedOutput =>
    (testCase.get (js "expectedOutput")).any fun expectedOutput =>
      verifiedOutput.stringify = expectedOutput.stringify
  | none => false

def afterVerifyCases (cfg : GeneratorConfig) (s : Generator) (x : GenerationRun)
    (verified batch remaining : List ParsedJson) : GenerationOutcome → Option GenerationStep
  | .settled answers =>
    if answers.length = batch.length then
      let passed := (batch.zip answers).filter fun (testCase, answer) => verifyOneCase cfg testCase answer
      some (verifyNext s x (verified ++ passed.map Prod.fst) remaining)
    else none
  | _ => none

def newRow (x : GenerationRun) (startIndex : ℤ) (i : ℕ) (testCase : ParsedJson) : TestCaseRow where
  problemId := x.context.problemId
  input := ((testCase.get (js "input")).getD .null).stringify
  expectedOutput := ((testCase.get (js "expectedOutput")).getD .null).stringify
  isVisible := false
  orderIndex := startIndex + i
  storedBy := some x.run

def afterMaxOrderIndex (s : Generator) (x : GenerationRun) (verified : List ParsedJson) :
    GenerationOutcome → Option GenerationStep
  | .executed =>
    some ((Segment.of s).suspend (.createMany x
      (verified.mapIdx (newRow x (maxOrderIndex s.table x.context.problemId + 1)))))
  | .failed => some (attemptFailed s x)
  | _ => none

def afterCreateMany (s : Generator) (x : GenerationRun) (rows : List TestCaseRow) :
    GenerationOutcome → Option GenerationStep
  | .executed => some (finish { s with table := createMany s.table rows } (.completed rows.length))
  | .executedAndLost => some (attemptFailed { s with table := createMany s.table rows } x)
  | .failed => some (attemptFailed s x)
  | _ => none

def generator (cfg : GeneratorConfig) :
    Machine Generator GenerationTask GenerationContext GenerationOutcome GenerationEnd where
  handle s context := some (generateForProblem s context)
  resume s
    | .countHidden x, o => afterCountHidden s x o
    | .generateCases x, o => afterGenerateCases cfg s x o
    | .verifyCases x verified batch remaining, o => afterVerifyCases cfg s x verified batch remaining o
    | .maxOrderIndex x verified, o => afterMaxOrderIndex s x verified o
    | .createMany x rows, o => afterCreateMany s x rows o

abbrev GeneratorConf := Conf Generator GenerationTask
abbrev GeneratorAct := Act GenerationContext GenerationOutcome
abbrev GeneratorTrigger := Trigger GenerationContext GenerationTask GenerationOutcome

/-- The constraint of the table: order indexes are unique within a problem. -/
def Indexed (table : List TestCaseRow) : Prop := ∀ p, (orderIndexes table p).Nodup

/-- Tables before the first run. -/
structure Stored where
  table : List TestCaseRow
  indexed : Indexed table
  unattributed : ∀ row ∈ table, row.storedBy = none

def Stored.initial (stored : Stored) : GeneratorConf := ⟨⟨stored.table, 0⟩, []⟩

end Generation
end CodeShare
