import CodeShare.Harness.Literals
import CodeShare.Server.HarnessOutput

/-! # The running script

The Python side of an execution: the parent starts the script again as one child for the preflight and
one for each test case, and collects what they write. User code acts on a child through what it
returns, raises and prints, and through how the process ends. A text on a pipe is held as its length
and as what `json.loads` reads from it.
-/

namespace CodeShare.Harness
set_option autoImplicit false

/-- The code points of a Python `str`. -/
abbrev PyText := List ℕ

/-- What the script takes from the Python implementation. -/
structure Runtime where
  /-- the finite floats without their sign -/
  Double : Type
  isZero : Double → Bool
  /-- the shortest decimal of a float, as `repr` writes it -/
  decimal : Bool → Double → JsNumber
  /-- `str` of a value that is no string -/
  text : PyVal Double → PyText
  /-- how deeply `json.dumps` lets brackets nest where the parent calls it -/
  jsonNesting : ℕ
  /-- room for a payload whose results hold no values -/
  jsonNesting_ge : 3 ≤ jsonNesting

/-! ## Values -/

section
variable {Double : Type}

/-- `dict.get`; `none` outside is the error of a value that is no dict. -/
def PyVal.get (value : PyVal Double) (key : String) : Option (Option (PyVal Double)) :=
  match value with
  | .dict entries => some ((entries.find? fun entry => entry.1 = js key).map Prod.snd)
  | _ => .none

def isText (value : Option (PyVal Double)) (text : String) : Bool :=
  match value with
  | some (.str t) => t = js text
  | _ => false

/-- `json.loads` of `json.dumps`: surrogate pairs are joined, and keys that become equal are one. -/
def reread : PyVal Double → PyVal Double
  | .str text => .str (codePoints text)
  | .list items => .list (rereadItems items)
  | .dict entries => dictOf (rereadEntries entries)
  | value => value
where
  rereadItems : List (PyVal Double) → List (PyVal Double)
    | [] => []
    | v :: rest => reread v :: rereadItems rest
  rereadEntries : List (List ℕ × PyVal Double) → List (List ℕ × PyVal Double)
    | [] => []
    | (k, v) :: rest => (codePoints k, reread v) :: rereadEntries rest

/-- A value that `json.loads` has returned: writing and reading it changes nothing. -/
structure LoadedValue (Double : Type) where
  value : PyVal Double
  reread_value : reread value = value

/-- Levels of brackets. -/
def pyNesting : PyVal Double → ℕ
  | .list items => itemsNesting items + 1
  | .dict entries => entriesNesting entries + 1
  | _ => 0
where
  itemsNesting : List (PyVal Double) → ℕ
    | [] => 0
    | v :: rest => max (pyNesting v) (itemsNesting rest)
  entriesNesting : List (List ℕ × PyVal Double) → ℕ
    | [] => 0
    | (_, v) :: rest => max (pyNesting v) (entriesNesting rest)

end

section
variable (R : Runtime)

def truthy : PyVal R.Double → Bool
  | .none => false
  | .bool b => b
  | .int n => n ≠ 0
  | .float _ magnitude => !R.isZero magnitude
  | .str text => text ≠ []
  | .list items => !items.isEmpty
  | .dict entries => !entries.isEmpty

def pyStr : PyVal R.Double → PyText
  | .str text => text
  | value => R.text value

def truncateText (value : PyVal R.Double) (limit : ℕ) : PyText × Bool :=
  let text := pyStr R value
  if text.length ≤ limit then (text, false) else (text.take limit, true)

/-- The argument is what `repr` returns; `none` is an exception. -/
def safeRepr (repr : Option PyText) : PyText :=
  (truncateText R (.str (repr.getD (js "<unrepresentable>"))) caseErrorChars).1

end

/-! ## Bounded output -/

structure BoundedStdout where
  limit : ℕ
  size : ℕ
  parts : List PyText
  truncated : Bool

namespace BoundedStdout

def new (limit : ℕ) : BoundedStdout := ⟨limit, 0, [], false⟩

def write (out : BoundedStdout) (text : PyText) : BoundedStdout :=
  let remaining := out.limit - out.size
  let chunk := text.take remaining
  { out with
    size := if 0 < remaining then out.size + chunk.length else out.size
    parts := if 0 < remaining then out.parts ++ [chunk] else out.parts
    truncated := out.truncated || decide (remaining < text.length) }

def getvalue (out : BoundedStdout) : PyText := out.parts.flatten

end BoundedStdout

/-! ## Results -/

section
variable (R : Runtime)

def caseErrorResult (index : ℕ) (elapsedMs error : PyVal R.Double) : PyVal R.Double :=
  let (truncatedError, isTruncated) := truncateText R error caseErrorChars
  .dict ([(js "index", .int index), (js "status", .str (js "error")), (js "elapsed_ms", elapsedMs),
    (js "error", .str truncatedError)] ++ if isTruncated then [(js "error_truncated", .bool true)] else [])

def childFailureResult (index : ℕ) (message : PyVal R.Double) : PyVal R.Double :=
  caseErrorResult R index (.int 0) message

/-- How the user's method ends in `_child_case`. A value comes as what `json.loads` makes of its
`json.dumps`; `none` is a TypeError or ValueError there. -/
inductive CaseRun (Double : Type) where
  | returned (elapsed : Double) (got : Option (LoadedValue Double)) (repr : Option PyText)
  | raised (elapsed : Double) (traceback : PyText)
  /-- an exception leaves `_child_case`, and `_child_main` catches it -/
  | escaped (traceback : PyText)

/-- What user code does in one child: the texts it prints, and how it ends. -/
structure ChildRun (Double : Type) where
  prints : List PyText
  ending : CaseRun Double

def okCaseResult (index : ℕ) (elapsed : R.Double) (got : PyVal R.Double) (repr : PyText) :
    PyVal R.Double :=
  .dict [(js "index", .int index), (js "status", .str (js "ok")),
    (js "elapsed_ms", .float false elapsed), (js "got_json", got), (js "got_repr", .str repr)]

def unserializableCaseResult (index : ℕ) (elapsed : R.Double) (repr : PyText) : PyVal R.Double :=
  .dict [(js "index", .int index), (js "status", .str (js "unserializable")),
    (js "elapsed_ms", .float false elapsed), (js "got_repr", .str repr)]

/-- `_child_case`, or the traceback of an exception that leaves it. -/
def childCase (index : ℕ) : CaseRun R.Double → Except PyText (PyVal R.Double)
  | .returned elapsed (some got) repr => .ok (okCaseResult R index elapsed got.value (safeRepr R repr))
  | .returned elapsed .none repr => .ok (unserializableCaseResult R index elapsed (safeRepr R repr))
  | .raised elapsed traceback => .ok (caseErrorResult R index (.float false elapsed) (.str traceback))
  | .escaped traceback => .error traceback

/-- What `_child_main` answers when it catches an exception. -/
def runtimeErrorReply (traceback : PyText) : PyVal R.Double :=
  let (error, truncated) := truncateText R (.str traceback) caseErrorChars
  .dict ([(js "status", .str (js "runtime_error")), (js "error", .str error)] ++
    if truncated then [(js "error_truncated", .bool true)] else [])

def okReply (result : PyVal R.Double) (stdoutCapture : BoundedStdout) : PyVal R.Double :=
  .dict [(js "status", .str (js "ok")), (js "result", result),
    (js "user_stdout", .str stdoutCapture.getvalue),
    (js "user_stdout_truncated", .bool stdoutCapture.truncated)]

/-- The answer of a child that runs a test case. -/
def childMain (index : ℕ) (run : ChildRun R.Double) : PyVal R.Double :=
  let stdoutCapture := run.prints.foldl BoundedStdout.write (.new userStdoutChars)
  match childCase R index run.ending with
  | .ok result => okReply R result stdoutCapture
  | .error traceback => runtimeErrorReply R traceback

end

/-! ## Processes -/

/-- What `json.loads` reads from a text of a given length; `none` is its error. -/
structure PipeText (Double : Type) where
  length : ℕ
  value : Option (PyVal Double)

/-- How a child ends, for the parent. -/
inductive ProcessEnd (Double : Type) where
  | timedOut (stderr : PyText)
  /-- starting it or talking to it fails -/
  | failed (traceback : PyText)
  | exited (returncode : ℤ) (stdout : PipeText Double) (stderr : PyText)

section
variable (R : Runtime)

def childError (error stderr : PyText) : PyVal R.Double :=
  .dict [(js "status", .str (js "child_error")), (js "error", .str error), (js "stderr", .str stderr)]

def runChild : ProcessEnd R.Double → PyVal R.Double
  | .timedOut stderr => childError R (js "Execution process timed out.") stderr
  | .failed traceback => childError R traceback []
  | .exited returncode stdout stderr =>
    if returncode ≠ 0 then childError R (js "Execution process exited unexpectedly.") stderr
    else if harnessPayloadChars < stdout.length then
      childError R (js "Execution process produced too much harness output.") stderr
    else
      match stdout.value with
      | some value => value
      | .none => childError R (js "Execution process returned invalid harness output.") stderr

/-- What the process of a test case can do. One that exits with code 0 has written its answer, or a text
that is no JSON. -/
inductive ChildBehaviour (Double : Type) where
  | completes (run : ChildRun Double) (length : ℕ) (stderr : PyText)
  | garbles (length : ℕ) (stderr : PyText)
  | exits (returncode : ℤ) (nonzero : returncode ≠ 0) (stdout : PipeText Double) (stderr : PyText)
  | timesOut (stderr : PyText)
  | fails (traceback : PyText)

def ChildBehaviour.processEnd (index : ℕ) : ChildBehaviour R.Double → ProcessEnd R.Double
  | completes run length stderr => .exited 0 ⟨length, some (reread (childMain R index run))⟩ stderr
  | garbles length stderr => .exited 0 ⟨length, .none⟩ stderr
  | exits returncode _ stdout stderr => .exited returncode stdout stderr
  | timesOut stderr => .timedOut stderr
  | fails traceback => .failed traceback

end

/-! ## The parent

`none` is an exception that nobody catches. -/

section
variable (R : Runtime)

/-- What is emitted, and the payload. -/
abbrev Emitted := HarnessOutcome × PyVal R.Double

def errorPayload (error : PyVal R.Double) : PyVal R.Double := .dict [(js "error", error)]

/-- `none` inside: no failure. -/
def handlePreflightFailure (result : PyVal R.Double) : Option (Option (Emitted R)) := do
  let error ← result.get "error"
  let error := error.getD (.str (js "Execution failed before running test cases."))
  let status ← result.get "status"
  if isText status "syntax_error" then some (some (.compilationError, errorPayload R error))
  else
    match status with
    | some (.list _) | some (.dict _) => .none  -- not hashable
    | status =>
      if isText status "runtime_error" || isText status "child_error" then
        some (some (.runtimeError, errorPayload R error))
      else some .none

/-- The results so far, and the output of the user code. -/
abbrev Collected := List (PyVal R.Double) × BoundedStdout

/-- The body of the loop. -/
def collect (collected : Collected R) (index : ℕ) (childResult : PyVal R.Double) :
    Option (Collected R) := do
  let (results, userStdout) := collected
  let status ← childResult.get "status"
  if isText status "ok" then
    let result ← childResult.get "result"
    let result ← result  -- a missing key is an error
    let printed ← childResult.get "user_stdout"
    let userStdout := userStdout.write (pyStr R (printed.getD (.str [])))
    let truncated ← childResult.get "user_stdout_truncated"
    some (results ++ [result],
      if truncated.any (truthy R) then { userStdout with truncated := true } else userStdout)
  else
    let error ← childResult.get "error"
    let error := error.getD (.str (js "Execution process failed."))
    some (results ++ [childFailureResult R index error], userStdout)

/-- The loop over the test cases, from the given index on. -/
def collectAll (collected : Collected R) (index : ℕ) :
    List (ProcessEnd R.Double) → Option (Collected R)
  | [] => some collected
  | child :: rest =>
    match collect R collected index (runChild R child) with
    | some collected => collectAll collected (index + 1) rest
    | .none => .none

def resultPayload (collected : Collected R) : PyVal R.Double :=
  .dict ([(js "results", .list collected.1), (js "userStdout", .str collected.2.getvalue)] ++
    if collected.2.truncated then
      [(js "metadata", .dict [(js "userStdoutTruncated", .bool true)])]
    else [])

/-- `json.dumps` fails for a payload that is nested too deeply. -/
def emitTaggedPayload (emitted : Emitted R) : Option (Emitted R) :=
  if pyNesting emitted.2 ≤ R.jsonNesting then some emitted else .none

/-- `_parent_main`, with how the child of the preflight and those of the test cases end. -/
def parentMain (preflight : ProcessEnd R.Double) (children : List (ProcessEnd R.Double)) :
    Option (Emitted R) :=
  match handlePreflightFailure R (runChild R preflight) with
  | .none => .none
  | some (some failure) => emitTaggedPayload R failure
  | some .none =>
    match collectAll R ([], .new userStdoutChars) 0 children with
    | .none => .none
    | some collected => emitTaggedPayload R (.result, resultPayload R collected)

end
end CodeShare.Harness
