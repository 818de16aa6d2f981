import CodeShare.Server.State

/-! # Executions

`code:run` and `code:submit`. Between `executionInProgress = true` and the `finally` block the handler
waits for test cases, the other resources, the operation limiter, the daily quota and Judge0.
-/

namespace CodeShare
open Tasks
set_option autoImplicit false

def executionErrorToSocket (g : Step) (x : Execution) (errorType : ExecutionErrorType)
    (message : JsString) : Step :=
  g.toSocket x.socket (.executionError errorType message)

def executionErrorToRoom (g : Step) (errorType : ExecutionErrorType) (message : JsString) : Step :=
  g.toRoom (.executionError errorType message)

/-- The handler of both events: a session needs a room with a problem. -/
def createExecutionSession (s : Server) (socket : SocketId) (executionType : ExecutionType) : Step :=
  match s.getRoom with
  | none => .of s
  | some room =>
    if room.problemId = none then .of s
    else
      (Segment.of { s with nextHandler := s.nextHandler + 1 }).suspend
        (.executionIpLimiter ⟨s.nextHandler, socket, executionType⟩)

/-- `submissionReserved`, and the error that is on its way to `catch`. -/
def settle (g : Step) (x : Execution) (submissionReserved : Bool) (failure : Option Failure) : Step :=
  g.suspend (.executionSettling x submissionReserved failure)

/-- The lock is taken and the code read, up to the first database query. -/
def startExecution (cfg : Config) (s : Server) (x : Execution) (problemId : ProblemId) : Step :=
  let g := ((Segment.of s).modifyRoom fun room => { room with executionInProgress := true }).toRoom
    (.executionStarted x.executionType)
  let code := s.doc.getD []
  if utf8Length code ≤ cfg.maxCodeBytes then g.suspend (.executionCases x code problemId)
  else
    settle (executionErrorToRoom g .apiError (js "Code size limit exceeded (" ++
      decimalUnits cfg.maxCodeBytes ++ js " bytes).")) x false none

def afterExecutionIpLimiter (cfg : Config) (s : Server) (x : Execution) : Outcome → Option Step
  | .allowed =>
    match s.room.canExecute, s.room.problemId with
    | some reason, _ => some (executionErrorToSocket (.of s) x .roomLimit reason)
    | none, some problemId => some (startExecution cfg s x problemId)
    | none, none => none
  | .limited retryAfterSeconds =>
    some (executionErrorToSocket (.of s) x .ipLimit (js "Too many executions. Try again in " ++
      decimalUnits retryAfterSeconds ++ js "s."))
  | .failed _ => some ((Segment.of s).emit .unhandledRejection)
  | _ => none

/-- Custom cases behind the visible ones, under the problem that the room has by now. -/
def customCases (room : Room) (problemId : ProblemId) (visible : List TestCase) : List TestCase :=
  room.customTestCases.mapIdx fun index testCase =>
    { id := js "custom-" ++ decimalUnits index
      problemId := problemId
      input := testCase.input
      expectedOutput := some testCase.expectedOutput
      isVisible := true
      orderIndex := visible.length + index }

/-- `loadTestCases`; the rows come from the problem that was asked for. -/
def afterExecutionCases (s : Server) (x : Execution) (code : JsString) (problemId : ProblemId) :
    Outcome → Option Step
  | .cases rows =>
    if rows.all fun row => row.problemId = problemId then
      match x.executionType, s.room.problemId with
      | .submit, _ => some ((Segment.of s).suspend (.executionRest x code problemId rows))
      | .run, some current =>
        some (((Segment.of s).emit (.customCasesLoaded problemId s.room.customTestCases)).suspend
          (.executionRest x code problemId (rows ++ customCases s.room current rows)))
      | .run, none => none
    else none
  | .failed reason => some (settle (.of s) x false (some reason))
  | _ => none

def afterExecutionRest (cfg : Config) (s : Server) (x : Execution) (code : JsString)
    (problemId : ProblemId) (testCases : List TestCase) : Outcome → Option Step
  | .resources (some boilerplate) (some problem) =>
    if boilerplate.problemId = problemId ∧ problem.id = problemId then
      let loaded : LoadedExecutionResources := ⟨code, testCases, boilerplate, problem⟩
      if cfg.hasJudge0Limiter then some ((Segment.of s).suspend (.executionLimiter x loaded))
      else some ((Segment.of s).suspend (.executionReserve x loaded))
    else none
  | .resources _ _ =>
    some (settle (executionErrorToRoom (.of s) .apiError (js "Problem configuration not found.")) x
      false none)
  | .failed reason => some (settle (.of s) x false (some reason))
  | _ => none

def afterExecutionLimiter (s : Server) (x : Execution) (loaded : LoadedExecutionResources) :
    Outcome → Option Step
  | .go => some ((Segment.of s).suspend (.executionReserve x loaded))
  | .failed reason => some (settle (.of s) x false (some reason))
  | _ => none

def harness (loaded : LoadedExecutionResources) (nonce : JsString) : JsString :=
  Harness.buildPythonHarness loaded.code (loaded.testCases.map fun testCase => ⟨testCase.input⟩)
    loaded.boilerplate.methodName nonce

/-- `reserveSubmission`, then the call to Judge0. -/
def afterExecutionReserve (s : Server) (x : Execution) (loaded : LoadedExecutionResources) :
    Outcome → Option Step
  | .granted nonce =>
    some ((((Segment.of s).emit (.executionReserved x.handler)).emit
      (.judge0Submit (harness loaded nonce) loaded.problem.timeLimitMs)).suspend
        (.executionJudge0 x loaded nonce))
  | .answer false =>
    some (settle (executionErrorToRoom (.of s) .globalLimit
      (js "Daily execution limit reached. Please try again tomorrow.")) x false none)
  | .failed reason => some (settle (.of s) x false (some reason))
  | _ => none

/-- The server's own directories, as sanitizeStderr strips them. -/
def systemDirectories : List JsString :=
  [js "/usr/", js "/home/", js "/tmp/", js "/var/", js "/etc/", js "/opt/", js "/root/", js "/proc/",
    js "/sys/", js "/lib/", js "/run/", js "/snap/", js "/nix/", js "/srv/", js "/mnt/",
    js "/media/", js "/boot/"]

/-- Without the paths; the flag says that a path is being skipped. -/
def stripPaths (skipping : Bool) : JsString → JsString
  | [] => []
  | c :: rest =>
    if skipping && !(isRegexSpace c || c = 58) then stripPaths true rest
    else if systemDirectories.any fun directory => decide (directory <+: c :: rest) then
      stripPaths true rest
    else c :: stripPaths false rest

def maxStderrChars : ℕ := 500

def sanitizeStderr : Option JsString → JsString
  | none | some [] => js "Unknown error."
  | some stderr =>
    let stripped := stripPaths false stderr
    if maxStderrChars < stripped.length then stripped.take maxStderrChars ++ js "..." else stripped

/-- `emitJudge0StatusError`: the error of a status that is not accepted. -/
def judge0StatusError (response : Judge0Response) : Option (ExecutionErrorType × JsString) :=
  if response.statusId = 6 then some (.compilationError, sanitizeStderr response.stderr)
  else if response.statusId = 5 then some (.timeout, js "Time limit exceeded.")
  else if 7 ≤ response.statusId then some (.runtimeError, sanitizeStderr response.stderr)
  else none

def afterExecutionJudge0 (cfg : Config) (s : Server) (x : Execution)
    (loaded : LoadedExecutionResources) (nonce : JsString) : Outcome → Option Step
  | .response response =>
    match judge0StatusError response with
    | some (errorType, message) =>
      some (settle (executionErrorToRoom (.of s) errorType message) x true none)
    | none =>
      match cfg.acceptedReply x.executionType (response.stdout.getD []) nonce loaded.testCases with
      | .ok reply => some (settle ((Segment.of s).toRoom reply.message) x true none)
      | .error reason => some (settle (.of s) x true (some reason))
  | .failed reason => some (settle (.of s) x true (some reason))
  | _ => none

/-- The `catch` of `handleExecution`. -/
def executionFailureError : Failure → ExecutionErrorType × JsString
  | .capacity retryAfterSeconds =>
    (.apiError, js "Execution service is busy. Try again in " ++ decimalUnits retryAfterSeconds ++
      js "s.")
  | .aborted message => (.apiTimeout, message)
  | .error message => (.apiError, message)
  | .other => (.apiError, js "Execution failed.")

/-- The `finally` of `handleExecution`. -/
def finishExecution (g : Step) (x : Execution) (submissionReserved : Bool) : Step :=
  (g.modify fun s => { s with room := { s.room with
    executionInProgress := false
    submissionsUsed := if submissionReserved then s.room.submissionsUsed + 1 else s.room.submissionsUsed
    lastActivityAt := s.now } }).emit (.executionFinished x.handler)

def afterExecutionSettling (s : Server) (x : Execution) (submissionReserved : Bool) :
    Option Failure → Step
  | none => finishExecution (.of s) x submissionReserved
  | some failure =>
    let (errorType, message) := executionFailureError failure
    finishExecution (executionErrorToRoom (.of s) errorType message) x submissionReserved

end CodeShare
