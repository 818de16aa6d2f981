import CodeShare.Text.Json

/-! # Shared types

The enumerations and records that server handlers and clients exchange. Identifiers and tokens are
numbers: `crypto.randomUUID` and `crypto.randomBytes` are modelled by a supply of values never used
before. Problem rows leave out the timestamps, which nothing modelled reads, and the solution column,
which `Database.solution` holds.
-/

namespace CodeShare
set_option autoImplicit false

abbrev SocketId := ℕ
abbrev UserId := ℕ
abbrev ProblemId := ℕ
abbrev Token := ℕ
/-- Milliseconds. -/
abbrev Time := ℕ

inductive RoomMode where
  | collaboration
  | interview
  deriving DecidableEq, Repr

inductive UserRole where
  | peer
  | interviewer
  | candidate
  deriving DecidableEq, Repr

inductive Difficulty where
  | easy
  | medium
  | hard
  deriving DecidableEq, Repr

inductive ExecutionType where
  | run
  | submit
  deriving DecidableEq, Repr

inductive ProblemSource where
  | curated
  | userSubmitted
  deriving DecidableEq, Repr

inductive ExecutionErrorType where
  | apiError
  | apiTimeout
  | compilationError
  | timeout
  | runtimeError
  | parseError
  | roomLimit
  | globalLimit
  | ipLimit
  | outputLimit
  deriving DecidableEq, Repr

inductive ImportStatus where
  | scraping
  | saved
  | failed
  deriving DecidableEq, Repr

inductive SupportedLanguage where
  | python
  deriving DecidableEq, Repr

/-! ## Problems -/

structure Problem where
  id : ProblemId
  slug : JsString
  title : JsString
  difficulty : Difficulty
  category : JsString
  description : JsString
  constraints : List JsString
  timeLimitMs : ℕ
  source : ProblemSource
  sourceUrl : Option JsString

/-- The database column that no room member should see before it is revealed. -/
structure Database where
  solution : ProblemId → Option JsString

/-- The source has `expectedOutput: unknown`, which undefined is too. -/
structure TestCase where
  id : JsString
  problemId : ProblemId
  input : List (JsString × Json)
  expectedOutput : Option Json
  isVisible : Bool
  orderIndex : ℕ

structure BoilerplateTemplate where
  problemId : ProblemId
  language : SupportedLanguage
  template : JsString
  methodName : JsString
  parameterNames : List JsString
deriving DecidableEq

structure Hint where
  problemId : ProblemId
  hintText : JsString
  orderIndex : ℕ

structure ProblemDetail extends Problem where
  visibleTestCases : List TestCase
  boilerplate : Option BoilerplateTemplate

/-- HINT_LIMIT_BY_DIFFICULTY. -/
def hintLimitByDifficulty : Difficulty → ℕ
  | .easy => 1
  | .medium => 2
  | .hard => 3

/-- ROOM_LIMITS. -/
def maxUsers : ℕ := 2
def maxTestCaseBytes : ℕ := 10 * 1024

/-! ## Rooms, as the clients see them -/

structure RoomUser where
  id : UserId
  displayName : JsString
  role : UserRole
  connected : Bool

structure PendingHintRequest where
  requestedBy : UserId
  requestedAt : Time
  deriving DecidableEq, Repr

/-- What `testcaseAddSchema` lets pass: `expectedOutput` may be null, but it has to be there. -/
structure CustomTestCase where
  input : List (JsString × Json)
  expectedOutput : Json

structure RoomState where
  mode : RoomMode
  maxUsers : ℕ
  users : List RoomUser
  problemId : Option ProblemId
  language : SupportedLanguage
  hintsUsed : ℕ
  hintLimit : ℕ
  pendingHintRequest : Option PendingHintRequest
  customTestCases : List CustomTestCase
  submissionsUsed : ℕ
  submissionLimit : ℕ
  executionInProgress : Bool
  createdAt : Time
  lastActivityAt : Time

/-! ## Execution results -/

structure CaseResult where
  index : ℕ
  passed : Bool
  elapsedMs : JsNumber
  got : Option JsString
  expected : Option JsString
  error : Option JsString
  isErrorTruncated : Bool
  input : Option JsString
  slow : Bool

structure FirstFailure where
  index : ℕ
  input : JsString
  got : JsString
  expected : JsString
  isErrorTruncated : Bool

inductive ExecutionResult where
  | run (passed total : ℕ) (cases : List CaseResult) (userStdout : JsString) (truncated : Bool)
  | submit (passed total : ℕ) (firstFailure : Option FirstFailure)

end CodeShare
