import CodeShare.Foundations.Tasks
import CodeShare.Harness.PythonHarness
import CodeShare.Room.Room

/-! # The server around one room

The state that the Socket.IO handlers share, the messages they send, and the places at which they
wait. A `Task` is one suspended handler: one constructor for each await, with what the code behind
it still needs. Logging is not modelled; configured limits and services are the fields of `Config`.
-/

namespace CodeShare
open Tasks
set_option autoImplicit false

/-! ## Messages -/

/-- The Socket.IO messages of the server; absent optional fields are `none`. -/
inductive Message where
  | userJoined (userId : UserId) (displayName : JsString) (role : UserRole) (mode : RoomMode)
      (reconnectToken yjsToken : Option Token)
  | userLeft (userId : UserId)
  | roomFull
  | roomSync (state : RoomState)
  | problemLoaded (problem : ProblemDetail) (solution : Option JsString)
      (visibleTestCases : List TestCase) (boilerplate : JsString) (parameterNames : List JsString)
  | problemError (message : JsString)
  | problemImportStatus (status : ImportStatus) (message : Option JsString)
      (retryAfterSeconds : Option ℕ)
  | executionStarted (executionType : ExecutionType)
  | executionResult (result : ExecutionResult)
  | executionError (errorType : ExecutionErrorType) (message : JsString)
  | hintPending (requestedBy : UserId) (displayName : JsString) (hintsUsed hintLimit : ℕ)
  | hintDenied
  | hintChunk (text : JsString)
  | hintDone (fullHint : JsString) (hintsRemaining : ℤ)
  | hintError (message : JsString)
  | solutionRevealed (solution : JsString)
  | testcaseAdded (testCase : CustomTestCase)
  | testcaseError (message : JsString)
  | eventRejected (event reason : JsString) (retryAfterSeconds : Option ℕ)
  | accessRequired (reason : JsString)
  | yjsTokenRotated (yjsToken : Token)

/-- A presented reconnect token: in the format of RECONNECT_TOKEN_PATTERN, or not. -/
inductive PresentedToken where
  | wellFormed (token : Token)
  | malformed

structure UserJoinPayload where
  displayName : JsString
  reconnectToken : Option PresentedToken

/-- The events of the clients that have a handler. A payload is `none` when its schema rejects it. -/
inductive ClientEvent where
  | userJoin (payload : Option UserJoinPayload)
  | problemSelect (problemId : Option ProblemId)
  | problemImport (leetcodeUrl : Option JsString)
  | codeRun
  | codeSubmit
  | hintRequest
  | hintApprove
  | hintDeny
  | solutionReveal
  | testcaseAdd (testCase : Option CustomTestCase)

def ClientEvent.name : ClientEvent → JsString
  | userJoin _ => js "user:join"
  | problemSelect _ => js "problem:select"
  | problemImport _ => js "problem:import"
  | codeRun => js "code:run"
  | codeSubmit => js "code:submit"
  | hintRequest => js "hint:request"
  | hintApprove => js "hint:approve"
  | hintDeny => js "hint:deny"
  | solutionReveal => js "solution:reveal"
  | testcaseAdd _ => js "testcase:add"

/-! ## What handlers wait for -/

/-- Why an awaited call rejected. -/
inductive Failure where
  | capacity (retryAfterSeconds : ℕ)  -- `OperationLimitExceededError`
  | aborted (message : JsString)  -- a `DOMException` named `AbortError`
  | error (message : JsString)
  | other  -- not an `Error`

structure Judge0Response where
  stdout : Option JsString
  stderr : Option JsString
  statusId : ℕ

/-- What an awaited call comes back with. -/
inductive Outcome where
  | go
  | allowed
  | limited (retryAfterSeconds : ℕ)
  | answer (yes : Bool)
  | granted (nonce : JsString)
  | failed (reason : Failure)
  | cases (testCases : List TestCase)
  | resources (boilerplate : Option BoilerplateTemplate) (problem : Option Problem)
  | boilerplate (found : Option BoilerplateTemplate)
  | response (response : Judge0Response)
  | hint (found : Option Hint)
  | problem (found : Option Problem)
  | detail (found : Option ProblemDetail)
  | imported (problemId : ProblemId)
  | chunk (text : JsString)
  | streamEnd

/-! ## Suspended handlers -/

/-- An execution handler; the number tells handlers apart and is not in the source. -/
structure Execution where
  handler : ℕ
  socket : SocketId
  executionType : ExecutionType

structure LoadedExecutionResources where
  code : JsString
  testCases : List TestCase
  boilerplate : BoilerplateTemplate
  problem : Problem

/-- A hint delivery, with what it passed to `findStoredHint`. -/
structure Delivery where
  socket : SocketId
  problemId : Option ProblemId
  position : ℕ

/-- The request an answering user saw pending when the middleware let the answer pass. -/
structure SeenRequest where
  request : PendingRequest
  user : UserId
  deriving DecidableEq

/-- What `buildLLMMessages` is given. -/
structure HintPrompt where
  problemId : ProblemId
  description : JsString
  constraints : List JsString
  currentCode : JsString
  hintLevel : ℕ
  previousHints : List JsString

inductive Task where
  /-- `next()` was called; the handler runs on a later tick -/
  | admitted (socket : SocketId) (event : ClientEvent) (seen : Option SeenRequest)
  | joinLimiter (socket : SocketId) (payload : UserJoinPayload)
  /-- in `emitRoomHydration`; the user is announced afterwards unless it had joined before -/
  | hydrating (socket : SocketId) (problemId : Option ProblemId) (announced : Option RoomUser)
  | executionIpLimiter (x : Execution)
  | executionCases (x : Execution) (code : JsString) (problemId : ProblemId)
  | executionRest (x : Execution) (code : JsString) (problemId : ProblemId) (testCases : List TestCase)
  | executionLimiter (x : Execution) (loaded : LoadedExecutionResources)
  | executionReserve (x : Execution) (loaded : LoadedExecutionResources)
  | executionJudge0 (x : Execution) (loaded : LoadedExecutionResources) (nonce : JsString)
  /-- on the way to `catch` and `finally` -/
  | executionSettling (x : Execution) (submissionReserved : Bool) (failure : Option Failure)
  | hintStored (d : Delivery)
  | hintIpLimiter (d : Delivery)
  | hintQuota (d : Delivery)
  | hintProblem (d : Delivery) (problemId : ProblemId)
  | hintLimiter (d : Delivery) (prompt : HintPrompt)
  | hintReserve (d : Delivery) (prompt : HintPrompt)
  | hintStream (d : Delivery) (prompt : HintPrompt) (generated : JsString) (closing : Bool)
  | hintFailing (d : Delivery) (failure : Failure)
  | selecting (socket : SocketId) (problemId : ProblemId)
  | importIpLimiter (socket : SocketId) (leetcodeUrl : JsString)
  | importQuota (socket : SocketId) (leetcodeUrl : JsString)
  | importLimiter (socket : SocketId) (leetcodeUrl : JsString)
  | importReserve (socket : SocketId) (leetcodeUrl : JsString)
  | importScrape (socket : SocketId) (leetcodeUrl : JsString)
  | importLoad (socket : SocketId) (problemId : ProblemId)
  | importFailing (socket : SocketId) (failure : Failure)
  | addingTestCase (socket : SocketId) (testCase : CustomTestCase) (problemId : ProblemId)
  | revealing (socket : SocketId) (problemId : ProblemId)

/-! ## The shared state -/

inductive TimerKind where
  | grace (userId : UserId)
  | consent
  deriving DecidableEq, Repr

structure Timer where
  id : TimerId
  due : Time
  kind : TimerKind
  deriving DecidableEq, Repr

structure Server where
  room : Room
  /-- the room manager still has the room under its code -/
  registered : Bool
  /-- connected sockets -/
  live : List SocketId
  /-- sockets in the Socket.IO room -/
  joined : List SocketId
  /-- pending timeouts -/
  timers : List Timer
  /-- the entry of `consentTimers` -/
  consentTimer : Option TimerId
  /-- `socket.data.lastHintRequestTime` -/
  lastHintRequestTime : SocketId → Option Time
  /-- the text of the shared document, when there is one -/
  doc : Option JsString
  now : Time
  /-- the next unused identifier or token -/
  fresh : ℕ
  nextTimer : TimerId
  nextSocket : SocketId
  nextHandler : ℕ
  nextRequest : ℕ

/-- What a segment shows: messages, calls to the services behind the server, and notes about its
course that no code sees. -/
inductive Effect where
  | deliver (socket : SocketId) (message : Message)
  | judge0Submit (source : JsString) (timeLimitMs : ℕ)
  | llmRequest (prompt : HintPrompt)
  | importProblem (leetcodeUrl : JsString)
  | unhandledRejection
  | executionReserved (handler : ℕ)
  | executionFinished (handler : ℕ)
  | customCasesLoaded (problemId : ProblemId) (testCases : List StoredTestCase)
  | hintCharged (d : Delivery) (stored : Bool) (problemId : Option ProblemId)
  | hintApproved (request : PendingRequest) (seen : Option SeenRequest)
  | problemSwitched (problemId : ProblemId)

/-- What the room is told about an accepted Judge0 response. -/
inductive ExecutionReply where
  | result (result : ExecutionResult)
  | error (errorType : ExecutionErrorType) (message : JsString)

def ExecutionReply.message : ExecutionReply → Message
  | result r => .executionResult r
  | error errorType message => .executionError errorType message

/-- The reply to an accepted Judge0 response, or an exception. -/
abbrev AcceptedReply := Except Failure ExecutionReply

/-- Limits and services the handlers are registered with. -/
structure Config where
  db : Database
  gracePeriodMs : Time
  submissionLimit : ℕ
  importLimit : ℕ
  customTestCaseLimit : ℕ
  idleRoomTtlMs : Time
  maxCodeBytes : ℕ
  hintConsentMs : Time
  hintCooldownMs : Time
  enableLLMHintFallback : Bool
  enableImportedProblemHints : Bool
  hasGroqClient : Bool
  maxLLMHintChars : ℕ
  maxLLMCallsPerRoom : ℕ
  enableProblemImport : Bool
  hasJudge0Limiter : Bool
  hasLLMLimiter : Bool
  hasImportLimiter : Bool
  /-- `hintService.sanitizeLLMHint`: the hint, or the message of its error -/
  sanitizeLLMHint : JsString → ℕ → Except JsString JsString
  /-- `handleAcceptedExecutionResult` -/
  acceptedReply : ExecutionType → JsString → JsString → List TestCase → AcceptedReply

abbrev Step := Segment Server Task Effect

/-! ## Sending -/

section
variable (g : Step)

def Tasks.Segment.modifyRoom (f : Room → Room) : Step := g.modify fun s => { s with room := f s.room }

/-- `socket.emit`: nothing reaches a socket that is gone. -/
def Tasks.Segment.toSocket (socket : SocketId) (m : Message) : Step :=
  g.emits fun s => if socket ∈ s.live then [.deliver socket m] else []

/-- `io.to(roomCode).emit`. -/
def Tasks.Segment.toRoom (m : Message) : Step := g.emits fun s => s.joined.map (.deliver · m)

/-- `socket.to(roomCode).emit`. -/
def Tasks.Segment.toOthers (socket : SocketId) (m : Message) : Step :=
  g.emits fun s => (s.joined.filter (· ≠ socket)).map (.deliver · m)

def Tasks.Segment.syncRoom : Step :=
  g.emits fun s => s.joined.map (.deliver · (.roomSync s.room.toSyncPayload))

variable (f : Room → Room) (socket : SocketId) (m : Message)

@[simp] theorem Tasks.Segment.modifyRoom_state :
    (g.modifyRoom f).state = { g.state with room := f g.state.room } := rfl
@[simp] theorem Tasks.Segment.modifyRoom_out : (g.modifyRoom f).out = g.out := rfl
@[simp] theorem Tasks.Segment.modifyRoom_next : (g.modifyRoom f).next = g.next := rfl
@[simp] theorem Tasks.Segment.toSocket_state : (g.toSocket socket m).state = g.state := rfl
@[simp] theorem Tasks.Segment.toSocket_next : (g.toSocket socket m).next = g.next := rfl
@[simp] theorem Tasks.Segment.toRoom_state : (g.toRoom m).state = g.state := rfl
@[simp] theorem Tasks.Segment.toRoom_next : (g.toRoom m).next = g.next := rfl
@[simp] theorem Tasks.Segment.toOthers_state : (g.toOthers socket m).state = g.state := rfl
@[simp] theorem Tasks.Segment.toOthers_next : (g.toOthers socket m).next = g.next := rfl
@[simp] theorem Tasks.Segment.syncRoom_state : g.syncRoom.state = g.state := rfl
@[simp] theorem Tasks.Segment.syncRoom_next : g.syncRoom.next = g.next := rfl

end

/-! ## Timers -/

/-- `clearTimeout`. -/
def Server.clearTimeout (s : Server) (id : TimerId) : Server :=
  { s with timers := s.timers.filter fun t => t.id ≠ id }

/-- `setTimeout`, with the new timer's id. -/
def Server.setTimeout (s : Server) (delay : Time) (kind : TimerKind) : Server :=
  { s with timers := s.timers ++ [⟨s.nextTimer, s.now + delay, kind⟩], nextTimer := s.nextTimer + 1 }

def Server.clearConsentTimer (s : Server) : Server :=
  match s.consentTimer with
  | none => s
  | some id => { s.clearTimeout id with consentTimer := none }

/-- `roomManager.getRoom` for the room's own code. -/
def Server.getRoom (s : Server) : Option Room := if s.registered then some s.room else none

end CodeShare
