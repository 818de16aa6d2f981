import CodeShare.Server.AuthMiddleware
import CodeShare.Server.ExecutionHandler
import CodeShare.Server.ProblemHandler

/-! # The system

The server as a machine with suspended tasks: what Socket.IO, timers and the clock can do, which
handler an admitted event runs, and where each awaited call goes on. Every order of events and of
resumptions is a run.
-/

namespace CodeShare
open Tasks
set_option autoImplicit false

inductive ServerEvent where
  | connect
  | receive (socket : SocketId) (event : ClientEvent)
  | accessDenied (socket : SocketId) (reason : JsString)
  | disconnect (socket : SocketId)
  | timeout (id : TimerId)
  | sweep
  | tick (elapsed : Time)
  | edit (text : JsString)

/-- The handler of an admitted event; Socket.IO drops events of sockets that are gone. -/
def runHandler (cfg : Config) (s : Server) (socket : SocketId) (seen : Option SeenRequest)
    (event : ClientEvent) : Step :=
  if socket ∉ s.live then .of s
  else
    match event with
    | .userJoin payload => handleUserJoin s socket payload
    | .problemSelect problemId => handleProblemSelect s socket problemId
    | .problemImport url => handleProblemImport cfg s socket url
    | .codeRun => createExecutionSession s socket .run
    | .codeSubmit => createExecutionSession s socket .submit
    | .hintRequest => if s.registered then handleHintRequest cfg s socket else .of s
    | .hintApprove => if s.registered then handleHintApprove s socket seen else .of s
    | .hintDeny => if s.registered then handleHintDeny s else .of s
    | .solutionReveal => handleSolutionReveal s socket
    | .testcaseAdd testCase => handleTestcaseAdd s socket testCase

def handleTimeout (s : Server) (timer : Timer) : Step :=
  let s := s.clearTimeout timer.id
  match timer.kind with
  | .grace userId => handleGraceTimeout s userId
  | .consent => handleConsentTimeout s

def handleEvent (cfg : Config) (s : Server) : ServerEvent → Option Step
  | .connect =>
    some (.of { s with live := s.live ++ [s.nextSocket], nextSocket := s.nextSocket + 1 })
  | .receive socket event => if socket ∈ s.live then some (authMiddleware s socket event) else none
  | .accessDenied socket reason =>
    if socket ∈ s.live then some ((Segment.of s).toSocket socket (.accessRequired reason)) else none
  | .disconnect socket =>
    if socket ∈ s.live then some (disconnectSocket (.of s) socket) else none
  | .timeout id =>
    match s.timers.find? fun t => t.id = id with
    | none => none
    | some timer => if timer.due ≤ s.now then some (handleTimeout s timer) else none
  | .sweep => if s.registered then some (.of (destroyIdleRoom cfg s)) else none
  | .tick elapsed => some (.of { s with now := s.now + elapsed })
  | .edit text => some (.of { s with doc := some text })

def resumeTask (cfg : Config) (s : Server) : Task → Outcome → Option Step
  | .admitted socket event seen, .go => some (runHandler cfg s socket seen event)
  | .admitted _ _ _, _ => none
  | .joinLimiter socket payload, o => afterJoinLimiter s socket payload o
  | .hydrating socket problemId announced, o => afterHydration cfg s socket problemId announced o
  | .executionIpLimiter x, o => afterExecutionIpLimiter cfg s x o
  | .executionCases x code problemId, o => afterExecutionCases s x code problemId o
  | .executionRest x code problemId testCases, o =>
    afterExecutionRest cfg s x code problemId testCases o
  | .executionLimiter x loaded, o => afterExecutionLimiter s x loaded o
  | .executionReserve x loaded, o => afterExecutionReserve s x loaded o
  | .executionJudge0 x loaded nonce, o => afterExecutionJudge0 cfg s x loaded nonce o
  | .executionSettling x reserved failure, .go => some (afterExecutionSettling s x reserved failure)
  | .executionSettling _ _ _, _ => none
  | .hintStored d, o => afterStoredHint cfg s d o
  | .hintIpLimiter d, o => afterHintIpLimiter s d o
  | .hintQuota d, o => afterHintQuota cfg s d o
  | .hintProblem d problemId, o => afterHintProblem cfg s d problemId o
  | .hintLimiter d prompt, o => afterHintLimiter s d prompt o
  | .hintReserve d prompt, o => afterHintReserve s d prompt o
  | .hintStream d prompt generated closing, o => afterHintStream cfg s d prompt generated closing o
  | .hintFailing d reason, .go => some (afterHintFailure s d reason)
  | .hintFailing _ _, _ => none
  | .selecting socket problemId, o => afterSelecting cfg s socket problemId o
  | .importIpLimiter socket url, o => afterImportIpLimiter s socket url o
  | .importQuota socket url, o => afterImportQuota cfg s socket url o
  | .importLimiter socket url, o => afterImportLimiter s socket url o
  | .importReserve socket url, o => afterImportReserve s socket url o
  | .importScrape socket _, o => afterImportScrape s socket o
  | .importLoad socket problemId, o => afterImportLoad cfg s socket problemId o
  | .importFailing socket reason, .go => some (afterImportFailure s socket reason)
  | .importFailing _ _, _ => none
  | .addingTestCase socket testCase problemId, o =>
    afterAddingTestCase s socket testCase problemId o
  | .revealing socket problemId, o => afterRevealing cfg s socket problemId o

/-- The server as a machine. -/
def server (cfg : Config) : Machine Server Task ServerEvent Outcome Effect where
  handle := handleEvent cfg
  resume := resumeTask cfg

abbrev ServerConf := Conf Server Task
abbrev ServerAct := Act ServerEvent Outcome
abbrev ServerTrigger := Trigger ServerEvent Task Outcome
abbrev ServerTurn := Turn Server Task ServerEvent Outcome Effect

/-- A room that has just been created. -/
def newRoom (cfg : Config) (mode : RoomMode) (now : Time) : Room where
  mode := mode
  submissionLimit := cfg.submissionLimit
  importLimit := cfg.importLimit
  customTestCaseLimit := cfg.customTestCaseLimit
  gracePeriodMs := cfg.gracePeriodMs
  yjsToken := 0
  createdAt := now
  lastActivityAt := now

def initialServer (cfg : Config) (mode : RoomMode) (now : Time) : Server where
  room := newRoom cfg mode now
  registered := true
  live := []
  joined := []
  timers := []
  consentTimer := none
  lastHintRequestTime := fun _ => none
  doc := none
  now := now
  fresh := 1
  nextTimer := 0
  nextSocket := 0
  nextHandler := 0
  nextRequest := 0

def initial (cfg : Config) (mode : RoomMode) (now : Time) : ServerConf :=
  ⟨initialServer cfg mode now, []⟩

/-- The runs of a room from its creation. -/
def Reaches (cfg : Config) (mode : RoomMode) (now : Time) (acts : List ServerAct) (c : ServerConf)
    (out : List Effect) : Prop :=
  (server cfg).run (initial cfg mode now) acts = some (c, out)

/-- Runs whose segments all meet a condition. -/
def Meeting (cfg : Config) (P : ServerConf → ServerTrigger → Prop) (mode : RoomMode) (now : Time)
    (acts : List ServerAct) : Prop :=
  (server cfg).Meets P (initial cfg mode now) acts

/-- The defaults of the source, with services that accept every text. -/
def exampleConfig (db : Database) : Config where
  db := db
  gracePeriodMs := 5 * 60 * 1000
  submissionLimit := 20
  importLimit := 3
  customTestCaseLimit := 10
  idleRoomTtlMs := 30 * 60 * 1000
  maxCodeBytes := 65536
  hintConsentMs := 30 * 1000
  hintCooldownMs := 5000
  enableLLMHintFallback := true
  enableImportedProblemHints := true
  hasGroqClient := true
  maxLLMHintChars := 1500
  maxLLMCallsPerRoom := 15
  enableProblemImport := true
  hasJudge0Limiter := false
  hasLLMLimiter := false
  hasImportLimiter := false
  sanitizeLLMHint := fun text maxHintChars => .ok (text.take maxHintChars)
  acceptedReply := fun _ _ _ _ =>
    .ok (.error .parseError (js "Could not parse execution results."))

/-- No problem has a solution. -/
def plainConfig : Config := exampleConfig ⟨fun _ => none⟩

def exampleProblem (id : ProblemId) : Problem where
  id := id
  slug := js "two-sum"
  title := js "Two Sum"
  difficulty := .easy
  category := js "Array"
  description := []
  constraints := []
  timeLimitMs := 5000
  source := .curated
  sourceUrl := none

def exampleDetail (id : ProblemId) : ProblemDetail where
  toProblem := exampleProblem id
  visibleTestCases := []
  boilerplate := none

def exampleBoilerplate (id : ProblemId) : BoilerplateTemplate where
  problemId := id
  language := .python
  template := []
  methodName := js "twoSum"
  parameterNames := [js "nums"]

/-- A new socket joins, and nothing else is going on; the outcome is that of the hydration. -/
def exampleJoin (socket : SocketId) (hydrated : Outcome) : List ServerAct :=
  [.event .connect, .event (.receive socket (.userJoin (some ⟨js "guest", none⟩))), .resume 0 .go,
    .resume 0 .allowed, .resume 0 hydrated]

/-- A user selects a problem, and nothing else is going on. -/
def exampleSelect (socket : SocketId) (id : ProblemId) : List ServerAct :=
  [.event (.receive socket (.problemSelect (some id))), .resume 0 .go,
    .resume 0 (.detail (some (exampleDetail id)))]

end CodeShare
