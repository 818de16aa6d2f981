import CodeShare.Foundations.Tasks
import CodeShare.Room.Types

/-! # Graceful shutdown

`createGracefulShutdown`, with the process around it: what `index.ts` does on a signal, and
`registerProcessErrorHandlers` on an error that nobody has caught. Of Node: `httpServer.close` lets nobody in
any more, and calls back when every connection has ended; a process ends by itself when nothing keeps it alive;
`process.exit` ends it at once.
-/

namespace CodeShare.Shutdown
open Tasks
set_option autoImplicit false

/-- The steps of `executeShutdown`. -/
inductive ShutdownStep where
  | stopBackgroundTasks
  | httpServerClose
  | ioClose
  | wssClose
  | destroyAllDocs
  | resetRooms
  | closePool
  | closeReliabilityStore
  deriving DecidableEq

/-- Which of the optional functions are given. -/
structure ShutdownDeps where
  stopBackgroundTasks : Bool
  closeReliabilityStore : Bool
  forceTimeoutMs : Option Time

def ShutdownDeps.forceTimeout (deps : ShutdownDeps) : Time := deps.forceTimeoutMs.getD 10000

/-- The steps that `safeStep` runs. -/
def ShutdownDeps.steps (deps : ShutdownDeps) : List ShutdownStep :=
  (if deps.stopBackgroundTasks then [.stopBackgroundTasks] else []) ++
    [.httpServerClose, .ioClose, .wssClose, .destroyAllDocs, .resetRooms, .closePool] ++
    (if deps.closeReliabilityStore then [.closeReliabilityStore] else [])

/-- What asks for a shutdown. -/
inductive Cause where
  | signal
  | uncaughtException
  | unhandledRejection
  deriving DecidableEq

/-- The code of the `process.exit` behind the shutdown. -/
def Cause.exitCode : Cause → ℕ
  | signal => 0
  | uncaughtException | unhandledRejection => 1

/-- What brings a process to its end. -/
inductive Ending where
  | completed
  | forced
  /-- nothing kept the process alive -/
  | drained
  deriving DecidableEq

structure Process where
  now : Time
  /-- connections of the HTTP server, those of WebSockets included -/
  connections : ℕ
  accepting : Bool
  shuttingDown : Bool
  /-- what waits for the shutdown, by the code it will exit with -/
  waiting : List ℕ
  forceTimer : Option Time
  exited : Bool

inductive ProcessEvent where
  | ask (cause : Cause)
  | forceTimeout
  | nothingLeft
  | connectionOpened
  | connectionClosed
  | tick (elapsed : Time)

/-- `executeShutdown` in one of its steps. -/
inductive ShutdownTask where
  | running (step : ShutdownStep) (later : List ShutdownStep)

inductive ShutdownOutcome where
  | settled (threw : Bool)

/-- What happens, in the order in which it does; of the ends of steps only the failures are logged. -/
inductive ShutdownLog where
  | asked (cause : Cause) (time : Time)
  | started (step : ShutdownStep)
  | ended (step : ShutdownStep) (threw : Bool)
  | exited (ending : Ending) (code : ℕ)

abbrev ProcessSegment := Segment Process ShutdownTask ShutdownLog

section
variable (deps : ShutdownDeps)

/-- `process.exit`, or the end of the process by itself. -/
def endProcess (g : ProcessSegment) (ending : Ending) (code : ℕ) : ProcessSegment :=
  (g.emit (.exited ending code)).modify fun p => { p with exited := true }

/-- The next step, or the end: what has waited longest exits. -/
def nextStep (g : ProcessSegment) : List ShutdownStep → ProcessSegment
  | [] =>
    let g := g.modify fun p => { p with forceTimer := none }
    match g.state.waiting with
    | [] => g
    | code :: _ => endProcess g .completed code
  | step :: later =>
    ((g.emit (.started step)).modify fun p =>
      { p with accepting := p.accepting && step ≠ .httpServerClose }).suspend (.running step later)

/-- `shutdown`, with what waits for it. -/
def shutdown (p : Process) (cause : Cause) : ProcessSegment :=
  let g := (Segment.of { p with waiting := p.waiting ++ [cause.exitCode] }).emit (.asked cause p.now)
  if p.shuttingDown then g
  else
    nextStep (g.modify fun p =>
      { p with shuttingDown := true, forceTimer := some (p.now + deps.forceTimeout) }) deps.steps

/-- Open connections, and the listening server, keep the process alive. -/
def processEvent (p : Process) : ProcessEvent → Option ProcessSegment
  | .ask cause => some (shutdown deps p cause)
  | .forceTimeout =>
    match p.forceTimer with
    | some due => if due ≤ p.now then some (endProcess (.of p) .forced 1) else none
    | none => none
  | .nothingLeft => if p.accepting ∨ 0 < p.connections then none else some (endProcess (.of p) .drained 0)
  | .connectionOpened =>
    if p.accepting then some (.of { p with connections := p.connections + 1 }) else none
  | .connectionClosed =>
    if 0 < p.connections then some (.of { p with connections := p.connections - 1 }) else none
  | .tick elapsed => some (.of { p with now := p.now + elapsed })

def processHandle (p : Process) (e : ProcessEvent) : Option ProcessSegment :=
  if p.exited then none else processEvent deps p e

/-- The end of a step; what it throws is caught. -/
def safeStep (p : Process) (step : ShutdownStep) (threw : Bool) : ProcessSegment :=
  (Segment.of p).emit (.ended step threw)

/-- `httpServer.close` does not throw, and does not call back while a connection is open. -/
def processResume (p : Process) : ShutdownTask → ShutdownOutcome → Option ProcessSegment
  | .running step later, .settled threw =>
    if p.exited then none
    else if step = .httpServerClose ∧ (threw ∨ 0 < p.connections) then none
    else some (nextStep (safeStep p step threw) later)

def process : Machine Process ShutdownTask ProcessEvent ShutdownOutcome ShutdownLog where
  handle := processHandle deps
  resume := processResume

end

/-- A process that has begun to listen. -/
def listening (now : Time) : Conf Process ShutdownTask :=
  ⟨⟨now, 0, true, false, [], none, false⟩, []⟩

end CodeShare.Shutdown
