import CodeShare.Foundations.Tasks
import CodeShare.Text.Json

/-! # The operation limiter

`OperationLimiter` as a machine. A work runs user code until its first await, and this code may call
`run` again, also from within the loop of `drain`; so the state holds the JavaScript stack, and what
user code does next is an event. An execution that awaits its work is a suspended task.
-/

namespace CodeShare.OperationLimiter
open Tasks
set_option autoImplicit false

abbrev CallId := ℕ

/-- What the constructor accepts. -/
structure OperationLimiterOptions where
  name : JsString
  maxInFlight : ℕ
  maxQueue : ℕ
  maxInFlight_pos : 1 ≤ maxInFlight

structure OperationLimitExceededError where
  operation : JsString
  message : JsString
  retryAfterSeconds : ℕ

def limitExceeded (options : OperationLimiterOptions) : OperationLimitExceededError where
  operation := options.name
  message := options.name ++ js " capacity reached."
  retryAfterSeconds := 1

inductive Settlement (Value : Type) where
  | fulfilled (value : Value)
  | rejected (reason : Value)

/-- A work, and the call of `run` whose promise it settles. -/
structure QueuedOperation (Work : Type) where
  work : Work
  caller : CallId

/-- A work that is running its synchronous part, or a `drain` in the `finally` of an execution, which
settles its promise afterwards. -/
inductive Frame (Value : Type) where
  | working (caller : CallId)
  | draining (caller : CallId) (settlement : Settlement Value)

structure Limiter (Work Value : Type) where
  active : ℕ
  queue : List (QueuedOperation Work)
  /-- innermost first -/
  stack : List (Frame Value)
  nextCall : CallId

/-- What user code does: it calls `run`, or the innermost work returns a promise or throws. -/
inductive Action (Work Value : Type) where
  | run (work : Work)
  | returns
  | throws (reason : Value)

inductive Effect (Work Value : Type) where
  | startedAtOnce (operation : QueuedOperation Work)
  | enqueued (operation : QueuedOperation Work)
  | startedFromQueue (operation : QueuedOperation Work)
  | refused (caller : CallId) (error : OperationLimitExceededError)
  /-- the work has settled -/
  | finished (caller : CallId) (settlement : Settlement Value)
  /-- the promise of the caller is settled -/
  | settled (caller : CallId) (settlement : Settlement Value)

section
variable {Work Value : Type}

abbrev Step (Work Value : Type) := Segment (Limiter Work Value) CallId (Effect Work Value)

/-- `execute` up to the call of the work, which is on top of the given stack. -/
def execute (s : Limiter Work Value) (caller : CallId) (stack : List (Frame Value)) :
    Limiter Work Value :=
  { s with active := s.active + 1, stack := .working caller :: stack }

/-- Control goes back down the stack: the loops of `drain` go on until user code runs again. -/
def unwind (options : OperationLimiterOptions) : List (Frame Value) → Step Work Value → Step Work Value
  | [], g => g.modify fun s => { s with stack := [] }
  | .working caller :: rest, g => g.modify fun s => { s with stack := .working caller :: rest }
  | .draining caller settlement :: rest, g =>
    match g.state.queue with
    | next :: queue =>
      if g.state.active < options.maxInFlight then
        (g.emit (.startedFromQueue next)).modify fun s =>
          execute { s with queue := queue } next.caller (.draining caller settlement :: rest)
      else unwind options rest (g.emit (.settled caller settlement))
    | [] => unwind options rest (g.emit (.settled caller settlement))

def run (options : OperationLimiterOptions) (s : Limiter Work Value) (work : Work) : Step Work Value :=
  let operation : QueuedOperation Work := ⟨work, s.nextCall⟩
  let g : Step Work Value := Segment.of { s with nextCall := s.nextCall + 1 }
  if s.active < options.maxInFlight then
    (g.emit (.startedAtOnce operation)).modify fun s => execute s operation.caller s.stack
  else if options.maxQueue ≤ s.queue.length then
    g.emit (.refused operation.caller (limitExceeded options))
  else
    (g.emit (.enqueued operation)).modify fun s => { s with queue := s.queue ++ [operation] }

/-- The `finally` of an execution, above the given stack. -/
def finish (options : OperationLimiterOptions) (s : Limiter Work Value) (caller : CallId)
    (settlement : Settlement Value) (stack : List (Frame Value)) : Step Work Value :=
  unwind options (.draining caller settlement :: stack)
    ((Segment.of { s with active := s.active - 1 }).emit (.finished caller settlement))

end
end CodeShare.OperationLimiter
