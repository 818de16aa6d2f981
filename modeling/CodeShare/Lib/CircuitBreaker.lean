import CodeShare.Foundations.Tasks
import CodeShare.Text.JsString

/-! # The circuit breaker

`createCircuitBreaker` as a machine: a call that has started its function is a suspended task, and its
settlement, the expiry of a timer and `reset` may come in any order. The pending timers are those of
the runtime; the breaker itself only knows the one in `resetTimer`.
-/

namespace CodeShare.CircuitBreaker
open Tasks
set_option autoImplicit false

inductive CircuitState where
  | closed
  | opened
  | halfOpen
  deriving DecidableEq

abbrev TimerId := ℕ

/-- What a breaker is created with. -/
structure CircuitBreakerOptions where
  name : JsString
  failureThreshold : ℕ
  failureThreshold_pos : 1 ≤ failureThreshold

structure Breaker where
  state : CircuitState
  consecutiveFailures : ℕ
  resetTimer : Option TimerId
  /-- the timers that have been set and neither cleared nor fired -/
  timers : List TimerId
  nextTimer : TimerId

/-- A call whose function has been started. -/
inductive Call where
  | running
  deriving DecidableEq

inductive Settlement where
  | fulfilled
  | rejected

inductive BreakerEvent where
  | execute
  | timeout (id : TimerId)
  | reset

structure DependencyError where
  dependency : JsString
  operation : JsString
  errorType : JsString
  message : JsString

inductive Effect where
  | started
  | refused (error : DependencyError)
  | stateChange (src dst : CircuitState)

abbrev Step := Segment Breaker Call Effect

/-! ## Transitions -/

def transition (g : Step) (dst : CircuitState) : Step :=
  if g.state.state = dst then g
  else
    (g.emits fun b => [.stateChange b.state dst]).modify fun b => { b with state := dst }

/-- `clearTimeout(resetTimer)`, when there is one. -/
def clearResetTimer (b : Breaker) : Breaker :=
  match b.resetTimer with
  | some id => { b with timers := b.timers.erase id, resetTimer := none }
  | none => b

def scheduleHalfOpen (g : Step) : Step :=
  g.modify fun b =>
    let b := clearResetTimer b
    { b with
      resetTimer := some b.nextTimer
      timers := b.timers ++ [b.nextTimer]
      nextTimer := b.nextTimer + 1 }

def recordSuccess (b : Breaker) : Step :=
  let g : Step := Segment.of { b with consecutiveFailures := 0 }
  if b.state = .halfOpen then transition g .closed else g

def recordFailure (options : CircuitBreakerOptions) (b : Breaker) : Step :=
  let failures := b.consecutiveFailures + 1
  let g : Step := Segment.of { b with consecutiveFailures := failures }
  if b.state = .halfOpen then scheduleHalfOpen (transition g .opened)
  else if b.state = .closed ∧ options.failureThreshold ≤ failures then
    scheduleHalfOpen (transition g .opened)
  else g

/-! ## The operations -/

def circuitOpen (options : CircuitBreakerOptions) : DependencyError where
  dependency := options.name
  operation := js "execute"
  errorType := js "circuit_open"
  message := js "Circuit breaker for " ++ options.name ++ js " is open. Requests are being rejected."

/-- A function that throws at once settles before anything else happens. -/
def execute (options : CircuitBreakerOptions) (b : Breaker) : Step :=
  if b.state = .opened then (Segment.of b).emit (.refused (circuitOpen options))
  else ((Segment.of b).emit .started).suspend .running

/-- What the timer calls. -/
def halfOpen (b : Breaker) (id : TimerId) : Step :=
  transition (Segment.of { b with timers := b.timers.erase id, resetTimer := none }) .halfOpen

def reset (b : Breaker) : Step :=
  transition (Segment.of { clearResetTimer b with consecutiveFailures := 0 }) .closed

def settle (options : CircuitBreakerOptions) (b : Breaker) : Settlement → Step
  | .fulfilled => recordSuccess b
  | .rejected => recordFailure options b

/-- `onStateChange` has no effect of its own here. -/
def breaker (options : CircuitBreakerOptions) :
    Machine Breaker Call BreakerEvent Settlement Effect where
  handle b
    | .execute => some (execute options b)
    | .timeout id => if id ∈ b.timers then some (halfOpen b id) else none
    | .reset => some (reset b)
  resume b _ settlement := some (settle options b settlement)

def createCircuitBreaker : Conf Breaker Call :=
  ⟨⟨.closed, 0, none, [], 0⟩, []⟩

section
variable (g : Step) (dst : CircuitState)

@[simp] theorem transition_state : (transition g dst).state = { g.state with state := dst } := by
  unfold transition
  split_ifs with h
  · rw [← h]
  · rfl

theorem transition_out :
    (transition g dst).out =
      g.out ++ if g.state.state = dst then [] else [.stateChange g.state.state dst] := by
  unfold transition
  split_ifs
  · rw [List.append_nil]
  · rfl

@[simp] theorem transition_next : (transition g dst).next = g.next := by
  unfold transition
  split_ifs <;> rfl

@[simp] theorem scheduleHalfOpen_out : (scheduleHalfOpen g).out = g.out := rfl
@[simp] theorem scheduleHalfOpen_next : (scheduleHalfOpen g).next = g.next := rfl

end

@[simp] theorem clearResetTimer_state (b : Breaker) : (clearResetTimer b).state = b.state := by
  unfold clearResetTimer
  split <;> rfl

end CodeShare.CircuitBreaker
