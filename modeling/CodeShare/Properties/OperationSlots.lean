import CodeShare.Lib.OperationLimiter

/-! # Slots and promises

The books of an operation limiter: which works have been accepted, started and finished, whose promise
is settled, and who holds the slots. They balance in every state in which user code runs, however works
call `run` again and however they end.
-/

namespace CodeShare.OperationLimiter
open Tasks
set_option autoImplicit false

section
variable {Work Value : Type}

/-! ## Books -/

namespace Effect

def acceptedOperation : Effect Work Value → Option (QueuedOperation Work)
  | startedAtOnce operation | enqueued operation => some operation
  | _ => none

def enqueuedOperation : Effect Work Value → Option (QueuedOperation Work)
  | enqueued operation => some operation
  | _ => none

def dequeuedOperation : Effect Work Value → Option (QueuedOperation Work)
  | startedFromQueue operation => some operation
  | _ => none

def startedOperation : Effect Work Value → Option (QueuedOperation Work)
  | startedAtOnce operation | startedFromQueue operation => some operation
  | _ => none

def finishedCall : Effect Work Value → Option (CallId × Settlement Value)
  | finished caller settlement => some (caller, settlement)
  | _ => none

def settledCall : Effect Work Value → Option (CallId × Settlement Value)
  | settled caller settlement => some (caller, settlement)
  | _ => none

end Effect

open Effect

/-- The works on the stack. -/
def workers (stack : List (Frame Value)) : List CallId :=
  stack.filterMap fun
    | .working caller => some caller
    | .draining _ _ => none

/-- The promises that are settled when a loop ends. -/
def owed (stack : List (Frame Value)) : List (CallId × Settlement Value) :=
  stack.filterMap fun
    | .working _ => none
    | .draining caller settlement => some (caller, settlement)

/-- The state with the given stack, the executions that await their work, and everything that has
happened. -/
structure Books (s : Limiter Work Value) (stack : List (Frame Value)) (pool : List CallId)
    (out : List (Effect Work Value)) : Prop where
  slots : s.active = pool.length + (workers stack).length
  order : out.filterMap enqueuedOperation = out.filterMap dequeuedOperation ++ s.queue
  accepted : (out.filterMap startedOperation ++ s.queue).Perm (out.filterMap acceptedOperation)
  fresh : ∀ operation ∈ out.filterMap acceptedOperation, operation.caller < s.nextCall
  distinct : ((out.filterMap acceptedOperation).map (·.caller)).Nodup
  running : ∀ call : CallId, ((out.filterMap finishedCall).map Prod.fst).count call + pool.count call +
    (workers stack).count call = ((out.filterMap startedOperation).map (·.caller)).count call
  promised : (out.filterMap settledCall ++ owed stack).Perm (out.filterMap finishedCall)

/-- With a slack of one, a slot has just become free. -/
structure Bounds (options : OperationLimiterOptions) (slack : ℕ) (s : Limiter Work Value) : Prop where
  active : s.active ≤ options.maxInFlight
  queued : s.queue.length ≤ options.maxQueue
  full : s.queue ≠ [] → options.maxInFlight ≤ s.active + slack

/-- User code is running, or nothing is. -/
def AtUser : List (Frame Value) → Prop
  | .draining _ _ :: _ => False
  | _ => True

namespace Books
variable {s : Limiter Work Value} {stack : List (Frame Value)} {pool pool' : List CallId}
  {out : List (Effect Work Value)} {caller : CallId} {settlement : Settlement Value}

theorem settle (h : Books s (.draining caller settlement :: stack) pool out) :
    Books s stack pool (out ++ [.settled caller settlement]) := by
  obtain ⟨hslots, horder, haccepted, hfresh, hdistinct, hrunning, hpromised⟩ := h
  refine ⟨hslots, ?_, ?_, ?_, ?_, ?_, ?_⟩
  · simpa [List.filterMap_cons, enqueuedOperation, dequeuedOperation] using horder
  · simpa [List.filterMap_cons, startedOperation, acceptedOperation] using haccepted
  · simpa [List.filterMap_cons, acceptedOperation] using hfresh
  · simpa [List.filterMap_cons, acceptedOperation] using hdistinct
  · simpa [List.filterMap_cons, finishedCall, startedOperation, workers] using hrunning
  · simpa [List.filterMap_cons, settledCall, finishedCall, owed] using hpromised

theorem perm (h : Books s stack pool out) (hpool : pool'.Perm pool) : Books s stack pool' out := by
  refine ⟨?_, h.order, h.accepted, h.fresh, h.distinct, fun call => ?_, h.promised⟩
  · rw [hpool.length_eq]
    exact h.slots
  · rw [hpool.count_eq]
    exact h.running call

theorem returns (h : Books s (.working caller :: stack) pool out) :
    Books s stack (pool ++ [caller]) out := by
  obtain ⟨hslots, horder, haccepted, hfresh, hdistinct, hrunning, hpromised⟩ := h
  refine ⟨?_, horder, haccepted, hfresh, hdistinct, ?_, hpromised⟩
  · simp only [workers, List.filterMap_cons, List.length_cons, List.length_append] at hslots ⊢
    rw [hslots]
    simp
    omega
  · intro call
    have hcall := hrunning call
    simp only [workers, List.filterMap_cons, List.count_append, List.count_cons, List.count_nil] at hcall ⊢
    omega

end Books

/-! ## One segment -/

/-- What holds whenever user code runs. -/
structure Balanced (options : OperationLimiterOptions) (s : Limiter Work Value) (pool : List CallId)
    (out : List (Effect Work Value)) : Prop where
  books : Books s s.stack pool out
  bounds : Bounds options 0 s
  user : AtUser s.stack

section
variable {options : OperationLimiterOptions} {pool : List CallId} {past : List (Effect Work Value)}

theorem Bounds.release {s : Limiter Work Value} (h : Bounds options 0 s) :
    Bounds options 1 { s with active := s.active - 1 } where
  active := (Nat.sub_le _ _).trans h.active
  queued := h.queued
  full := by
    intro hne
    have hfull := h.full hne
    show options.maxInFlight ≤ s.active - 1 + 1
    omega

/-- The work that settles in a segment. -/
def completed (s : Limiter Work Value) :
    Trigger (Action Work Value) CallId (Settlement Value) → List (CallId × Settlement Value)
  | .task caller settlement => [(caller, settlement)]
  | .event (.throws reason) =>
    match s.stack with
    | .working caller :: _ => [(caller, .rejected reason)]
    | _ => []
  | .event _ => []

section
variable {c c' : Conf (Limiter Work Value) CallId} {out : List (Effect Work Value)}
  {t : Trigger (Action Work Value) CallId (Settlement Value)} {g : Step Work Value} {rest : List CallId}

end
end

/-! ## Admission -/

section
variable {options : OperationLimiterOptions} {s : Limiter Work Value}

end

/-! ## Runs -/

section
variable {options : OperationLimiterOptions} {c : Conf (Limiter Work Value) CallId}
  {out : List (Effect Work Value)}

end
end

def exampleOptions : OperationLimiterOptions where
  name := js "imports"
  maxInFlight := 1
  maxQueue := 1
  maxInFlight_pos := Nat.one_pos

/-- The second work waits and the third is refused; when the first has settled, the second starts, calls
`run` for a fourth and throws; so the fourth starts within two loops. -/
def exampleRun : List (Act (Action ℕ ℕ) (Settlement ℕ)) :=
  [.event (.run 10), .event .returns, .event (.run 11), .event (.run 12), .resume 0 (.fulfilled 7),
    .event (.run 13), .event (.throws 9), .event .returns]

end CodeShare.OperationLimiter
