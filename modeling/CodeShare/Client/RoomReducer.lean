import CodeShare.Server.State

/-! # The client's room

`roomReducer` folds the messages that a browser receives into its own copy of the room. Each message
that is bound to an action is reduced as that action; `room:full` and `access:required` are bound
elsewhere. `Shown` is what server and client both know of the room.
-/

namespace CodeShare
set_option autoImplicit false

structure ClientRoomState extends RoomState where
  currentUserId : Option UserId
  currentProblem : Option ProblemDetail
  visibleTestCases : List TestCase
  parameterNames : List JsString
  lastError : Option JsString
  executionResult : Option ExecutionResult
  importStatus : Option (ImportStatus × Option JsString × Option ℕ)
  hintText : JsString
  isHintStreaming : Bool
  solution : Option JsString

def initialRoomState : ClientRoomState where
  mode := .collaboration
  maxUsers := 2
  users := []
  problemId := none
  language := .python
  hintsUsed := 0
  hintLimit := 0
  pendingHintRequest := none
  customTestCases := []
  submissionsUsed := 0
  submissionLimit := 20
  executionInProgress := false
  createdAt := 0
  lastActivityAt := 0
  currentUserId := none
  currentProblem := none
  visibleTestCases := []
  parameterNames := []
  lastError := none
  executionResult := none
  importStatus := none
  hintText := []
  isHintStreaming := false
  solution := none

/-- Replace the first user of the same id, or append. -/
def upsertUser (users : List RoomUser) (user : RoomUser) : List RoomUser :=
  match users.findIdx? fun u => u.id = user.id with
  | some index => users.set index user
  | none => users ++ [user]

/-- Mark the users of an id as disconnected. -/
def markLeft (users : List RoomUser) (userId : UserId) : List RoomUser :=
  users.map fun u => if u.id = userId then { u with connected := false } else u

/-- `now` is the client's clock. -/
def roomReducer (now : Time) (state : ClientRoomState) : Message → ClientRoomState
  | .roomSync payload => { state with toRoomState := payload, lastError := none }
  | .userJoined userId displayName role _ reconnectToken _ =>
    { state with
      users := upsertUser state.users ⟨userId, displayName, role, true⟩
      currentUserId := if reconnectToken.isSome then some userId else state.currentUserId }
  | .userLeft userId => { state with users := markLeft state.users userId }
  | .problemLoaded problem _ visibleTestCases _ parameterNames =>
    { state with
      problemId := some problem.id
      currentProblem := some problem
      visibleTestCases := visibleTestCases
      parameterNames := parameterNames
      hintLimit := hintLimitByDifficulty problem.difficulty
      hintsUsed := 0
      customTestCases := []
      pendingHintRequest := none
      hintText := []
      isHintStreaming := false
      solution := none
      lastError := none
      executionResult := none
      importStatus := none }
  | .problemError message => { state with lastError := some message }
  | .problemImportStatus status message retryAfterSeconds =>
    { state with importStatus := some (status, message, retryAfterSeconds) }
  | .hintPending requestedBy _ _ _ => { state with pendingHintRequest := some ⟨requestedBy, now⟩ }
  | .hintError message =>
    { state with lastError := some message, isHintStreaming := false, pendingHintRequest := none }
  | .executionStarted _ =>
    { state with executionInProgress := true, executionResult := none, lastError := none }
  | .executionResult result =>
    { state with executionInProgress := false, executionResult := some result, lastError := none }
  | .executionError _ message =>
    { state with executionInProgress := false, lastError := some message }
  | .hintChunk text => { state with hintText := state.hintText ++ text, isHintStreaming := true }
  | .hintDone fullHint _ =>
    { state with
      hintText := fullHint
      hintsUsed := state.hintsUsed + 1
      isHintStreaming := false
      pendingHintRequest := none }
  | .hintDenied =>
    { state with
      pendingHintRequest := none
      isHintStreaming := false
      lastError := some (js "Hint request denied.") }
  | .testcaseAdded testCase =>
    { state with lastError := none, customTestCases := state.customTestCases ++ [testCase] }
  | .testcaseError message => { state with lastError := some message }
  | .solutionRevealed solution => { state with solution := some solution }
  | .eventRejected _ reason _ => { state with lastError := some reason }
  | .yjsTokenRotated _ | .roomFull | .accessRequired _ => state

/-- The state after some messages; the clock is read once for each. -/
def clientState (clock : ℕ → Time) (state : ClientRoomState) : List Message → ClientRoomState
  | [] => state
  | m :: received => clientState (fun i => clock (i + 1)) (roomReducer (clock 0) state m) received

/-! ## What both sides know -/

structure Shown where
  users : List RoomUser
  problemId : Option ProblemId
  hintsUsed : ℕ
  hintLimit : ℕ
  pendingHintRequest : Option PendingHintRequest
  customTestCases : List CustomTestCase
  submissionsUsed : ℕ
  executionInProgress : Bool

def RoomState.shown (state : RoomState) : Shown where
  users := state.users
  problemId := state.problemId
  hintsUsed := state.hintsUsed
  hintLimit := state.hintLimit
  pendingHintRequest := state.pendingHintRequest
  customTestCases := state.customTestCases
  submissionsUsed := state.submissionsUsed
  executionInProgress := state.executionInProgress

def Room.shown (room : Room) : Shown := room.toSyncPayload.shown

namespace Shown

/-- What a message does to it. -/
def receive (now : Time) (v : Shown) : Message → Shown
  | .roomSync payload => payload.shown
  | .userJoined userId displayName role _ _ _ =>
    { v with users := upsertUser v.users ⟨userId, displayName, role, true⟩ }
  | .userLeft userId => { v with users := markLeft v.users userId }
  | .problemLoaded problem _ _ _ _ =>
    { v with
      problemId := some problem.id
      hintLimit := hintLimitByDifficulty problem.difficulty
      hintsUsed := 0
      customTestCases := []
      pendingHintRequest := none }
  | .hintPending requestedBy _ _ _ => { v with pendingHintRequest := some ⟨requestedBy, now⟩ }
  | .hintError _ | .hintDenied => { v with pendingHintRequest := none }
  | .executionStarted _ => { v with executionInProgress := true }
  | .executionResult _ | .executionError _ _ => { v with executionInProgress := false }
  | .hintDone _ _ => { v with hintsUsed := v.hintsUsed + 1, pendingHintRequest := none }
  | .testcaseAdded testCase => { v with customTestCases := v.customTestCases ++ [testCase] }
  | _ => v

def receiveAll (clock : ℕ → Time) (v : Shown) : List Message → Shown
  | [] => v
  | m :: received => receiveAll (fun i => clock (i + 1)) (v.receive (clock 0) m) received

variable {clock : ℕ → Time} {now : Time} {v : Shown} {m : Message} {received : List Message}

@[simp] theorem receiveAll_nil : v.receiveAll clock [] = v := rfl

@[simp] theorem receiveAll_cons :
    v.receiveAll clock (m :: received) =
      (v.receive (clock 0) m).receiveAll (fun i => clock (i + 1)) received := rfl

theorem receiveAll_append (received' : List Message) :
    v.receiveAll clock (received ++ received') =
      (v.receiveAll clock received).receiveAll (fun i => clock (i + received.length)) received' := by
  induction received generalizing clock v with
  | nil => rfl
  | cons m received ih =>
    rw [List.cons_append, receiveAll_cons, receiveAll_cons, ih, List.length_cons]
    simp only [Nat.add_assoc]

/-- What every message of a list keeps, the list keeps. -/
theorem receiveAll_induction {p : Shown → Prop} (h : p v)
    (hstep : ∀ m ∈ received, ∀ now v, p v → p (v.receive now m)) : p (v.receiveAll clock received) := by
  induction received generalizing clock v with
  | nil => exact h
  | cons m received ih =>
    refine ih (hstep m List.mem_cons_self _ _ h) fun m' hm' => ?_
    exact hstep m' (List.mem_cons_of_mem _ hm')

end Shown

theorem shown_roomReducer (now : Time) (state : ClientRoomState) (m : Message) :
    (roomReducer now state m).shown = state.shown.receive now m := by
  cases m <;> rfl

/-- **The reducer, as far as the room is concerned.** -/
theorem shown_clientState (clock : ℕ → Time) (state : ClientRoomState) (received : List Message) :
    (clientState clock state received).shown = state.shown.receiveAll clock received := by
  induction received generalizing clock state with
  | nil => rfl
  | cons m received ih => rw [clientState, ih, shown_roomReducer, Shown.receiveAll_cons]

/-! ## Messages that show nothing -/

/-- Nothing in the message belongs to what both sides know. -/
def Message.quiet : Message → Bool
  | roomFull | problemError _ | problemImportStatus _ _ _ | hintChunk _ | solutionRevealed _
  | testcaseError _ | eventRejected _ _ _ | accessRequired _ => true
  | _ => false

def Message.isExecution : Message → Bool
  | executionStarted _ | executionResult _ | executionError _ _ => true
  | _ => false

namespace Shown
variable {clock : ℕ → Time} {v : Shown} {received : List Message}

theorem receive_quiet {m : Message} (h : m.quiet = true) (now : Time) (v : Shown) :
    v.receive now m = v := by
  cases m <;> first | rfl | cases h

end Shown
end CodeShare
