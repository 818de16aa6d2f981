import CodeShare.Room.Types

/-! # The room

The fields and methods of the `Room` class. Two internal records carry a field that the source does
not have and no method reads: a pending hint request knows its serial number, and a custom test case
knows the problem it was checked against.
-/

namespace CodeShare
set_option autoImplicit false

structure RoomUserInternal extends RoomUser where
  reconnectToken : Token
  socketId : Option SocketId

structure PendingRequest extends PendingHintRequest where
  serial : ℕ
  deriving DecidableEq, Repr

structure StoredTestCase extends CustomTestCase where
  checkedFor : ProblemId

abbrev TimerId := ℕ

instance : LawfulBEq (UserId × TimerId) := inferInstance

structure Room where
  mode : RoomMode
  users : List RoomUserInternal := []
  problemId : Option ProblemId := none
  language : SupportedLanguage := .python
  hintsUsed : ℕ := 0
  hintLimit : ℕ := 0
  pendingHintRequest : Option PendingRequest := none
  customTestCases : List StoredTestCase := []
  hintHistory : List JsString := []
  submissionsUsed : ℕ := 0
  submissionLimit : ℕ
  executionInProgress : Bool := false
  hintStreaming : Bool := false
  llmCallsUsed : ℕ := 0
  importsUsed : ℕ := 0
  importLimit : ℕ
  customTestCaseLimit : ℕ
  gracePeriodMs : Time
  yjsToken : Token
  createdAt : Time
  lastActivityAt : Time
  /-- The user ids with a running timer. -/
  gracePeriodTimers : List (UserId × TimerId) := []

namespace Room

/-! ## Users -/

def addUser (room : Room) (id : UserId) (displayName : JsString) (role : UserRole)
    (socketId : SocketId) (token : Token) (now : Time) : Room :=
  { room with
    users := room.users ++ [⟨⟨id, displayName, role, true⟩, token, some socketId⟩]
    lastActivityAt := now }

def removeUser (room : Room) (userId : UserId) : Room :=
  { room with
    users := room.users.filter fun u => u.id ≠ userId
    gracePeriodTimers := room.gracePeriodTimers.filter fun entry => entry.1 ≠ userId }

/-- Change the user of an id. -/
def updateUser (room : Room) (userId : UserId) (f : RoomUserInternal → RoomUserInternal) : Room :=
  { room with users := room.users.map fun u => if u.id = userId then f u else u }

def findUser (room : Room) (userId : UserId) : Option RoomUserInternal :=
  room.users.find? fun u => u.id = userId

def findBySocketId (room : Room) (socketId : SocketId) : Option RoomUserInternal :=
  room.users.find? fun u => u.socketId = some socketId && u.connected

def findByReconnectToken (room : Room) (token : Token) : Option RoomUserInternal :=
  room.users.find? fun u => !u.connected && u.reconnectToken = token

def cancelGracePeriod (room : Room) (userId : UserId) : Room :=
  { room with gracePeriodTimers := room.gracePeriodTimers.filter fun entry => entry.1 ≠ userId }

/-- The room's part of `reconnectUser`; clearing the timeout itself is up to the server. -/
def reconnectUser (room : Room) (userId : UserId) (socketId : SocketId) (token : Token) (now : Time) :
    Room :=
  { (room.updateUser userId fun u =>
      { u with connected := true, socketId := some socketId, reconnectToken := token }).cancelGracePeriod
        userId with lastActivityAt := now }

def isFull (room : Room) : Bool := maxUsers ≤ room.users.length

def connectedUserCount (room : Room) : ℕ := room.users.countP fun u => u.connected

/-! ## Guards; `none` is `allowed: true`, otherwise the reason -/

def canExecute (room : Room) : Option JsString :=
  if room.problemId = none then some (js "Select a problem before running code.")
  else if room.executionInProgress then some (js "Execution already in progress.")
  else if room.submissionLimit ≤ room.submissionsUsed then
    some (js "Session execution limit reached (" ++ decimalUnits room.submissionLimit ++ js "/" ++
      decimalUnits room.submissionLimit ++ js ").")
  else none

def canSwitchProblem (room : Room) : Option JsString :=
  if room.executionInProgress then some (js "Cannot switch problems while code is running.")
  else if room.hintStreaming then
    some (js "Cannot switch problems while a hint is being delivered.")
  else none

def switchProblem (room : Room) (problemId : ProblemId) (hintLimit : ℕ) (now : Time) : Room :=
  { room with
    problemId := some problemId
    hintLimit := hintLimit
    hintsUsed := 0
    hintHistory := []
    pendingHintRequest := none
    customTestCases := []
    lastActivityAt := now }

def toSyncPayload (room : Room) : RoomState where
  mode := room.mode
  maxUsers := maxUsers
  users := room.users.map fun u => u.toRoomUser
  problemId := room.problemId
  language := room.language
  hintsUsed := room.hintsUsed
  hintLimit := room.hintLimit
  pendingHintRequest := room.pendingHintRequest.map fun r => r.toPendingHintRequest
  customTestCases := room.customTestCases.map fun t => t.toCustomTestCase
  submissionsUsed := room.submissionsUsed
  submissionLimit := room.submissionLimit
  executionInProgress := room.executionInProgress
  createdAt := room.createdAt
  lastActivityAt := room.lastActivityAt

/-! ## What the guards allow -/

theorem canExecute_eq_none {room : Room} (h : room.canExecute = none) :
    room.problemId ≠ none ∧ room.executionInProgress = false ∧
      room.submissionsUsed < room.submissionLimit := by
  unfold canExecute at h
  split_ifs at h with h1 h2 h3
  exact ⟨h1, by simpa using h2, by omega⟩

theorem canSwitchProblem_eq_none {room : Room} (h : room.canSwitchProblem = none) :
    room.executionInProgress = false ∧ room.hintStreaming = false := by
  unfold canSwitchProblem at h
  split_ifs at h with h1 h2
  exact ⟨by simpa using h1, by simpa using h2⟩

end Room
end CodeShare
