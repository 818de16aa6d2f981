import CodeShare.Lib.RoomCode
import CodeShare.Server.System
import Mathlib.Data.List.AList

/-! # The rooms of the server

`RoomManager` keeps the active rooms by their code; the order in which a `Map` lists its entries decides
nothing here. The rooms themselves are changed by their own handlers, to which a destroyed room leaves
its timers. The listeners of `onDestroy` are not modelled.
-/

namespace CodeShare
open RoomCode
set_option autoImplicit false

/-- Absent options are `none`. -/
structure RoomOptions where
  submissionLimit : Option ℕ := none
  importLimit : Option ℕ := none
  customTestCaseLimit : Option ℕ := none
  gracePeriodMs : Option Time := none

/-- A room together with its code. -/
structure CodedRoom extends Room where
  roomCode : JsString

/-- The constructor of `Room`, with the limits of ROOM_LIMITS where an option is absent. -/
def CodedRoom.new (roomCode : JsString) (mode : RoomMode) (options : RoomOptions) (yjsToken : Token)
    (now : Time) : CodedRoom where
  roomCode := roomCode
  mode := mode
  submissionLimit := options.submissionLimit.getD 20
  importLimit := options.importLimit.getD 3
  customTestCaseLimit := options.customTestCaseLimit.getD 10
  gracePeriodMs := options.gracePeriodMs.getD (5 * 60 * 1000)
  yjsToken := yjsToken
  createdAt := now
  lastActivityAt := now

structure RoomManager where
  rooms : AList fun _ : JsString => CodedRoom := ∅
  roomDefaults : RoomOptions := {}
  maxActiveRooms : ℕ := 500
  idleRoomTtlMs : Time := 30 * 60 * 1000

/-- What a call of `createRoom` is given by chance and by the clock. -/
structure Draw where
  random : ℕ → RandomNumber
  uuid : Uuid
  yjsToken : Token
  now : Time

namespace RoomManager

def getRoomCount (manager : RoomManager) : ℕ := manager.rooms.entries.length

/-- What is thrown is `error`. -/
def createRoom (manager : RoomManager) (mode : RoomMode) (draw : Draw) :
    Except JsString CodedRoom × RoomManager :=
  if manager.maxActiveRooms ≤ manager.getRoomCount then
    (.error (js "Maximum active rooms limit reached."), manager)
  else
    let roomCode := generateRoomCode manager.rooms.keys draw.random draw.uuid
    let room := CodedRoom.new roomCode mode manager.roomDefaults draw.yjsToken draw.now
    (.ok room, { manager with rooms := manager.rooms.insert roomCode room })

def configureDefaults (manager : RoomManager) (defaults : RoomOptions)
    (maxActiveRooms : Option ℕ) (idleRoomTtlMs : Option Time) : RoomManager :=
  { manager with
    roomDefaults := defaults
    maxActiveRooms := maxActiveRooms.getD manager.maxActiveRooms
    idleRoomTtlMs := idleRoomTtlMs.getD manager.idleRoomTtlMs }

section
variable (toLowerCase : JsString → JsString)

def getRoom (manager : RoomManager) (roomCode : JsString) : Option CodedRoom :=
  manager.rooms.lookup (RoomCode.normalizeRoomCode toLowerCase roomCode)

def destroyRoom (manager : RoomManager) (roomCode : JsString) : RoomManager :=
  { manager with rooms := manager.rooms.erase (RoomCode.normalizeRoomCode toLowerCase roomCode) }

/-- The two conditions of `destroyIdleRooms` on a room. -/
def idle (room : Room) (idleRoomTtlMs : Time) (now : Time) : Bool :=
  room.connectedUserCount = 0 && room.lastActivityAt + idleRoomTtlMs ≤ now

/-- The number of destroyed rooms comes first. -/
def destroyIdleRooms (manager : RoomManager) (idleRoomTtlMs : Option Time) (now : Time) :
    ℕ × RoomManager :=
  manager.rooms.entries.foldl (fun (destroyed, manager') entry =>
    if idle entry.2.toRoom (idleRoomTtlMs.getD manager.idleRoomTtlMs) now then
      (destroyed + 1, manager'.destroyRoom toLowerCase entry.1)
    else (destroyed, manager')) (0, manager)

def resetRooms (manager : RoomManager) : RoomManager :=
  manager.rooms.keys.foldl (fun manager' roomCode => manager'.destroyRoom toLowerCase roomCode) manager

/-! ## Runs -/

/-- What happens to the manager behind its configuration; `changes` is what a handler does to the room
that `getRoom` gives it. -/
inductive Call where
  | createRoom (mode : RoomMode) (draw : Draw)
  | destroyRoom (roomCode : JsString)
  | destroyIdleRooms (idleRoomTtlMs : Option Time) (now : Time)
  | resetRooms
  | changes (roomCode : JsString) (room : Room)

def after (manager : RoomManager) : Call → RoomManager
  | .createRoom mode draw => (manager.createRoom mode draw).2
  | .destroyRoom roomCode => manager.destroyRoom toLowerCase roomCode
  | .destroyIdleRooms idleRoomTtlMs now => (manager.destroyIdleRooms toLowerCase idleRoomTtlMs now).2
  | .resetRooms => manager.resetRooms toLowerCase
  | .changes roomCode room =>
    { manager with
      rooms := manager.rooms.replace (RoomCode.normalizeRoomCode toLowerCase roomCode)
        ⟨room, RoomCode.normalizeRoomCode toLowerCase roomCode⟩ }

def run (manager : RoomManager) (calls : List Call) : RoomManager :=
  calls.foldl (after toLowerCase) manager

end

end RoomManager
end CodeShare
