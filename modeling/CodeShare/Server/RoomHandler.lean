import CodeShare.Server.HintHandler

/-! # Joining and leaving

`user:join` with reconnects and hydration, the end of a socket, the grace period of its user, and the
destruction of the room.
-/

namespace CodeShare
open Tasks
set_option autoImplicit false

/-! ## Leaving -/

/-- `RoomManager.destroyRoom`. -/
def destroyRoom (s : Server) : Server :=
  if s.registered then
    { s with
      registered := false
      room := { s.room with gracePeriodTimers := [] }
      timers := s.timers.filter fun t => t.id ∉ s.room.gracePeriodTimers.map Prod.snd }
  else s

/-- `Room.startGracePeriod`. -/
def startGracePeriod (s : Server) (userId : UserId) : Server :=
  { s.setTimeout s.room.gracePeriodMs (.grace userId) with
    room := { s.room with gracePeriodTimers :=
      s.room.gracePeriodTimers.filter (fun entry => entry.1 ≠ userId) ++ [(userId, s.nextTimer)] } }

def handleDisconnect (g : Step) (socket : SocketId) : Step :=
  if !g.state.registered then g
  else
    match g.state.room.findBySocketId socket with
    | none => g
    | some user =>
      ((g.modifyRoom fun room => room.updateUser user.id fun u =>
        { u with connected := false, socketId := none }).toOthers socket (.userLeft user.id)).modify
          fun s => startGracePeriod s user.id

/-- A connected socket ends: it leaves its rooms, then the `disconnect` handlers run, the room's
before the hints'. -/
def disconnectSocket (g : Step) (socket : SocketId) : Step :=
  if socket ∉ g.state.live then g
  else
    let g := handleDisconnect (g.modify fun s => { s with
      live := s.live.filter (· ≠ socket)
      joined := s.joined.filter (· ≠ socket) }) socket
    if g.state.registered then handleRequesterDisconnect g else g

def removeDisconnectedUser (s : Server) (userId : UserId) : Step :=
  match s.room.findUser userId with
  | none => .of s
  | some user =>
    if user.connected || user.socketId ≠ none then .of s
    else
      let s := { s with room := s.room.removeUser userId }
      if s.room.users ≠ [] then
        ((Segment.of s).modify fun s => { s with
          room := { s.room with yjsToken := s.fresh }
          fresh := s.fresh + 1 }).toRoom (.yjsTokenRotated s.fresh)
      else .of (destroyRoom s)

/-- The callback of a grace timer. -/
def handleGraceTimeout (s : Server) (userId : UserId) : Step :=
  removeDisconnectedUser { s with room := s.room.cancelGracePeriod userId } userId

/-- `RoomManager.destroyIdleRooms` on this room. -/
def destroyIdleRoom (cfg : Config) (s : Server) : Server :=
  if 0 < s.room.connectedUserCount ∨ s.now - s.room.lastActivityAt < cfg.idleRoomTtlMs then s
  else destroyRoom s

/-! ## Joining -/

def emitJoinRejected (g : Step) (socket : SocketId) (reason : JsString)
    (retryAfterSeconds : Option ℕ) : Step :=
  g.toSocket socket (.eventRejected (js "user:join") reason retryAfterSeconds)

/-- `emitJoinedPayload` up to the await in `emitRoomHydration`; a socket that is gone joins no room. -/
def emitJoinedPayload (g : Step) (socket : SocketId) (user : RoomUserInternal)
    (announced : Option RoomUser) : Step :=
  let g := g.modify fun s =>
    if socket ∈ s.live ∧ socket ∉ s.joined then { s with joined := s.joined ++ [socket] } else s
  let g := (g.toSocket socket (.userJoined user.id user.displayName user.role g.state.room.mode
    (some user.reconnectToken) (some g.state.room.yjsToken))).toSocket socket
      (.roomSync g.state.room.toSyncPayload)
  g.suspend (.hydrating socket g.state.room.problemId announced)

def handleUserJoin (s : Server) (socket : SocketId) : Option UserJoinPayload → Step
  | none => emitJoinRejected (.of s) socket (js "Invalid join payload.") none
  | some payload =>
    match s.getRoom with
    | none => emitJoinRejected (.of s) socket (js "Room not found.") none
    | some room =>
      match room.findBySocketId socket with
      | some user => emitJoinedPayload (.of s) socket user none
      | none => (Segment.of s).suspend (.joinLimiter socket payload)

def determineRole (room : Room) : UserRole :=
  if room.mode ≠ .interview then .peer
  else if room.users = [] then .interviewer
  else .candidate

/-- The user that a presented token belongs to. -/
def reconnectingUser (room : Room) : Option PresentedToken → Option RoomUserInternal
  | some (.wellFormed token) => room.findByReconnectToken token
  | _ => none

/-- `reconnectUser` with the timeout it clears. -/
def reconnectUser (s : Server) (userId : UserId) (socket : SocketId) : Server :=
  { s with
    room := s.room.reconnectUser userId socket s.fresh s.now
    timers := s.timers.filter fun t => (userId, t.id) ∉ s.room.gracePeriodTimers
    fresh := s.fresh + 1 }

def addUser (s : Server) (displayName : JsString) (socket : SocketId) : Server :=
  { s with
    room := s.room.addUser s.fresh displayName (determineRole s.room) socket (s.fresh + 1) s.now
    fresh := s.fresh + 2 }

/-- The join behind its rate limiter: a reconnect, a rejection, or a new seat. -/
def takeSeat (s : Server) (socket : SocketId) (payload : UserJoinPayload) : Step :=
  match reconnectingUser s.room payload.reconnectToken with
  | some existing =>
    let user := { existing with
      connected := true, socketId := some socket, reconnectToken := s.fresh }
    emitJoinedPayload (.of (reconnectUser s existing.id socket)) socket user (some user.toRoomUser)
  | none =>
    if s.room.isFull then disconnectSocket ((Segment.of s).toSocket socket .roomFull) socket
    else
      let user : RoomUserInternal :=
        ⟨⟨s.fresh, payload.displayName, determineRole s.room, true⟩, s.fresh + 1, some socket⟩
      emitJoinedPayload (.of (addUser s payload.displayName socket)) socket user
        (some user.toRoomUser)

def afterJoinLimiter (s : Server) (socket : SocketId) (payload : UserJoinPayload) :
    Outcome → Option Step
  | .allowed => some (takeSeat s socket payload)
  | .limited retryAfterSeconds =>
    some (emitJoinRejected (.of s) socket (js "Too many join attempts. Try again in " ++
      decimalUnits retryAfterSeconds ++ js "s.") (some retryAfterSeconds))
  | .failed _ => some ((Segment.of s).emit .unhandledRejection)
  | _ => none

/-- `ProblemLoadedPayload` for a detail read from the database. -/
def problemLoadedPayload (cfg : Config) (detail : ProblemDetail) : Message :=
  .problemLoaded detail (cfg.db.solution detail.id) detail.visibleTestCases
    ((detail.boilerplate.map (·.template)).getD [])
    ((detail.boilerplate.map (·.parameterNames)).getD [])

def emitPresenceBroadcast (g : Step) (socket : SocketId) : Option RoomUser → Step
  | none => g
  | some user =>
    g.toOthers socket (.userJoined user.id user.displayName user.role g.state.room.mode none none)

/-- The rest of a join behind the problem look-up; a failed look-up is only logged. -/
def afterHydration (cfg : Config) (s : Server) (socket : SocketId) (problemId : Option ProblemId)
    (announced : Option RoomUser) : Outcome → Option Step
  | .go => if problemId = none then some (emitPresenceBroadcast (.of s) socket announced) else none
  | .detail (some detail) =>
    if problemId = some detail.id then
      some (emitPresenceBroadcast ((Segment.of s).toSocket socket (problemLoadedPayload cfg detail))
        socket announced)
    else none
  | .detail none | .failed _ =>
    if problemId = none then none else some (emitPresenceBroadcast (.of s) socket announced)
  | _ => none

end CodeShare
