import CodeShare.Server.Frames

/-! # What a segment does to the users of the room

`SeatStep` lists the ways in which a segment treats users, connected sockets and the room's
registration; `fire_seats` says that there are no others.
-/

namespace CodeShare
open Tasks
set_option autoImplicit false

/-! ## Seats taken and left -/

/-- The join that a segment goes on with behind the rate limiter. -/
def seating : ServerTrigger → Option (SocketId × UserJoinPayload)
  | .task (.joinLimiter socket payload) .allowed => some (socket, payload)
  | _ => none

/-- The join is not turned away. -/
def Room.seats (room : Room) (payload : UserJoinPayload) : Bool :=
  (reconnectingUser room payload.reconnectToken).isSome || !room.isFull

theorem reconnectingUser_mem {room : Room} {token : Option PresentedToken} {u : RoomUserInternal}
    (h : reconnectingUser room token = some u) : u ∈ room.users := by
  unfold reconnectingUser at h
  split at h
  · exact List.mem_of_find?_eq_some h
  · cases h

/-- The users once a socket has been closed. -/
def Server.leave (s : Server) (socket : SocketId) : List RoomUserInternal :=
  if s.registered then
    match s.room.findBySocketId socket with
    | none => s.room.users
    | some user =>
      (s.room.updateUser user.id fun u => { u with connected := false, socketId := none }).users
  else s.room.users

/-- The users once a user has reconnected. -/
def Server.reseat (s : Server) (userId : UserId) (socket : SocketId) : List RoomUserInternal :=
  s.room.users.map fun u =>
    if u.id = userId then
      { u with connected := true, socketId := some socket, reconnectToken := s.fresh }
    else u

/-- A new user. -/
def Server.newUser (s : Server) (socket : SocketId) (displayName : JsString) : RoomUserInternal :=
  ⟨⟨s.fresh, displayName, determineRole s.room, true⟩, s.fresh + 1, some socket⟩

/-- The fields around seats. -/
structure SeatView where
  users : List RoomUserInternal
  live : List SocketId
  registered : Bool
  nextSocket : SocketId

def Server.seatView (s : Server) : SeatView where
  users := s.room.users
  live := s.live
  registered := s.registered
  nextSocket := s.nextSocket

/-! ## The steps -/

inductive SeatStep (s : Server) (t : ServerTrigger) (g : Step) : Prop where
  | kept
      (hview : g.state.seatView = s.seatView)
      (hfresh : s.fresh ≤ g.state.fresh)
  | connected
      (hview : g.state.seatView =
        { s.seatView with live := s.live ++ [s.nextSocket], nextSocket := s.nextSocket + 1 })
      (hfresh : g.state.fresh = s.fresh)
  | closed (socket : SocketId)
      (hlive : socket ∈ s.live)
      (hview : g.state.seatView =
        { s.seatView with live := s.live.filter (· ≠ socket), users := s.leave socket })
      (hfresh : g.state.fresh = s.fresh)
  | removed (userId : UserId) (registered : Bool)
      (hregistered : registered = s.registered ∨ s.room.users.filter (·.id ≠ userId) = [])
      (hview : g.state.seatView =
        { s.seatView with users := s.room.users.filter (·.id ≠ userId), registered := registered })
      (hfresh : s.fresh ≤ g.state.fresh)
  | destroyed
      (hempty : s.room.connectedUserCount = 0)
      (hview : g.state.seatView = { s.seatView with registered := false })
      (hfresh : g.state.fresh = s.fresh)
  | reconnected (socket : SocketId) (payload : UserJoinPayload) (existing : RoomUserInternal)
      (hseating : seating t = some (socket, payload))
      (hexisting : reconnectingUser s.room payload.reconnectToken = some existing)
      (hview : g.state.seatView = { s.seatView with users := s.reseat existing.id socket })
      (hfresh : s.fresh ≤ g.state.fresh)
  | added (socket : SocketId) (payload : UserJoinPayload)
      (hseating : seating t = some (socket, payload))
      (hroom : s.room.isFull = false)
      (hview : g.state.seatView =
        { s.seatView with users := s.room.users ++ [s.newUser socket payload.displayName] })
      (hfresh : s.fresh < g.state.fresh)

variable {cfg : Config} {s : Server} {t : ServerTrigger} {o : Outcome} {g : Step} {socket : SocketId}

theorem SeatStep.of_state (h : g.state = s) : SeatStep s t g :=
  .kept (by rw [h]) (by rw [h])

/-! ## Leaving -/

theorem handleDisconnect_seats (g : Step) (socket : SocketId) :
    (handleDisconnect g socket).state.seatView =
      { g.state.seatView with users := g.state.leave socket } ∧
    (handleDisconnect g socket).state.fresh = g.state.fresh := by
  unfold handleDisconnect Server.leave
  cases hregistered : g.state.registered with
  | false => exact ⟨rfl, rfl⟩
  | true =>
    simp only [Bool.not_true, Bool.false_eq_true, if_false, if_true]
    generalize g.state.room.findBySocketId socket = found
    cases found <;> exact ⟨rfl, rfl⟩

theorem handleRequesterDisconnect_seats (g : Step) :
    (handleRequesterDisconnect g).state.seatView = g.state.seatView ∧
    (handleRequesterDisconnect g).state.fresh = g.state.fresh := by
  unfold handleRequesterDisconnect
  split
  · exact ⟨rfl, rfl⟩
  · split
    · exact ⟨rfl, rfl⟩
    · split_ifs
      · exact ⟨rfl, rfl⟩
      · simp only [clearPendingHintRequest, Segment.syncRoom_state, Segment.modifyRoom_state,
          Segment.modify_state, Server.clearConsentTimer, Server.clearTimeout]
        split <;> exact ⟨rfl, rfl⟩

theorem disconnectSocket_seats (hlive : socket ∈ g.state.live) :
    (disconnectSocket g socket).state.seatView =
      { g.state.seatView with
        live := g.state.live.filter (· ≠ socket), users := g.state.leave socket } ∧
    (disconnectSocket g socket).state.fresh = g.state.fresh := by
  unfold disconnectSocket
  rw [if_neg (not_not.mpr hlive)]
  dsimp only
  obtain ⟨hview, hfresh⟩ := handleDisconnect_seats (g.modify fun s => { s with
    live := s.live.filter (· ≠ socket)
    joined := s.joined.filter (· ≠ socket) }) socket
  split_ifs
  · obtain ⟨hview', hfresh'⟩ := handleRequesterDisconnect_seats (handleDisconnect (g.modify fun s =>
      { s with
        live := s.live.filter (· ≠ socket)
        joined := s.joined.filter (· ≠ socket) }) socket)
    exact ⟨hview'.trans hview, hfresh'.trans hfresh⟩
  · exact ⟨hview, hfresh⟩

/-- A socket that is closed, or had been closed before. -/
theorem disconnectSocket_seatStep (hstate : g.state = s) (socket : SocketId) :
    SeatStep s t (disconnectSocket g socket) := by
  by_cases hlive : socket ∈ s.live
  · obtain ⟨hview, hfresh⟩ := disconnectSocket_seats (g := g) (by rw [hstate]; exact hlive)
    rw [hstate] at hview hfresh
    exact .closed socket hlive hview hfresh
  · refine .of_state ?_
    unfold disconnectSocket
    rw [hstate, if_pos hlive, hstate]

theorem handleTimeout_seatStep (s : Server) (timer : Timer) :
    SeatStep s t (handleTimeout s timer) := by
  unfold handleTimeout
  dsimp only
  split
  · rename_i userId _
    unfold handleGraceTimeout removeDisconnectedUser
    split
    · exact .kept rfl (Nat.le_refl _)
    · dsimp only
      split_ifs with hbound husers
      · exact .kept rfl (Nat.le_refl _)
      · exact .removed userId s.registered (.inl rfl) rfl (Nat.le_succ _)
      · have hempty : s.room.users.filter (·.id ≠ userId) = [] := not_not.mp husers
        unfold destroyRoom
        split_ifs with hregistered
        · exact .removed userId false (.inr hempty) rfl (Nat.le_refl _)
        · exact .removed userId s.registered (.inl rfl) rfl (Nat.le_refl _)
  · unfold handleConsentTimeout
    dsimp only
    split
    · exact .kept rfl (Nat.le_refl _)
    · obtain ⟨hstate, -, -⟩ := denyPendingHintRequest_spec
        (.of { s.clearTimeout timer.id with consentTimer := none }) ‹PendingRequest›
      exact .kept (by rw [hstate]; rfl) (by rw [hstate]; rfl)

/-! ## Joining -/

theorem emitJoinedPayload_seats (g : Step) (socket : SocketId) (user : RoomUserInternal)
    (announced : Option RoomUser) :
    (emitJoinedPayload g socket user announced).state.seatView = g.state.seatView ∧
    (emitJoinedPayload g socket user announced).state.fresh = g.state.fresh := by
  unfold emitJoinedPayload
  simp only [Segment.suspend_state, Segment.toSocket_state, Segment.modify_state]
  split_ifs <;> exact ⟨rfl, rfl⟩

theorem handleUserJoin_seatStep (s : Server) (socket : SocketId) (payload : Option UserJoinPayload) :
    SeatStep s t (handleUserJoin s socket payload) := by
  unfold handleUserJoin
  split
  · exact .of_state rfl
  · split
    · exact .of_state rfl
    · split
      · obtain ⟨hview, hfresh⟩ := emitJoinedPayload_seats (.of s) socket ‹_› none
        exact .kept hview hfresh.ge
      · exact .of_state rfl

theorem takeSeat_seatStep {payload : UserJoinPayload} (hseating : seating t = some (socket, payload)) :
    SeatStep s t (takeSeat s socket payload) := by
  unfold takeSeat
  split
  · rename_i existing hexisting
    obtain ⟨hview, hfresh⟩ := emitJoinedPayload_seats (.of (reconnectUser s existing.id socket)) socket
      { existing with connected := true, socketId := some socket, reconnectToken := s.fresh }
      (some { existing with connected := true }.toRoomUser)
    exact .reconnected socket payload existing hseating hexisting (hview.trans rfl)
      (hfresh.ge.trans' (Nat.le_succ _))
  · split_ifs with hfull
    · exact disconnectSocket_seatStep (s := s) (g := (Segment.of s).toSocket socket .roomFull) rfl socket
    · obtain ⟨hview, hfresh⟩ := emitJoinedPayload_seats (.of (addUser s payload.displayName socket))
        socket (s.newUser socket payload.displayName)
        (some (s.newUser socket payload.displayName).toRoomUser)
      refine .added socket payload hseating (by simpa using hfull) (hview.trans rfl) ?_
      exact lt_of_lt_of_eq (Nat.lt_add_of_pos_right Nat.two_pos) hfresh.symm

theorem emitJoinedPayload_next (g : Step) (socket : SocketId) (user : RoomUserInternal)
    (announced : Option RoomUser) : (emitJoinedPayload g socket user announced).next = g.next ++
      [.hydrating socket (emitJoinedPayload g socket user announced).state.room.problemId
        announced] := rfl

/-- Behind the limiter a join leaves at most its hydration. -/
theorem takeSeat_next {payload : UserJoinPayload} {task : Task}
    (hm : task ∈ (takeSeat s socket payload).next) : ∃ p announced, task = .hydrating socket p announced := by
  unfold takeSeat at hm
  split at hm
  · rw [emitJoinedPayload_next, Segment.of_next, List.nil_append, List.mem_singleton] at hm
    exact ⟨_, _, hm⟩
  · split_ifs at hm
    · rw [(disconnectSocket_continues _ socket).next] at hm
      cases hm
    · rw [emitJoinedPayload_next, Segment.of_next, List.nil_append, List.mem_singleton] at hm
      exact ⟨_, _, hm⟩

theorem afterHydration_next {p : Option ProblemId} {announced : Option RoomUser}
    (h : afterHydration cfg s socket p announced o = some g) : g.next = [] := by
  unfold afterHydration at h
  split at h
  all_goals
    first
    | cases h
    | split_ifs at h
      cases h
      cases announced <;> rfl

/-! ## Every segment -/

theorem handleEvent_seatStep {e : ServerEvent} (h : handleEvent cfg s e = some g) :
    SeatStep s (.event e) g := by
  unfold handleEvent at h
  split at h
  · cases h; exact .connected rfl rfl
  · split_ifs at h
    cases h
    exact .of_state (authMiddleware_state s _ _)
  · split_ifs at h
    cases h
    exact .of_state rfl
  · split_ifs at h
    cases h
    exact disconnectSocket_seatStep (s := s) (g := .of s) rfl _
  · split at h
    · cases h
    · split_ifs at h
      cases h
      exact handleTimeout_seatStep s _
  · split_ifs at h with hregistered
    cases h
    unfold destroyIdleRoom
    split_ifs with hkeep
    · exact .of_state rfl
    · have hempty : s.room.connectedUserCount = 0 := by omega
      unfold destroyRoom
      rw [if_pos hregistered]
      exact .destroyed hempty rfl rfl
  · cases h; exact .kept rfl (Nat.le_refl _)
  · cases h; exact .kept rfl (Nat.le_refl _)

theorem emitPresenceBroadcast_state (g : Step) (socket : SocketId) (announced : Option RoomUser) :
    (emitPresenceBroadcast g socket announced).state = g.state := by
  cases announced <;> rfl

theorem afterHydration_state {p : Option ProblemId} {announced : Option RoomUser}
    (h : afterHydration cfg s socket p announced o = some g) : g.state = s := by
  unfold afterHydration at h
  split at h
  all_goals
    first
    | cases h
    | split_ifs at h
      cases h
      exact emitPresenceBroadcast_state _ socket announced

/-- A join passes the middleware. -/
theorem fire_receive_join {s : Server} {socket : SocketId} (hlive : socket ∈ s.live) (payload : UserJoinPayload) :
    (server cfg).fire s (.event (.receive socket (.userJoin (some payload)))) =
      some ((Segment.of s).suspend (.admitted socket (.userJoin (some payload)) none)) := by
  change (if socket ∈ s.live then some (authMiddleware s socket (.userJoin (some payload))) else none) = _
  rw [if_pos hlive]
  rfl

/-- Over a socket without a user, a join waits for its rate limiter. -/
theorem fire_handle_join {s : Server} {socket : SocketId} (hlive : socket ∈ s.live) (hregistered : s.registered = true)
    (hunseated : s.room.findBySocketId socket = none) (payload : UserJoinPayload) (seen : Option SeenRequest) :
    (server cfg).fire s (.task (.admitted socket (.userJoin (some payload)) seen) .go) =
      some ((Segment.of s).suspend (.joinLimiter socket payload)) := by
  change some (runHandler cfg s socket seen (.userJoin (some payload))) = _
  simp only [runHandler, hlive, not_true_eq_false, if_false, handleUserJoin, Server.getRoom, hregistered, if_true,
    hunseated]

/-- **Seats.** Every segment of the server treats users and sockets in one of the ways listed. -/
theorem fire_seats (h : (server cfg).fire s t = some g) : SeatStep s t g := by
  have hwithin := fire_within h
  cases t with
  | event e => exact handleEvent_seatStep h
  | task t o =>
    change resumeTask cfg s t o = some g at h
    by_cases hf : triggerFamily (.task t o) = .join
    · cases t with
      | admitted socket event seen =>
        cases o <;> cases h
        unfold runHandler
        split
        · exact .of_state rfl
        · cases event with
          | userJoin payload => exact handleUserJoin_seatStep s socket payload
          | _ => cases hf
      | joinLimiter socket payload =>
        change afterJoinLimiter s socket payload o = some g at h
        unfold afterJoinLimiter at h
        split at h <;> cases h
        · exact takeSeat_seatStep rfl
        · exact .of_state rfl
        · exact .of_state rfl
      | hydrating socket p announced => exact .of_state (afterHydration_state h)
      | _ => cases hf
    · have hother : triggerFamily (.task t o) ≠ .outside := by
        cases t with
        | admitted socket event seen => cases event <;> exact nofun
        | _ => exact nofun
      have hview : g.state.seatView = s.seatView ∧ g.state.fresh = s.fresh := by
        generalize triggerFamily (.task t o) = f at hwithin hf hother
        refine ⟨hwithin.observe Server.seatView ?_, hwithin.observe (·.fresh) ?_⟩
        all_goals
          cases f <;> first | exact fun _ => rfl | exact absurd rfl hf | exact absurd rfl hother
      exact .kept hview.1 hview.2.ge

end CodeShare
