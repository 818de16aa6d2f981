import CodeShare.Server.ProblemSteps
import CodeShare.Server.TimerSteps

/-! # What a segment does to the life of the room

The clock, the stamp of the last activity and the registration: only the clock's own event moves it, a
stamp is the time at which it is set, and only timeouts and sweeps end a room.
-/

namespace CodeShare
open Tasks
set_option autoImplicit false

def elapsed : ServerTrigger → Time
  | .event (.tick elapsed) => elapsed
  | _ => 0

/-- Timeouts and sweeps. -/
def ends : ServerTrigger → Bool
  | .event (.timeout _) | .event .sweep => true
  | _ => false

/-- The stamp of the room is left alone or set. -/
def Stamps (s s' : Server) : Prop :=
  s'.room.lastActivityAt = s.room.lastActivityAt ∨ s'.room.lastActivityAt = s.now

variable {cfg : Config} {s : Server} {t : ServerTrigger} {o : Outcome} {g : Step} {socket : SocketId}

/-! ## Leaving and joining -/

theorem handleDisconnect_stamp (g : Step) (socket : SocketId) :
    (handleDisconnect g socket).state.room.lastActivityAt = g.state.room.lastActivityAt := by
  unfold handleDisconnect
  split_ifs
  · rfl
  · split <;> rfl

theorem handleRequesterDisconnect_stamp (g : Step) :
    (handleRequesterDisconnect g).state.room.lastActivityAt = g.state.room.lastActivityAt := by
  unfold handleRequesterDisconnect
  split
  · rfl
  · split
    · rfl
    · split_ifs
      · rfl
      · show (g.state.clearConsentTimer.room).lastActivityAt = _
        rw [clearConsentTimer_room]

theorem disconnectSocket_stamp (g : Step) (socket : SocketId) :
    (disconnectSocket g socket).state.room.lastActivityAt = g.state.room.lastActivityAt := by
  unfold disconnectSocket
  split_ifs
  · dsimp only
    split_ifs
    · rw [handleRequesterDisconnect_stamp, handleDisconnect_stamp]
      rfl
    · rw [handleDisconnect_stamp]
      rfl
  · rfl

theorem disconnectSocket_registered (g : Step) (socket : SocketId) :
    (disconnectSocket g socket).state.registered = g.state.registered := by
  by_cases hlive : socket ∈ g.state.live
  · exact congrArg SeatView.registered (disconnectSocket_seats hlive).1
  · unfold disconnectSocket
    rw [if_pos hlive]

theorem handleTimeout_stamp (s : Server) (timer : Timer) :
    (handleTimeout s timer).state.room.lastActivityAt = s.room.lastActivityAt := by
  unfold handleTimeout
  dsimp only
  split
  · unfold handleGraceTimeout removeDisconnectedUser
    split
    · rfl
    · dsimp only
      split_ifs
      · rfl
      · rfl
      · unfold destroyRoom
        rw [Segment.of_state]
        split_ifs <;> rfl
  · unfold handleConsentTimeout
    dsimp only
    split
    · rfl
    · obtain ⟨hstate, -, -⟩ := denyPendingHintRequest_spec
        (.of { s.clearTimeout timer.id with consentTimer := none }) ‹PendingRequest›
      rw [hstate]
      rfl

theorem emitJoinedPayload_life (g : Step) (socket : SocketId) (user : RoomUserInternal)
    (announced : Option RoomUser) :
    (emitJoinedPayload g socket user announced).state.room = g.state.room ∧
      (emitJoinedPayload g socket user announced).state.registered = g.state.registered := by
  unfold emitJoinedPayload
  simp only [Segment.suspend_state, Segment.toSocket_state, Segment.modify_state]
  split_ifs <;> exact ⟨rfl, rfl⟩

theorem takeSeat_life (s : Server) (socket : SocketId) (payload : UserJoinPayload) :
    Stamps s (takeSeat s socket payload).state ∧
      (takeSeat s socket payload).state.registered = s.registered := by
  unfold takeSeat
  split
  · rename_i existing _
    obtain ⟨hroom, hregistered⟩ := emitJoinedPayload_life
      (.of (reconnectUser s existing.id socket)) socket { existing with
        connected := true, socketId := some socket, reconnectToken := s.fresh }
      (some { existing with connected := true }.toRoomUser)
    exact ⟨.inr (congrArg Room.lastActivityAt hroom), hregistered⟩
  · split_ifs
    · exact ⟨.inl (disconnectSocket_stamp _ socket), disconnectSocket_registered _ socket⟩
    · obtain ⟨hroom, hregistered⟩ := emitJoinedPayload_life
        (.of (addUser s payload.displayName socket)) socket (s.newUser socket payload.displayName)
        (some (s.newUser socket payload.displayName).toRoomUser)
      exact ⟨.inr (congrArg Room.lastActivityAt hroom), hregistered⟩

theorem handleUserJoin_life (s : Server) (socket : SocketId) (payload : Option UserJoinPayload) :
    Stamps s (handleUserJoin s socket payload).state ∧
      (handleUserJoin s socket payload).state.registered = s.registered := by
  unfold handleUserJoin
  split
  · exact ⟨.inl rfl, rfl⟩
  · split
    · exact ⟨.inl rfl, rfl⟩
    · split
      · obtain ⟨hroom, hregistered⟩ := emitJoinedPayload_life (.of s) socket
          ‹RoomUserInternal› none
        exact ⟨.inl (congrArg Room.lastActivityAt hroom), hregistered⟩
      · exact ⟨.inl rfl, rfl⟩

theorem fire_join_life (h : (server cfg).fire s t = some g) (hf : triggerFamily t = .join) :
    Stamps s g.state ∧ g.state.registered = s.registered := by
  cases t with
  | event e => cases hf
  | task t o =>
    change resumeTask cfg s t o = some g at h
    cases t with
    | admitted socket event seen =>
      cases o <;> cases h
      unfold runHandler
      split
      · exact ⟨.inl rfl, rfl⟩
      · cases event with
        | userJoin payload => exact handleUserJoin_life s socket payload
        | _ => cases hf
    | joinLimiter socket payload =>
      change afterJoinLimiter s socket payload o = some g at h
      unfold afterJoinLimiter at h
      split at h <;> cases h
      · exact takeSeat_life s socket payload
      · exact ⟨.inl rfl, rfl⟩
      · exact ⟨.inl rfl, rfl⟩
    | hydrating socket p announced =>
      rw [afterHydration_state h]
      exact ⟨.inl rfl, rfl⟩
    | _ => cases hf

/-! ## Every segment -/

theorem fire_gracePeriod (h : (server cfg).fire s t = some g) :
    g.state.room.gracePeriodMs = s.room.gracePeriodMs := by
  refine (fire_within h).observe (fun s : Server => s.room.gracePeriodMs) ?_
  cases triggerFamily t <;> exact fun _ => rfl

theorem fire_now (h : (server cfg).fire s t = some g) : g.state.now = s.now + elapsed t := by
  have hwithin := fire_within h
  cases t with
  | event e =>
    change handleEvent cfg s e = some g at h
    unfold handleEvent at h
    split at h
    · cases h; rfl
    · split_ifs at h
      cases h
      rw [authMiddleware_state]
      rfl
    · split_ifs at h
      cases h
      rfl
    · split_ifs at h
      cases h
      have hstate := (disconnectSocket_continues (.of s) ‹SocketId›).state
      have hnow := congrArg Server.now hstate
      exact hnow
    · split at h
      · cases h
      · split_ifs at h
        cases h
        have hstate := (handleTimeout_continues s ‹Timer›).state
        have hnow := congrArg Server.now hstate
        exact hnow
    · split_ifs at h
      cases h
      unfold destroyIdleRoom destroyRoom
      rw [Segment.of_state]
      split_ifs <;> rfl
    · cases h; rfl
    · cases h; rfl
  | task t o =>
    have hother : triggerFamily (.task t o) ≠ .outside := by
      cases t with
      | admitted socket event seen => cases event <;> exact nofun
      | _ => exact nofun
    refine hwithin.observe Server.now ?_
    generalize triggerFamily (.task t o) = f at hother
    cases f <;> first | exact fun _ => rfl | exact absurd rfl hother

theorem handleEvent_stamp {e : ServerEvent} (h : handleEvent cfg s e = some g) :
    g.state.room.lastActivityAt = s.room.lastActivityAt := by
  unfold handleEvent at h
  split at h
  · cases h; rfl
  · split_ifs at h
    cases h
    rw [authMiddleware_state]
  · split_ifs at h
    cases h
    rfl
  · split_ifs at h
    cases h
    exact disconnectSocket_stamp (.of s) _
  · split at h
    · cases h
    · split_ifs at h
      cases h
      exact handleTimeout_stamp s _
  · split_ifs at h
    cases h
    unfold destroyIdleRoom destroyRoom
    rw [Segment.of_state]
    split_ifs <;> rfl
  · cases h; rfl
  · cases h; rfl

/-- An execution changes nothing between taking the lock and giving it back. -/
theorem fire_locked_state {task : Task} (h : (server cfg).fire s (.task task o) = some g)
    (hholds : task.holdsLock = true)
    (hsettling : ∀ x reserved failure, task ≠ .executionSettling x reserved failure) : g.state = s := by
  have htask : (Trigger.task task o : ServerTrigger).taken = [task] := rfl
  cases fire_lock h with
  | apart htaken _ _ _ =>
    have hfree := htaken task (by rw [htask]; exact List.mem_singleton_self task)
    rw [hfree] at hholds
    cases hholds
  | opened x htaken _ _ _ _ =>
    have hnone := htaken task (by rw [htask]; exact List.mem_singleton_self task)
    exact absurd hnone (Task.execution_of_holdsLock hholds)
  | locked x task' htaken _ _ _ _ _ _ _ _ =>
    obtain rfl : task = .executionIpLimiter x := List.singleton_inj.mp (htask.symm.trans htaken)
    cases hholds
  | moved _ _ _ _ _ _ _ _ _ hstate _ => exact hstate
  | reserved _ _ _ _ _ hstate _ => exact hstate
  | finished x reserved failure htaken _ _ _ =>
    exact absurd (List.singleton_inj.mp (htask.symm.trans htaken)) (hsettling x reserved failure)

theorem fire_execution_stamps (h : (server cfg).fire s t = some g) (hf : triggerFamily t = .execution) :
    Stamps s g.state := by
  cases t with
  | event e => cases hf
  | task t o =>
    have hresume : resumeTask cfg s t o = some g := h
    cases t with
    | admitted socket event seen =>
      cases o <;> cases hresume
      left
      have hopened : ∀ executionType, (createExecutionSession s socket executionType).state.room = s.room := by
        intro executionType
        unfold createExecutionSession
        split
        · rfl
        · split_ifs <;> rfl
      unfold runHandler
      split
      · rfl
      · cases event with
        | codeRun => exact congrArg Room.lastActivityAt (hopened .run)
        | codeSubmit => exact congrArg Room.lastActivityAt (hopened .submit)
        | _ => cases hf
    | executionIpLimiter x =>
      left
      change afterExecutionIpLimiter cfg s x o = some g at hresume
      unfold afterExecutionIpLimiter at hresume
      split at hresume
      · split at hresume <;> cases hresume
        · rfl
        · unfold startExecution
          dsimp only
          split_ifs <;> rfl
      · cases hresume; rfl
      · cases hresume; rfl
      · cases hresume
    | executionSettling x reserved failure =>
      cases o <;> cases hresume
      right
      cases failure <;> rfl
    | executionCases | executionRest | executionLimiter | executionReserve | executionJudge0 =>
      rw [fire_locked_state h rfl nofun]
      exact .inl rfl
    | _ => cases hf

theorem fire_testCase_stamps (h : (server cfg).fire s t = some g) (hf : triggerFamily t = .testCase) :
    Stamps s g.state := by
  cases t with
  | event e => cases hf
  | task t o =>
    change resumeTask cfg s t o = some g at h
    cases t with
    | admitted socket event seen =>
      cases o <;> cases h
      left
      unfold runHandler
      split
      · rfl
      · cases event with
        | testcaseAdd data =>
          dsimp only
          rcases handleTestcaseAdd_cases s socket data with ⟨-, heq⟩ | ⟨_, heq⟩ | ⟨_, _, -, heq⟩ <;> rw [heq] <;> rfl
        | _ => cases hf
    | addingTestCase socket testCase p =>
      rcases afterAddingTestCase_cases h with ⟨message, -, rfl⟩ | ⟨found, -, -, rfl⟩
      · exact .inl rfl
      · exact .inr rfl
    | _ => cases hf

/-- **Activity.** Every segment leaves the stamp of the room alone or sets it to the present. -/
theorem fire_stamps (h : (server cfg).fire s t = some g) : Stamps s g.state := by
  have hwithin := fire_within h
  cases hf : triggerFamily t with
  | outside =>
    cases t with
    | event e => exact .inl (handleEvent_stamp h)
    | task t o =>
      cases t with
      | admitted socket event seen => cases event <;> cases hf
      | _ => cases hf
  | join => exact (fire_join_life h hf).1
  | execution => exact fire_execution_stamps h hf
  | hint =>
    rw [hf] at hwithin
    exact .inl (hwithin.observe (fun s : Server => s.room.lastActivityAt) fun _ => rfl)
  | problem =>
    cases hload : loads t with
    | none =>
      rw [(fire_unswitched h hf hload).state]
      exact .inl rfl
    | some p =>
      obtain ⟨hintLimit, importsUsed, hroom⟩ := (fire_switched h hload).room
      right
      rw [hroom]
      rfl
  | testCase => exact fire_testCase_stamps h hf
  | reveal =>
    rw [hf] at hwithin
    exact .inl (hwithin.observe (fun s : Server => s.room.lastActivityAt) fun _ => rfl)

/-- **Registration.** A room ends by a timeout or a sweep. -/
theorem fire_registered (h : (server cfg).fire s t = some g) (hends : ends t = false) :
    g.state.registered = s.registered := by
  by_cases hf : triggerFamily t = .join
  · exact (fire_join_life h hf).2
  cases t with
  | event e =>
    change handleEvent cfg s e = some g at h
    unfold handleEvent at h
    split at h
    · cases h; rfl
    · split_ifs at h
      cases h
      rw [authMiddleware_state]
    · split_ifs at h
      cases h
      rfl
    · split_ifs at h
      cases h
      exact disconnectSocket_registered (.of s) _
    · cases hends
    · cases hends
    · cases h; rfl
    · cases h; rfl
  | task t o =>
    have hother : triggerFamily (.task t o) ≠ .outside := by
      cases t with
      | admitted socket event seen => cases event <;> exact nofun
      | _ => exact nofun
    refine (fire_within h).observe Server.registered ?_
    generalize triggerFamily (.task t o) = f at hf hother
    cases f <;> first | exact fun _ => rfl | exact absurd rfl hf | exact absurd rfl hother

/-! ## Users -/

/-- The ways in which a segment treats the users, with the triggers that do so. -/
inductive UsersStep (s : Server) (t : ServerTrigger) (g : Step) : Prop where
  | kept
      (husers : g.state.room.users = s.room.users)
  | closed (socket : SocketId)
      (hcloses : closes s t = some socket)
      (hlive : socket ∈ s.live)
      (husers : g.state.room.users = s.leave socket)
  | reseated (socket : SocketId) (payload : UserJoinPayload) (existing : RoomUserInternal)
      (hseating : seating t = some (socket, payload))
      (hexisting : reconnectingUser s.room payload.reconnectToken = some existing)
      (husers : g.state.room.users = s.reseat existing.id socket)
  | added (user : RoomUserInternal)
      (hconnected : user.connected = true)
      (husers : g.state.room.users = s.room.users ++ [user])
  | removed (userId : UserId)
      (hexpels : expels s t = some userId)
      (husers : g.state.room.users = s.room.users.filter (·.id ≠ userId))

theorem fire_users (h : (server cfg).fire s t = some g) : UsersStep s t g := by
  cases fire_announces h with
  | quiet hview _ => exact .kept (congrArg RoomView.users hview)
  | connected hview _ => exact .kept (congrArg RoomView.users hview)
  | replies _ hview =>
    obtain ⟨_, _, hview⟩ := hview
    exact .kept (congrArg RoomView.users hview)
  | hintRefused _ _ _ hview _ => exact .kept (congrArg RoomView.users hview)
  | hintDelivered _ _ _ _ hview _ => exact .kept (congrArg RoomView.users hview)
  | hintAsked _ _ _ hview _ => exact .kept (congrArg RoomView.users hview)
  | hintAnswered _ _ hview _ => exact .kept (congrArg RoomView.users hview)
  | loaded _ _ _ _ hview _ => exact .kept (congrArg RoomView.users hview)
  | testCaseAdded _ hview _ => exact .kept (congrArg RoomView.users hview)
  | hydrated _ _ _ hends => exact .kept (congrArg RoomView.users hends.view)
  | joined socket user announced users fresh hanswers =>
    have husers : g.state.room.users = users := congrArg RoomView.users hanswers.view
    cases hanswers.joins with
    | again => exact .kept husers
    | reconnect payload existing _ hseating hexisting _ =>
      exact .reseated socket payload existing hseating hexisting husers
    | add payload => exact .added _ rfl husers
  | closed socket _ hcloses hlive _ hview _ =>
    exact .closed socket hcloses hlive (congrArg RoomView.users hview)
  | removed userId _ hexpels hview _ => exact .removed userId hexpels (congrArg RoomView.users hview)

end CodeShare
