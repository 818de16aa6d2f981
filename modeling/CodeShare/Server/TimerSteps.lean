import CodeShare.Server.AnnouncementSteps
import CodeShare.Server.TableSteps

/-! # What a segment does to timeouts

The pending hint request, the timeouts, and the entries under which they run: `TimerView` has the
operations on them, `TimerStep` lists which segment performs which, and `fire_timers` says that there are
no others.
-/

namespace CodeShare
open Tasks
set_option autoImplicit false

/-! ## Operations -/

structure TimerView where
  pending : Option PendingRequest
  timers : List Timer
  consentTimer : Option TimerId
  graceTimers : List (UserId × TimerId)
  nextTimer : TimerId

def Server.timerView (s : Server) : TimerView where
  pending := s.room.pendingHintRequest
  timers := s.timers
  consentTimer := s.consentTimer
  graceTimers := s.room.gracePeriodTimers
  nextTimer := s.nextTimer

namespace TimerView
variable (v : TimerView)

def clearTimeout (id : TimerId) : TimerView := { v with timers := v.timers.filter fun t => t.id ≠ id }

def clearConsentTimer : TimerView :=
  match v.consentTimer with
  | none => v
  | some id => { v.clearTimeout id with consentTimer := none }

/-- A request becomes pending; the timeout for the last one goes. -/
def ask (request : PendingRequest) (due : Time) : TimerView :=
  { v with
    pending := some request
    timers := v.clearConsentTimer.timers ++ [⟨v.nextTimer, due, .consent⟩]
    consentTimer := some v.nextTimer
    nextTimer := v.nextTimer + 1 }

theorem ask_pending (pending : Option PendingRequest) (request : PendingRequest) (due : Time) :
    { v with pending := pending }.ask request due = v.ask request due := by
  unfold ask clearConsentTimer
  cases v.consentTimer <;> rfl

/-- The pending request is over, and its timeout goes. -/
def answer : TimerView := { v.clearConsentTimer with pending := none }

/-- The timeout of the request has fired. -/
def lapse (id : TimerId) : TimerView := { v.clearTimeout id with consentTimer := none, pending := none }

/-- The grace period of a user starts. -/
def release (userId : UserId) (due : Time) : TimerView :=
  { v with
    graceTimers := v.graceTimers.filter (fun entry => entry.1 ≠ userId) ++ [(userId, v.nextTimer)]
    timers := v.timers ++ [⟨v.nextTimer, due, .grace userId⟩]
    nextTimer := v.nextTimer + 1 }

/-- The timeout of a grace period has fired. -/
def expire (id : TimerId) (userId : UserId) : TimerView :=
  { v.clearTimeout id with graceTimers := v.graceTimers.filter fun entry => entry.1 ≠ userId }

/-- A user is back within its grace period. -/
def resume (userId : UserId) : TimerView :=
  { v with
    graceTimers := v.graceTimers.filter fun entry => entry.1 ≠ userId
    timers := v.timers.filter fun t => (userId, t.id) ∉ v.graceTimers }

/-- The room is destroyed. -/
def destroy : TimerView :=
  { v with
    graceTimers := []
    timers := v.timers.filter fun t => t.id ∉ v.graceTimers.map Prod.snd }

/-- A socket has been closed: its user's grace period starts, and a request of it is over. -/
def close (leaver : Option RoomUserInternal) (due : Time) (drops : Bool) : TimerView :=
  let v := match leaver with
    | none => v
    | some user => v.release user.id due
  if drops then v.answer else v

theorem close_cases (leaver : Option RoomUserInternal) (due : Time) (drops : Bool) :
    ∃ left, (leaver = none ∧ left = v ∨ ∃ user, leaver = some user ∧ left = v.release user.id due) ∧
      v.close leaver due drops = if drops then left.answer else left := by
  cases leaver with
  | none => exact ⟨_, .inl ⟨rfl, rfl⟩, rfl⟩
  | some user => exact ⟨_, .inr ⟨user, rfl, rfl⟩, rfl⟩

end TimerView

/-! ## The steps -/

inductive TimerStep (cfg : Config) (s : Server) (t : ServerTrigger) (g : Step) : Prop where
  | kept
      (hasks : requestsConsent cfg s t = none)
      (hview : g.state.timerView = s.timerView)
  | loaded (p : ProblemId)
      (hloads : loads t = some p)
      (hview : g.state.timerView = { s.timerView with pending := none })
  | asked (requester : RoomUserInternal) (other : SocketId)
      (hrequester : requestsConsent cfg s t = some requester)
      (hpartner : s.partner requester = some other)
      (hview : g.state.timerView =
        s.timerView.ask ⟨⟨requester.id, s.now⟩, s.nextRequest⟩ (s.now + cfg.hintConsentMs))
  /-- nobody else is there to be asked, and no timeout starts -/
  | unheard (requester : RoomUserInternal)
      (hrequester : requestsConsent cfg s t = some requester)
      (hpartner : s.partner requester = none)
      (hview : g.state.timerView = { s.timerView with
        pending := some ⟨⟨requester.id, s.now⟩, s.nextRequest⟩ })
  | answered (socket : SocketId) (event : ClientEvent) (seen : Option SeenRequest)
      (ht : t = .task (.admitted socket event seen) .go)
      (hevent : event.isHintResponse = true)
      (hview : g.state.timerView = s.timerView.answer)
  | lapsed (timer : Timer)
      (ht : t = .event (.timeout timer.id))
      (hm : timer ∈ s.timers)
      (hkind : timer.kind = .consent)
      (hdue : timer.due ≤ s.now)
      (hview : g.state.timerView = s.timerView.lapse timer.id)
  | expired (timer : Timer) (userId : UserId) (destroyed : Bool)
      (ht : t = .event (.timeout timer.id))
      (hm : timer ∈ s.timers)
      (hkind : timer.kind = .grace userId)
      (hdue : timer.due ≤ s.now)
      (hview : g.state.timerView = if destroyed then (s.timerView.expire timer.id userId).destroy
        else s.timerView.expire timer.id userId)
  | closed (socket : SocketId)
      (hcloses : closes s t = some socket)
      (hlive : socket ∈ s.live)
      (hview : g.state.timerView = s.timerView.close (s.leaver socket)
        (s.now + s.room.gracePeriodMs) (s.dropsRequest socket))
  | resumed (socket : SocketId) (payload : UserJoinPayload) (existing : RoomUserInternal)
      (hseating : seating t = some (socket, payload))
      (hexisting : reconnectingUser s.room payload.reconnectToken = some existing)
      (hview : g.state.timerView = s.timerView.resume existing.id)
  | destroyed
      (ht : t = .event .sweep)
      (hview : g.state.timerView = s.timerView.destroy)

variable {cfg : Config} {s : Server} {t : ServerTrigger} {o : Outcome} {g : Step} {socket : SocketId}

theorem clearConsentTimer_timerView (s : Server) :
    s.clearConsentTimer.timerView = s.timerView.clearConsentTimer := by
  unfold Server.clearConsentTimer TimerView.clearConsentTimer
  show _ = match s.consentTimer with
    | none => s.timerView
    | some id => { s.timerView.clearTimeout id with consentTimer := none }
  cases s.consentTimer <;> rfl

/-! ## Requests and answers -/

/-- A request that becomes pending is that of a user in a registered room with company. -/
theorem requestsConsent_spec {requester : RoomUserInternal} (h : requestsConsent cfg s t = some requester) :
    ∃ socket seen, t = .task (.admitted socket .hintRequest seen) .go ∧ s.registered = true ∧
      1 < s.room.connectedUserCount ∧ s.room.pendingHintRequest = none ∧ requester ∈ s.room.users ∧
      requester.socketId = some socket := by
  unfold requestsConsent at h
  split at h
  · rename_i socket seen
    split_ifs at h with hall
    obtain ⟨-, hregistered, hallowed, hcount⟩ := hall
    have hpending : s.room.pendingHintRequest = none := by
      unfold getHintRequestRejection at hallowed
      split_ifs at hallowed
      exact hintRequestRefusal_eq_none hallowed
    exact ⟨socket, seen, rfl, hregistered, hcount, hpending, List.mem_of_find?_eq_some h,
      by simpa using List.find?_some h⟩
  · cases h

section
variable {seen : Option SeenRequest}

theorem startConsentTimer_timerView (cfg : Config) (s : Server) (request : PendingRequest)
    (h : s.room.pendingHintRequest = some request) :
    (startConsentTimer cfg s).timerView = s.timerView.ask request (s.now + cfg.hintConsentMs) := by
  unfold startConsentTimer TimerView.ask
  rw [← clearConsentTimer_timerView]
  unfold Server.clearConsentTimer
  cases s.consentTimer with
  | none => simp [Server.timerView, Server.setTimeout, h]
  | some id => simp [Server.timerView, Server.setTimeout, Server.clearTimeout, h]

/-- A request is sent to the other user, and the timeout for its answer starts. -/
theorem sendPendingHintRequest_timers {f : SocketId → Option Time}
    (hrequests : requestsConsent cfg s t = s.room.users.find? fun u => u.socketId = some socket) :
    TimerStep cfg s t
      (sendPendingHintRequest cfg (.of { s with lastHintRequestTime := f }) socket) := by
  unfold sendPendingHintRequest
  dsimp only [Segment.of_state]
  split
  · rename_i hnone
    exact .kept (hrequests.trans hnone) rfl
  · rename_i requester hrequester
    have hsocket : requester.socketId = some socket := by simpa using List.find?_some hrequester
    have hpartner : s.partner requester = (s.room.users.find? fun u =>
        u.connected && u.socketId ≠ some socket).bind fun u => u.socketId := by
      rw [Server.partner, hsocket]
    rw [hrequester] at hrequests
    split
    · rename_i hother
      refine .unheard requester hrequests ?_ rfl
      exact hpartner.trans (congrArg (fun found : Option RoomUserInternal =>
        found.bind fun u => u.socketId) hother)
    · rename_i other hother
      have hbind := hpartner.trans (congrArg (fun found : Option RoomUserInternal =>
        found.bind fun u => u.socketId) hother)
      split
      · rename_i hgone
        exact .unheard requester hrequests (hbind.trans hgone) rfl
      · rename_i otherSocket hthere
        refine .asked requester otherSocket hrequests (hbind.trans hthere) ?_
        exact (startConsentTimer_timerView cfg _ ⟨⟨requester.id, s.now⟩, s.nextRequest⟩ rfl).trans
          (s.timerView.ask_pending _ _ _)

theorem handleHintRequest_timers (hlive : socket ∈ s.live) (hregistered : s.registered = true) :
    TimerStep cfg s (.task (.admitted socket .hintRequest seen) .go)
      (handleHintRequest cfg s socket) := by
  have hrequests : requestsConsent cfg s (.task (.admitted socket .hintRequest seen) .go) =
      if (getHintRequestRejection cfg s socket).2 = none ∧ 1 < s.room.connectedUserCount then
        s.room.users.find? fun u => u.socketId = some socket
      else none := by
    simp only [requestsConsent, hlive, hregistered, true_and]
  obtain ⟨f, hf⟩ : ∃ f, (getHintRequestRejection cfg s socket).1 =
      { s with lastHintRequestTime := f } := by
    unfold getHintRequestRejection
    split_ifs
    · exact ⟨s.lastHintRequestTime, rfl⟩
    · exact ⟨_, rfl⟩
  unfold handleHintRequest
  generalize getHintRequestRejection cfg s socket = r at hrequests hf
  obtain ⟨s', message⟩ := r
  obtain rfl : s' = { s with lastHintRequestTime := f } := hf
  cases message with
  | some message => exact .kept (hrequests.trans (if_neg fun hboth => nomatch hboth.1)) rfl
  | none =>
    dsimp only
    split_ifs with hcount
    · exact .kept (hrequests.trans (if_neg fun hboth => hcount.not_gt hboth.2)) rfl
    · exact sendPendingHintRequest_timers (hrequests.trans (if_pos ⟨rfl, not_le.mp hcount⟩))

theorem handleHintApprove_timers : TimerStep cfg s (.task (.admitted socket .hintApprove seen) .go)
    (handleHintApprove s socket seen) := by
  unfold handleHintApprove
  split
  · exact .kept rfl rfl
  · refine .answered socket .hintApprove seen rfl rfl ?_
    show { s.clearConsentTimer.timerView with pending := none } = _
    rw [clearConsentTimer_timerView]
    rfl

theorem handleHintDeny_timers :
    TimerStep cfg s (.task (.admitted socket .hintDeny seen) .go) (handleHintDeny s) := by
  unfold handleHintDeny
  split
  · exact .kept rfl rfl
  · obtain ⟨hstate, -, -⟩ :=
      denyPendingHintRequest_spec (.of s.clearConsentTimer) ‹PendingRequest›
    refine .answered socket .hintDeny seen rfl rfl ?_
    rw [hstate]
    show { s.clearConsentTimer.timerView with pending := none } = _
    rw [clearConsentTimer_timerView]
    rfl

end

/-! ## Leaving -/

theorem handleDisconnect_timerView (g : Step) (socket : SocketId) :
    (handleDisconnect g socket).state.timerView = g.state.timerView.close (g.state.leaver socket)
      (g.state.now + g.state.room.gracePeriodMs) false := by
  unfold handleDisconnect Server.leaver
  cases hregistered : g.state.registered with
  | false => rfl
  | true =>
    simp only [Bool.not_true, Bool.false_eq_true, if_false, if_true]
    generalize g.state.room.findBySocketId socket = found
    cases found <;> rfl

theorem handleRequesterDisconnect_timerView (g : Step) :
    (handleRequesterDisconnect g).state.timerView =
      if requesterGone g.state then g.state.timerView.answer else g.state.timerView := by
  unfold handleRequesterDisconnect requesterGone
  cases hpending : g.state.room.pendingHintRequest with
  | none => rfl
  | some request =>
    dsimp only
    rw [Option.any_some]
    cases hfind : g.state.room.findUser request.requestedBy with
    | none => rfl
    | some requester =>
      dsimp only
      rw [Option.any_some]
      cases requester.connected with
      | true => rfl
      | false =>
        show { g.state.clearConsentTimer.timerView with pending := none } = _
        rw [clearConsentTimer_timerView]
        rfl

theorem disconnectSocket_timers (hcloses : closes s t = some socket) (hlive : socket ∈ s.live)
    (hstate : g.state = s) : TimerStep cfg s t (disconnectSocket g socket) := by
  subst hstate
  refine .closed socket hcloses hlive ?_
  obtain ⟨hview, hregistered, -⟩ := handleDisconnect_spec (g.modify fun s => { s with
    live := s.live.filter (· ≠ socket)
    joined := s.joined.filter (· ≠ socket) }) socket
  have htimers := handleDisconnect_timerView (g.modify fun s => { s with
    live := s.live.filter (· ≠ socket)
    joined := s.joined.filter (· ≠ socket) }) socket
  rw [Segment.modify_state] at hview hregistered htimers
  dsimp only at hview hregistered
  have htimers' : (handleDisconnect (g.modify fun s => { s with
      live := s.live.filter (· ≠ socket)
      joined := s.joined.filter (· ≠ socket) }) socket).state.timerView =
      g.state.timerView.close (g.state.leaver socket) (g.state.now + g.state.room.gracePeriodMs)
        false := htimers
  unfold disconnectSocket
  rw [if_neg (not_not.mpr hlive)]
  dsimp only
  generalize handleDisconnect (g.modify fun s => { s with
    live := s.live.filter (· ≠ socket)
    joined := s.joined.filter (· ≠ socket) }) socket = g' at hview hregistered htimers' ⊢
  have husers : g'.state.room.users = g.state.leave socket := congrArg RoomView.users hview
  have hpending : g'.state.room.pendingHintRequest = g.state.room.pendingHintRequest :=
    congrArg RoomView.pendingHintRequest hview
  have hdrops : g.state.dropsRequest socket = (g.state.registered && requesterGone g'.state) := by
    unfold Server.dropsRequest requesterGone Room.findUser
    rw [husers, hpending]
  rw [hdrops, ← hregistered]
  cases hr : g'.state.registered with
  | true =>
    rw [if_pos rfl, handleRequesterDisconnect_timerView, htimers', Bool.true_and]
    cases requesterGone g'.state <;> rfl
  | false =>
    rw [if_neg Bool.false_ne_true, htimers', Bool.false_and]

theorem destroyRoom_timerView (s : Server) : (destroyRoom s).timerView =
    if s.registered then s.timerView.destroy else s.timerView := by
  unfold destroyRoom
  split_ifs <;> rfl

theorem handleGraceTimeout_timerView (s : Server) (id : TimerId) (userId : UserId) :
    ∃ destroyed : Bool, (handleGraceTimeout (s.clearTimeout id) userId).state.timerView =
      if destroyed then (s.timerView.expire id userId).destroy
      else s.timerView.expire id userId := by
  unfold handleGraceTimeout removeDisconnectedUser
  split
  · exact ⟨false, rfl⟩
  · dsimp only
    rw [cancelGracePeriod_removeUser]
    split_ifs
    · exact ⟨false, rfl⟩
    · exact ⟨false, rfl⟩
    · refine ⟨s.registered, ?_⟩
      rw [Segment.of_state, destroyRoom_timerView]
      rfl

theorem handleConsentTimeout_timerView (s : Server) (id : TimerId) :
    (handleConsentTimeout (s.clearTimeout id)).state.timerView = s.timerView.lapse id := by
  unfold handleConsentTimeout
  dsimp only
  split
  · rename_i hnone
    have hpending : s.room.pendingHintRequest = none := hnone
    show { s.timerView.lapse id with pending := s.room.pendingHintRequest } = _
    rw [hpending]
    rfl
  · rw [(denyPendingHintRequest_spec _ _).1]
    rfl

theorem handleTimeout_timers {timer : Timer} (hm : timer ∈ s.timers) (hdue : timer.due ≤ s.now) :
    TimerStep cfg s (.event (.timeout timer.id)) (handleTimeout s timer) := by
  unfold handleTimeout
  dsimp only
  split
  · rename_i userId hkind
    obtain ⟨destroyed, hview⟩ := handleGraceTimeout_timerView s timer.id userId
    exact .expired timer userId destroyed rfl hm hkind hdue hview
  · rename_i hkind
    exact .lapsed timer rfl hm hkind hdue (handleConsentTimeout_timerView s timer.id)

/-! ## Joining -/

theorem emitJoinedPayload_timerView (g : Step) (socket : SocketId) (user : RoomUserInternal)
    (announced : Option RoomUser) :
    (emitJoinedPayload g socket user announced).state.timerView = g.state.timerView := by
  unfold emitJoinedPayload
  simp only [Segment.suspend_state, Segment.toSocket_state, Segment.modify_state]
  split_ifs <;> rfl

theorem handleUserJoin_timerView (s : Server) (socket : SocketId) (payload : Option UserJoinPayload) :
    (handleUserJoin s socket payload).state.timerView = s.timerView := by
  unfold handleUserJoin
  split
  · rfl
  · split
    · rfl
    · split
      · exact emitJoinedPayload_timerView (.of s) socket _ none
      · rfl

theorem takeSeat_timers (payload : UserJoinPayload) :
    TimerStep cfg s (.task (.joinLimiter socket payload) .allowed) (takeSeat s socket payload) := by
  unfold takeSeat
  split
  · rename_i existing hexisting
    refine .resumed socket payload existing rfl hexisting ?_
    rw [emitJoinedPayload_timerView]
    rfl
  · rename_i hnew
    split_ifs with hfull
    · by_cases hlive : socket ∈ s.live
      · refine disconnectSocket_timers ?_ hlive rfl
        simp [closes, Room.seats, hnew, hfull]
      · refine .kept rfl ?_
        have hgone : socket ∉ ((Segment.of s).toSocket socket .roomFull).state.live := hlive
        unfold disconnectSocket
        rw [if_pos hgone]
        rfl
    · refine .kept rfl ?_
      rw [emitJoinedPayload_timerView]
      rfl

/-! ## Every segment -/

theorem handleEvent_timers {e : ServerEvent} (h : handleEvent cfg s e = some g) :
    TimerStep cfg s (.event e) g := by
  unfold handleEvent at h
  split at h
  · cases h; exact .kept rfl rfl
  · split_ifs at h
    cases h
    exact .kept rfl (by rw [authMiddleware_state])
  · split_ifs at h
    cases h
    exact .kept rfl rfl
  · split_ifs at h with hlive
    cases h
    exact disconnectSocket_timers rfl hlive rfl
  · rename_i id
    split at h
    · cases h
    · rename_i timer htimer
      have hid : timer.id = id := by simpa using List.find?_some htimer
      subst hid
      split_ifs at h with hdue
      cases h
      exact handleTimeout_timers (List.mem_of_find?_eq_some htimer) hdue
  · split_ifs at h with hregistered
    cases h
    unfold destroyIdleRoom
    split_ifs
    · exact .kept rfl rfl
    · refine .destroyed rfl ?_
      rw [Segment.of_state, destroyRoom_timerView, if_pos hregistered]
  · cases h; exact .kept rfl rfl
  · cases h; exact .kept rfl rfl

/-- Nothing but requests, answers, switches and departures touches the pending request. -/
theorem fire_pending (h : (server cfg).fire s t = some g) (hasks : requestsConsent cfg s t = none)
    (hanswers : answersRequest s t = false) (hloads : loads t = none) (hcloses : closes s t = none) :
    g.state.room.pendingHintRequest = s.room.pendingHintRequest := by
  cases fire_announces h with
  | quiet hview _ => exact congrArg RoomView.pendingHintRequest hview
  | connected hview _ => exact congrArg RoomView.pendingHintRequest hview
  | replies _ hview =>
    obtain ⟨_, _, hview⟩ := hview
    exact congrArg RoomView.pendingHintRequest hview
  | hintRefused _ _ _ hview _ => exact congrArg RoomView.pendingHintRequest hview
  | hintDelivered _ _ _ _ hview _ => exact congrArg RoomView.pendingHintRequest hview
  | hintAsked _ hrequester => rw [hasks] at hrequester; cases hrequester
  | hintAnswered _ hanswers' => rw [hanswers] at hanswers'; cases hanswers'
  | loaded _ _ hloads' => rw [hloads] at hloads'; cases hloads'
  | testCaseAdded _ hview _ => exact congrArg RoomView.pendingHintRequest hview
  | hydrated _ _ _ hends => exact congrArg RoomView.pendingHintRequest hends.view
  | joined _ _ _ _ _ hanswers' => exact congrArg RoomView.pendingHintRequest hanswers'.view
  | closed _ _ hcloses' => rw [hcloses] at hcloses'; cases hcloses'
  | removed _ _ _ hview _ => exact congrArg RoomView.pendingHintRequest hview

theorem timerView_of (htable : g.state.tableView = s.tableView)
    (hpending : g.state.room.pendingHintRequest = s.room.pendingHintRequest) :
    g.state.timerView = s.timerView := by
  unfold Server.timerView
  rw [hpending]
  exact congrArg (fun v : TableView => (⟨s.room.pendingHintRequest, v.timers, v.consentTimer,
    v.gracePeriodTimers, v.nextTimer⟩ : TimerView)) htable

/-- Segments that leave the seat table alone and are about no request. -/
theorem TimerStep.of_table (h : (server cfg).fire s t = some g)
    (htable : g.state.tableView = s.tableView) (hasks : requestsConsent cfg s t = none)
    (hanswers : answersRequest s t = false) (hloads : loads t = none) (hcloses : closes s t = none) :
    TimerStep cfg s t g :=
  .kept hasks (timerView_of htable (fire_pending h hasks hanswers hloads hcloses))

theorem fire_loaded {p : ProblemId} (h : (server cfg).fire s t = some g) (hloads : loads t = some p) :
    TimerStep cfg s t g := by
  obtain ⟨hintLimit, importsUsed, hroom⟩ := (fire_switched h hloads).room
  have hwithin := fire_within h
  rw [triggerFamily_of_loads hloads] at hwithin
  have htable : g.state.tableView = s.tableView := hwithin.observe Server.tableView fun _ => rfl
  have hpending : g.state.room.pendingHintRequest = none := by
    rw [hroom]
    rfl
  refine .loaded p hloads ?_
  unfold Server.timerView
  rw [hpending]
  exact congrArg (fun v : TableView => (⟨none, v.timers, v.consentTimer, v.gracePeriodTimers,
    v.nextTimer⟩ : TimerView)) htable

/-- **Timeouts.** Every segment treats requests and timeouts in one of the ways listed. -/
theorem fire_timers (h : (server cfg).fire s t = some g) : TimerStep cfg s t g := by
  have hwithin := fire_within h
  cases t with
  | event e => exact handleEvent_timers h
  | task task o =>
    cases hloads : loads (.task task o) with
    | some p => exact fire_loaded h hloads
    | none =>
      have hresume : resumeTask cfg s task o = some g := h
      cases task with
      | admitted socket event seen =>
        cases o <;> cases hresume
        unfold runHandler at hwithin h ⊢
        by_cases hlive : socket ∈ s.live
        · rw [if_neg (not_not.mpr hlive)] at hwithin h ⊢
          cases event with
          | userJoin payload => exact .kept rfl (handleUserJoin_timerView s socket payload)
          | hintRequest =>
            dsimp only
            split_ifs with hregistered
            · exact handleHintRequest_timers hlive hregistered
            · exact .kept (if_neg fun hall => hregistered hall.2.1) rfl
          | hintApprove =>
            dsimp only
            split_ifs
            · exact handleHintApprove_timers
            · exact .kept rfl rfl
          | hintDeny =>
            dsimp only
            split_ifs
            · exact handleHintDeny_timers
            · exact .kept rfl rfl
          | _ => exact .of_table h (hwithin.observe Server.tableView fun _ => rfl) rfl rfl rfl rfl
        · rw [if_pos hlive]
          refine .kept ?_ rfl
          cases event <;> first | rfl | exact if_neg fun hall => hlive hall.1
      | joinLimiter socket payload =>
        change afterJoinLimiter s socket payload o = some g at hresume
        unfold afterJoinLimiter at hresume
        split at hresume <;> cases hresume
        · exact takeSeat_timers payload
        · exact .kept rfl rfl
        · exact .kept rfl rfl
      | hydrating socket p announced => exact .kept rfl (by rw [afterHydration_state hresume])
      | hintStored d => exact .of_table h (resumeHint_tableView rfl hresume) rfl rfl hloads rfl
      | hintIpLimiter d => exact .of_table h (resumeHint_tableView rfl hresume) rfl rfl hloads rfl
      | hintQuota d => exact .of_table h (resumeHint_tableView rfl hresume) rfl rfl hloads rfl
      | hintProblem d p => exact .of_table h (resumeHint_tableView rfl hresume) rfl rfl hloads rfl
      | hintLimiter d prompt => exact .of_table h (resumeHint_tableView rfl hresume) rfl rfl hloads rfl
      | hintReserve d prompt => exact .of_table h (resumeHint_tableView rfl hresume) rfl rfl hloads rfl
      | hintStream d prompt generated closing =>
        exact .of_table h (resumeHint_tableView rfl hresume) rfl rfl hloads rfl
      | hintFailing d reason => exact .of_table h (resumeHint_tableView rfl hresume) rfl rfl hloads rfl
      | _ => exact .of_table h (hwithin.observe Server.tableView fun _ => rfl) rfl rfl hloads rfl

end CodeShare
