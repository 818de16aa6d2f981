import CodeShare.Properties.PendingRequests
import CodeShare.Properties.ReconnectTokens
import CodeShare.Server.LifetimeSteps

/-! # Grace periods and idle rooms

A disconnect does not stamp the room. What protects the seat of a user who is away is that the last
user to leave does so early enough: every grace period then ends before the room counts as idle. The
invariant compares the timeouts of grace periods with the stamp.
-/

namespace CodeShare
open Tasks
set_option autoImplicit false

/-- Nobody but the user is connected. -/
def LeavesEmpty (s : Server) (user : RoomUserInternal) : Prop :=
  ∀ other ∈ s.room.users, other.connected = true → other.id = user.id

instance (s : Server) (user : RoomUserInternal) : Decidable (LeavesEmpty s user) := by
  unfold LeavesEmpty
  infer_instance

def sweeps : ServerTrigger → Bool
  | .event .sweep => true
  | _ => false

/-- The timeout of a grace period. -/
def Timer.isGrace (timer : Timer) : Bool :=
  match timer.kind with
  | .grace _ => true
  | .consent => false

/-- Whoever leaves the room empty does so early enough for its grace period to end before the room is
idle, and no sweep overtakes the timeout of a grace period. -/
structure LeavesInTime (cfg : Config) (c : ServerConf) (t : ServerTrigger) : Prop where
  leaving : ∀ socket user, closes c.shared t = some socket → socket ∈ c.shared.live →
    c.shared.leaver socket = some user → LeavesEmpty c.shared user →
    c.shared.now + c.shared.room.gracePeriodMs < c.shared.room.lastActivityAt + cfg.idleRoomTtlMs
  punctual : sweeps t = true → ∀ timer ∈ c.shared.timers, timer.isGrace = true →
    c.shared.now ≤ timer.due

instance (cfg : Config) (c : ServerConf) (t : ServerTrigger) : Decidable (LeavesInTime cfg c t) :=
  decidable_of_iff ((∀ socket ∈ closes c.shared t, socket ∈ c.shared.live →
      ∀ user ∈ c.shared.leaver socket, LeavesEmpty c.shared user →
        c.shared.now + c.shared.room.gracePeriodMs <
          c.shared.room.lastActivityAt + cfg.idleRoomTtlMs) ∧
    (sweeps t = true → ∀ timer ∈ c.shared.timers, timer.isGrace = true → c.shared.now ≤ timer.due))
    ⟨fun h => ⟨fun socket user hcloses hlive hleaver => h.1 socket hcloses hlive user hleaver, h.2⟩,
      fun h => ⟨fun socket hcloses hlive user hleaver => h.leaving socket user hcloses hlive hleaver,
        h.punctual⟩⟩

variable {cfg : Config} {mode : RoomMode} {now : Time} {acts : List ServerAct} {c c' : ServerConf}
  {s : Server} {t : ServerTrigger} {g : Step} {out : List Effect} {u : RoomUserInternal}

/-! ## The stamp and the timeouts -/

structure Covered (cfg : Config) (s : Server) : Prop where
  stamped : s.room.lastActivityAt ≤ s.now
  bounded : ∀ timer ∈ s.timers, timer.isGrace = true → timer.due ≤ s.now + s.room.gracePeriodMs
  covered : s.registered = true → (∀ u ∈ s.room.users, u.connected = false) →
    ∀ timer ∈ s.timers, timer.isGrace = true → timer.due < s.room.lastActivityAt + cfg.idleRoomTtlMs

/-- A timeout of a grace period that is new is due after a full period, and starts when a connected
user leaves. -/
structure StartsGrace (s : Server) (t : ServerTrigger) (timer : Timer) : Prop where
  due : timer.due = s.now + s.room.gracePeriodMs
  leaver : ∃ socket user, closes s t = some socket ∧ socket ∈ s.live ∧ s.leaver socket = some user

theorem grace_of_answer {v : TimerView} {timer : Timer} (hm : timer ∈ v.answer.timers) : timer ∈ v.timers := by
  change timer ∈ v.clearConsentTimer.timers at hm
  unfold TimerView.clearConsentTimer at hm
  split at hm
  · exact hm
  · exact (List.mem_filter.mp hm).1

theorem grace_of_close {leaver : Option RoomUserInternal} {due : Time} {drops : Bool} {timer : Timer}
    (hm : timer ∈ (s.timerView.close leaver due drops).timers) (hgrace : timer.isGrace = true) :
    timer ∈ s.timers ∨ timer.due = due ∧ leaver ≠ none := by
  obtain ⟨left, hcases, hclose⟩ := s.timerView.close_cases leaver due drops
  have hleft : timer ∈ left.timers := by
    rw [hclose] at hm
    split_ifs at hm
    · exact grace_of_answer hm
    · exact hm
  rcases hcases with ⟨-, rfl⟩ | ⟨user, hleaver, rfl⟩
  · exact .inl hleft
  · rcases List.mem_append.mp hleft with hm | hm
    · exact .inl hm
    · rw [List.mem_singleton] at hm
      subst hm
      exact .inr ⟨rfl, hleaver ▸ Option.some_ne_none user⟩

/-- Timeouts of grace periods come from users who leave. -/
theorem fire_grace (h : (server cfg).fire s t = some g) {timer : Timer} (hm : timer ∈ g.state.timers)
    (hgrace : timer.isGrace = true) : timer ∈ s.timers ∨ StartsGrace s t timer := by
  have hkept : ∀ {v : TimerView}, g.state.timerView = v → (timer ∈ v.timers → timer ∈ s.timers) →
      timer ∈ s.timers ∨ StartsGrace s t timer := by
    rintro v rfl hsub
    exact .inl (hsub hm)
  cases fire_timers h with
  | kept _ hview => exact hkept hview id
  | loaded _ _ hview => exact hkept hview id
  | asked requester _ _ _ hview =>
    refine hkept hview fun hm => ?_
    rcases List.mem_append.mp hm with hm | hm
    · exact grace_of_answer (v := s.timerView) hm
    · rw [List.mem_singleton] at hm
      subst hm
      cases hgrace
  | unheard _ _ _ hview => exact hkept hview id
  | answered _ _ _ _ _ hview => exact hkept hview grace_of_answer
  | lapsed _ _ _ _ _ hview => exact hkept hview fun hm => (List.mem_filter.mp hm).1
  | expired _ _ destroyed _ _ _ _ hview =>
    refine hkept hview fun hm => ?_
    cases destroyed with
    | false => exact (List.mem_filter.mp hm).1
    | true => exact (List.mem_filter.mp (List.mem_filter.mp hm).1).1
  | closed socket hcloses hlive hview =>
    have hm' : timer ∈ (s.timerView.close (s.leaver socket) (s.now + s.room.gracePeriodMs)
        (s.dropsRequest socket)).timers := by
      rw [← hview]
      exact hm
    rcases grace_of_close hm' hgrace with hold | ⟨hdue, hleaver⟩
    · exact .inl hold
    · obtain ⟨user, hsome⟩ := Option.ne_none_iff_exists'.mp hleaver
      exact .inr ⟨hdue, socket, user, hcloses, hlive, hsome⟩
  | resumed _ _ _ _ _ hview => exact hkept hview fun hm => (List.mem_filter.mp hm).1
  | destroyed _ hview => exact hkept hview fun hm => (List.mem_filter.mp hm).1

/-! ## Connected users -/

/-- A connected user stays, unless its socket is closed. -/
theorem connected_step (hseats : SeatTable s.tableView) (h : (server cfg).fire s t = some g)
    (hu : u ∈ s.room.users) (hconnected : u.connected = true) :
    (∃ w ∈ g.state.room.users, w.id = u.id ∧ w.connected = true) ∨
      ∃ socket, closes s t = some socket ∧ socket ∈ s.live ∧ s.leaver socket = some u := by
  cases fire_users h with
  | kept husers => exact .inl ⟨u, husers ▸ hu, rfl, hconnected⟩
  | closed socket hcloses hlive husers =>
    rcases leave_connected hseats socket hu hconnected with ⟨w, hw, hrest⟩ | hleaver
    · exact .inl ⟨w, husers ▸ hw, hrest⟩
    · exact .inr ⟨socket, hcloses, hlive, hleaver⟩
  | reseated socket payload existing _ _ husers =>
    obtain ⟨w, hw, hrest⟩ := reseat_connected hu hconnected existing.id socket
    exact .inl ⟨w, husers ▸ hw, hrest⟩
  | added user _ husers => exact .inl ⟨u, husers ▸ List.mem_append_left _ hu, rfl, hconnected⟩
  | removed userId hexpels husers =>
    exact .inl ⟨u, husers ▸ connected_not_expelled hseats hexpels hu hconnected, rfl, hconnected⟩

/-! ## The invariant -/

theorem covered_step (h : Covered cfg c.shared)
    (hseats : c.shared.registered = true → SeatTable c.shared.tableView)
    (htime : LeavesInTime cfg c t) (hfire : (server cfg).fire c.shared t = some g) :
    Covered cfg g.state := by
  have hnow : c.shared.now ≤ g.state.now := by
    rw [fire_now hfire]
    exact Nat.le_add_right _ _
  have hlater : c.shared.room.lastActivityAt ≤ g.state.room.lastActivityAt := by
    rcases fire_stamps hfire with heq | heq
    · exact heq.ge
    · exact h.stamped.trans heq.ge
  refine ⟨?_, fun timer hm hgrace => ?_, fun hregistered haway timer hm hgrace => ?_⟩
  · rcases fire_stamps hfire with heq | heq
    · exact heq.le.trans (h.stamped.trans hnow)
    · exact heq.le.trans hnow
  · rw [fire_gracePeriod hfire]
    refine le_trans ?_ (Nat.add_le_add_right hnow _)
    rcases fire_grace hfire hm hgrace with hold | hstarts
    · exact h.bounded timer hold hgrace
    · exact hstarts.due.le
  · obtain ⟨hbefore, -⟩ := fire_table hfire hregistered
    by_cases hthere : ∃ u ∈ c.shared.room.users, u.connected = true
    · -- the last connected user has left
      obtain ⟨u, hu, hconnected⟩ := hthere
      have hclosed : ∀ w ∈ c.shared.room.users, w.connected = true →
          ∃ socket, closes c.shared t = some socket ∧ socket ∈ c.shared.live ∧
            c.shared.leaver socket = some w := by
        intro w hw hw'
        rcases connected_step (hseats hbefore) hfire hw hw' with ⟨w', hmem, -, hstill⟩ | hleft
        · rw [haway w' hmem] at hstill
          cases hstill
        · exact hleft
      obtain ⟨socket, hcloses, hlive, hleaver⟩ := hclosed u hu hconnected
      have hempty : LeavesEmpty c.shared u := by
        intro other hother hother'
        obtain ⟨socket', hcloses', -, hleaver'⟩ := hclosed other hother hother'
        obtain rfl := Option.some.inj (hcloses.symm.trans hcloses')
        rw [Option.some.inj (hleaver.symm.trans hleaver')]
      have hearly := htime.leaving socket u hcloses hlive hleaver hempty
      have hdue : timer.due ≤ c.shared.now + c.shared.room.gracePeriodMs := by
        rcases fire_grace hfire hm hgrace with hold | hstarts
        · exact h.bounded timer hold hgrace
        · exact hstarts.due.le
      exact hdue.trans_lt (hearly.trans_le (Nat.add_le_add_right hlater _))
    · have hnobody : ∀ u ∈ c.shared.room.users, u.connected = false := by
        intro u hu
        by_contra hconnected
        exact hthere ⟨u, hu, by simpa using hconnected⟩
      rcases fire_grace hfire hm hgrace with hold | hstarts
      · exact (h.covered hbefore hnobody timer hold hgrace).trans_le (Nat.add_le_add_right hlater _)
      · obtain ⟨socket, user, -, -, hleaver⟩ := hstarts.leaver
        unfold Server.leaver at hleaver
        rw [if_pos hbefore] at hleaver
        have hfound := List.find?_some hleaver
        rw [hnobody user (List.mem_of_find?_eq_some hleaver), Bool.and_false] at hfound
        cases hfound

theorem covered_run (hmeets : Meeting cfg (LeavesInTime cfg) mode now acts)
    (hreach : Reaches cfg mode now acts c out) : Covered cfg c.shared := by
  have h : Covered cfg c.shared ∧ (c.shared.registered = true → SeatTable c.shared.tableView) := by
    refine Machine.run_preserves
      (I := fun (c : ServerConf) (_ : List Effect) => Covered cfg c.shared ∧
        (c.shared.registered = true → SeatTable c.shared.tableView))
      (fun c c' past out t g rest h htime hby => ?_) ⟨?_, fun _ => initial_table cfg mode now⟩ hmeets hreach
    · rw [hby.shared]
      refine ⟨covered_step h.1 h.2 htime hby.fire, fun hregistered => ?_⟩
      obtain ⟨hbefore, hkeeps⟩ := fire_table hby.fire hregistered
      exact hkeeps (h.2 hbefore)
    · exact ⟨le_rfl, List.forall_mem_nil _, fun _ _ => List.forall_mem_nil _⟩
  exact h.1

/-! ## Sweeps -/

/-- A sweep finds the room with somebody connected, or not idle yet. -/
theorem sweep_spares (h : Covered cfg c.shared) (htime : LeavesInTime cfg c (.event .sweep))
    {userId : UserId} (hgrace : c.shared.InGrace userId) (hregistered : c.shared.registered = true) :
    destroyIdleRoom cfg c.shared = c.shared := by
  obtain ⟨id, -, timer, hm, -, hkind⟩ := hgrace
  have hisGrace : timer.isGrace = true := by
    unfold Timer.isGrace
    rw [hkind]
  unfold destroyIdleRoom
  by_cases hthere : 0 < c.shared.room.connectedUserCount
  · rw [if_pos (.inl hthere)]
  · have hnobody : ∀ u ∈ c.shared.room.users, u.connected = false := by
      intro u hu
      have hzero : c.shared.room.connectedUserCount = 0 := by omega
      have hfalse := List.countP_eq_zero.mp hzero u hu
      simpa using hfalse
    have hearly : c.shared.now < c.shared.room.lastActivityAt + cfg.idleRoomTtlMs :=
      (htime.punctual rfl timer hm hisGrace).trans_lt
        (h.covered hregistered hnobody timer hm hisGrace)
    rw [if_pos (.inr (Nat.sub_lt_left_of_lt_add h.stamped hearly))]

theorem sweep_registered (h : Covered cfg c.shared) (htime : LeavesInTime cfg c (.event .sweep))
    {userId : UserId} (hgrace : c.shared.InGrace userId) (hshared : c'.shared = g.state)
    (hfire : (server cfg).fire c.shared (.event .sweep) = some g) : c'.shared.registered = true := by
  change handleEvent cfg c.shared .sweep = some g at hfire
  simp only [handleEvent] at hfire
  split_ifs at hfire with hregistered
  cases hfire
  rw [hshared, Segment.of_state, sweep_spares h htime hgrace hregistered]
  exact hregistered

/-! ## The seat of a user who is away -/

/-- Neither a timeout of the user's grace period nor a return with its token. -/
structure StaysAway (u : RoomUserInternal) (c : ServerConf) (t : ServerTrigger) : Prop where
  waits : ∀ id, t = .event (.timeout id) → ∀ timer ∈ c.shared.timers, timer.id = id →
    timer.kind ≠ .grace u.id
  absent : ∀ socket payload, seating t = some (socket, payload) →
    payload.reconnectToken ≠ some (.wellFormed u.reconnectToken)

theorem handleTimeout_registered (s : Server) (timer : Timer)
    (h : (handleTimeout s timer).state.room.users ≠ []) :
    (handleTimeout s timer).state.registered = s.registered := by
  unfold handleTimeout at h ⊢
  dsimp only at h ⊢
  split at h
  · unfold handleGraceTimeout removeDisconnectedUser at h ⊢
    split
    · rfl
    · rename_i user hfound
      rw [hfound] at h
      dsimp only at h ⊢
      split_ifs at h ⊢ with hback husers
      · rfl
      · rfl
      · have hkept := congrArg RoomView.users (destroyRoom_roomView { s.clearTimeout timer.id with
          room := ((s.clearTimeout timer.id).room.cancelGracePeriod ‹UserId›).removeUser ‹UserId› })
        exact absurd (hkept.trans (not_not.mp husers)) h
  · unfold handleConsentTimeout
    dsimp only
    split
    · rfl
    · rw [(denyPendingHintRequest_spec _ _).1]
      rfl

theorem away_leave (hseats : SeatTable s.tableView) (hu : u ∈ s.room.users) (haway : u.connected = false)
    (socket : SocketId) : u ∈ s.leave socket := by
  unfold Server.leave
  split_ifs
  · split
    · exact hu
    · rename_i user hfound
      refine List.mem_map.mpr ⟨u, hu, if_neg fun hid => ?_⟩
      have hconnected := List.find?_some hfound
      rw [← hseats.eq_of_id hu (List.mem_of_find?_eq_some hfound) hid, haway, Bool.and_false] at hconnected
      cases hconnected
  · exact hu

/-- The record of a user who is away stays as it is until the grace period ends or the user returns. -/
theorem away_user_step (hseats : SeatTable c.shared.tableView) (hu : u ∈ c.shared.room.users)
    (haway : u.connected = false) (hstays : StaysAway u c t)
    (hfire : (server cfg).fire c.shared t = some g) : u ∈ g.state.room.users := by
  cases fire_users hfire with
  | kept husers => exact husers ▸ hu
  | closed socket _ _ husers => exact husers ▸ away_leave hseats hu haway socket
  | reseated socket payload existing hseating hexisting husers =>
    obtain ⟨hmem, -, hpresented⟩ := reconnectingUser_spec hexisting
    rw [husers]
    refine List.mem_map.mpr ⟨u, hu, if_neg fun hid => ?_⟩
    rw [← hseats.eq_of_id hu hmem hid] at hpresented
    exact hstays.absent socket payload hseating hpresented
  | added user _ husers => exact husers ▸ List.mem_append_left _ hu
  | removed userId hexpels husers =>
    rw [husers]
    refine List.mem_filter.mpr ⟨hu, ?_⟩
    have hne : u.id ≠ userId := by
      rintro rfl
      unfold expels at hexpels
      split at hexpels
      · rename_i id
        split at hexpels
        · rename_i timerId due userId hfound
          split_ifs at hexpels
          obtain rfl : userId = u.id := Option.some.inj hexpels
          have hid : timerId = id := by simpa using List.find?_some hfound
          exact hstays.waits id rfl _ (List.mem_of_find?_eq_some hfound) hid rfl
        · cases hexpels
      · cases hexpels
    simpa using hne

theorem away_step (h : Covered cfg c.shared) (hseats : SeatTable c.shared.tableView)
    (hregistered : c.shared.registered = true) (htime : LeavesInTime cfg c t)
    (hu : u ∈ c.shared.room.users) (haway : u.connected = false) (hstays : StaysAway u c t)
    (hfire : (server cfg).fire c.shared t = some g) :
    g.state.registered = true ∧ u ∈ g.state.room.users := by
  have hthere := away_user_step hseats hu haway hstays hfire
  refine ⟨?_, hthere⟩
  cases hends : ends t with
  | false => rw [fire_registered hfire hends, hregistered]
  | true =>
    unfold ends at hends
    split at hends
    · change handleEvent cfg c.shared (.timeout _) = some g at hfire
      simp only [handleEvent] at hfire
      split at hfire
      · cases hfire
      · split_ifs at hfire
        cases hfire
        rw [handleTimeout_registered c.shared _ (List.ne_nil_of_mem hthere), hregistered]
    · have hgrace := (hseats.seatInvariant.disconnected_iff u hu).mp haway
      change handleEvent cfg c.shared .sweep = some g at hfire
      unfold handleEvent at hfire
      dsimp only at hfire
      rw [if_pos hregistered, sweep_spares h htime hgrace hregistered] at hfire
      cases hfire
      exact hregistered
    · cases hends

/-- What a user who is away finds on its return. -/
structure SeatWaits (cfg : Config) (history : List ServerTurn) (c : ServerConf) (u : RoomUserInternal) :
    Prop where
  registered : c.shared.registered = true
  there : u ∈ c.shared.room.users
  grace : c.shared.InGrace u.id
  /-- a join passes the middleware, and over a socket without a user its handler waits for the rate limiter -/
  arrives : ∀ socket payload, socket ∈ c.shared.live →
    (server cfg).fire c.shared (.event (.receive socket (.userJoin (some payload)))) =
      some ((Segment.of c.shared).suspend (.admitted socket (.userJoin (some payload)) none))
  handled : ∀ socket payload seen, socket ∈ c.shared.live → c.shared.room.findBySocketId socket = none →
    (server cfg).fire c.shared (.task (.admitted socket (.userJoin (some payload)) seen) .go) =
      some ((Segment.of c.shared).suspend (.joinLimiter socket payload))
  /-- a join with the token last issued, behind its rate limiter, gives back the seat -/
  back : ∃ i, lastIssued (issues history) u.id = some i ∧ ∀ socket payload,
    payload.reconnectToken = some (.wellFormed i.token) →
    ∃ g, (server cfg).fire c.shared (.task (.joinLimiter socket payload) .allowed) = some g ∧
      ∃ w ∈ g.state.room.users, w.id = u.id ∧ w.displayName = u.displayName ∧ w.role = u.role ∧
        w.connected = true ∧ w.socketId = some socket

theorem takeSeat_back {past : List ServerTurn} (hledger : TokenLedger past c) (hu : u ∈ c.shared.room.users)
    (haway : u.connected = false) (socket : SocketId) {payload : UserJoinPayload}
    (htoken : payload.reconnectToken = some (.wellFormed u.reconnectToken)) :
    ∃ g, (server cfg).fire c.shared (.task (.joinLimiter socket payload) .allowed) = some g ∧
      ∃ w ∈ g.state.room.users, w.id = u.id ∧ w.displayName = u.displayName ∧ w.role = u.role ∧
        w.connected = true ∧ w.socketId = some socket := by
  have hexisting := hledger.reconnecting hu haway htoken
  have husers : (takeSeat c.shared socket payload).state.room.users = c.shared.reseat u.id socket := by
    unfold takeSeat
    rw [hexisting]
    dsimp only
    exact congrArg Room.users (emitJoinedPayload_life _ _ _ _).1
  let w : RoomUserInternal :=
    { u with connected := true, socketId := some socket, reconnectToken := c.shared.fresh }
  refine ⟨takeSeat c.shared socket payload, rfl, w, ?_, rfl, rfl, rfl, rfl, rfl⟩
  rw [husers]
  exact List.mem_map.mpr ⟨u, hu, if_pos rfl⟩

theorem away_run {before after : List ServerAct} {c₁ : ServerConf} {out₁ out₂ : List Effect}
    (hmeets : Meeting cfg (LeavesInTime cfg) mode now before) (hreach : Reaches cfg mode now before c₁ out₁)
    (hregistered : c₁.shared.registered = true) (hu : u ∈ c₁.shared.room.users)
    (haway : u.connected = false)
    (hlater : (server cfg).Meets (fun c t => LeavesInTime cfg c t ∧ StaysAway u c t) c₁ after)
    (hrun : (server cfg).run c₁ after = some (c, out₂)) :
    c.shared.registered = true ∧ u ∈ c.shared.room.users := by
  have h : Covered cfg c.shared ∧ SeatTable c.shared.tableView ∧ c.shared.registered = true ∧
      u ∈ c.shared.room.users := by
    refine Machine.run_preserves (M := server cfg)
      (I := fun (c : ServerConf) (_ : List Effect) => Covered cfg c.shared ∧
        SeatTable c.shared.tableView ∧ c.shared.registered = true ∧ u ∈ c.shared.room.users)
      (fun c c' past out t g rest h hP hby => ?_)
      ⟨covered_run hmeets hreach, seatTable_run hreach hregistered, hregistered, hu⟩ hlater hrun
    obtain ⟨hcovered, hseats, hregistered, hu⟩ := h
    rw [hby.shared]
    obtain ⟨hregistered', hu'⟩ :=
      away_step hcovered hseats hregistered hP.1 hu haway hP.2 hby.fire
    refine ⟨covered_step hcovered (fun _ => hseats) hP.1 hby.fire, ?_, hregistered', hu'⟩
    exact (fire_table hby.fire hregistered').2 hseats
  exact h.2.2

/-! ## The condition is exact -/

theorem fire_closes {socket : SocketId} (h : (server cfg).fire s t = some g)
    (hcloses : closes s t = some socket) : ∃ g' : Step, g'.state = s ∧ g = disconnectSocket g' socket := by
  unfold closes at hcloses
  split at hcloses
  · obtain rfl := Option.some.inj hcloses
    change handleEvent cfg s (.disconnect _) = some g at h
    simp only [handleEvent] at h
    split_ifs at h
    exact ⟨.of s, rfl, (Option.some.inj h).symm⟩
  · rename_i socket' payload
    split_ifs at hcloses with hseats
    obtain rfl := Option.some.inj hcloses
    obtain rfl : takeSeat s socket' payload = g := Option.some.inj h
    simp only [Room.seats, Bool.or_eq_true, not_or, Bool.not_eq_true, Option.isSome_eq_false_iff,
      Option.isNone_iff_eq_none, Bool.not_eq_false'] at hseats
    refine ⟨(Segment.of s).toSocket socket' .roomFull, rfl, ?_⟩
    unfold takeSeat
    rw [hseats.1]
    dsimp only
    rw [if_pos hseats.2]
  · cases hcloses

theorem leave_of_empty {socket : SocketId} (hregistered : s.registered = true)
    (hleaver : s.leaver socket = some u) (hempty : LeavesEmpty s u) :
    ∀ w ∈ s.leave socket, w.connected = false := by
  have hfind : s.room.findBySocketId socket = some u := by
    unfold Server.leaver at hleaver
    rwa [if_pos hregistered] at hleaver
  have hleave : s.leave socket = s.room.users.map fun w =>
      if w.id = u.id then { w with connected := false, socketId := none } else w := by
    unfold Server.leave
    rw [if_pos hregistered, hfind]
    rfl
  rw [hleave]
  refine List.forall_mem_map.mpr fun w hw => ?_
  by_cases hid : w.id = u.id
  · rw [if_pos hid]
  · rw [if_neg hid]
    cases hconnected : w.connected with
    | false => rfl
    | true => exact absurd (hempty w hw hconnected) hid

/-- The user's grace period runs, and a sweep that comes before its end destroys the room. -/
def SweptInGrace (cfg : Config) (c : ServerConf) (u : RoomUserInternal) : Prop :=
  c.shared.InGrace u.id ∧ ∃ wait ≤ c.shared.room.gracePeriodMs, ∃ c' out,
    (server cfg).run c [.event (.tick wait), .event .sweep] = some (c', out) ∧
      c'.shared.registered = false

/-- What becomes of a user who leaves the room empty too late. -/
theorem late_leave_swept {a : ServerAct} {socket : SocketId} (hreach : Reaches cfg mode now acts c out)
    (hstamped : c.shared.room.lastActivityAt ≤ c.shared.now)
    {out' : List Effect} (ha : Machine.trigger c a = some t) (hstep : (server cfg).step c a = some (c', out'))
    (hcloses : closes c.shared t = some socket) (hlive : socket ∈ c.shared.live)
    (hleaver : c.shared.leaver socket = some u) (hempty : LeavesEmpty c.shared u)
    (hlate : c.shared.room.lastActivityAt + cfg.idleRoomTtlMs ≤
      c.shared.now + c.shared.room.gracePeriodMs) :
    SweptInGrace cfg c' u := by
  obtain ⟨t', g, ht', hby⟩ := Machine.step_by hstep
  obtain rfl := Option.some.inj (ha.symm.trans ht')
  have hregistered : c.shared.registered = true := by
    unfold Server.leaver at hleaver
    split_ifs at hleaver with hregistered
    exact hregistered
  have hleave := leave_of_empty hregistered hleaver hempty
  have hfind : c.shared.room.findBySocketId socket = some u := by
    unfold Server.leaver at hleaver
    rwa [if_pos hregistered] at hleaver
  obtain ⟨g', hstate, hg⟩ := fire_closes hby.fire hcloses
  have hview := (disconnectSocket_seats (g := g') (hstate.symm ▸ hlive)).1
  have hstamp := disconnectSocket_stamp g' socket
  have hnow := congrArg Server.now (disconnectSocket_continues g' socket).state
  rw [← hg, hstate, ← hby.shared] at hview hstamp
  have hnow' : c'.shared.now = c.shared.now := by
    rw [hby.shared, hg, ← hstate]
    exact hnow
  have husers : c'.shared.room.users = c.shared.leave socket := congrArg SeatView.users hview
  have hregistered' : c'.shared.registered = true := (congrArg SeatView.registered hview).trans hregistered
  have hseats : SeatTable c'.shared.tableView := by
    rw [hby.shared] at hregistered' ⊢
    exact (fire_table hby.fire hregistered').2 (seatTable_run hreach hregistered)
  have hgrace : c'.shared.InGrace u.id := by
    obtain ⟨w, hw, hid⟩ : ∃ w ∈ c.shared.leave socket, w.id = u.id := by
      have hmem : u.id ∈ (c.shared.leave socket).map (·.id) := by
        rw [leave_ids]
        exact List.mem_map_of_mem (List.mem_of_find?_eq_some hfind)
      exact List.mem_map.mp hmem
    have haway := hleave w hw
    rw [← hid]
    exact (hseats.seatInvariant.disconnected_iff w (husers ▸ hw)).mp haway
  have hcount : c'.shared.room.connectedUserCount = 0 := by
    refine List.countP_eq_zero.mpr fun w hw => ?_
    rw [husers] at hw
    rw [hleave w hw]
    exact Bool.false_ne_true
  have hwait : ∀ {stamp ttl now period : ℕ}, stamp ≤ now → stamp + ttl ≤ now + period →
      stamp + ttl - now ≤ period ∧ ttl ≤ now + (stamp + ttl - now) - stamp := by
    intro stamp ttl now period hle hlate
    constructor
    · omega
    · omega
  obtain ⟨hperiod, hidle⟩ := hwait hstamped hlate
  rw [← fire_gracePeriod hby.fire, ← hby.shared] at hperiod
  refine ⟨hgrace, _, hperiod, sweep_destroys hregistered' hcount ?_⟩
  rw [hnow', hstamp]
  exact hidle

/-- **Grace periods.** In runs in which whoever leaves the room empty does so in time, no sweep destroys
a room with a user whose grace period runs, and a user who is away gets its seat back with the token
last issued to it, as long as its grace period runs. Behind whoever leaves it empty too late, a sweep
within the grace period destroys the room. -/
theorem grace_periods_kept {cfg : Config} {mode : RoomMode} {now : Time} {acts : List ServerAct}
    {c : ServerConf} {out : List Effect} (hmeets : Meeting cfg (LeavesInTime cfg) mode now acts)
    (hreach : Reaches cfg mode now acts c out) :
    (∀ turn ∈ (server cfg).history (initial cfg mode now) acts, turn.trigger = .event .sweep →
      (∃ userId, turn.before.shared.InGrace userId) → turn.after.shared.registered = true) ∧
    (∀ before after c₁ out₁, acts = before ++ after → Reaches cfg mode now before c₁ out₁ →
      c₁.shared.registered = true → ∀ u ∈ c₁.shared.room.users, u.connected = false →
        (server cfg).Meets (StaysAway u) c₁ after →
        SeatWaits cfg ((server cfg).history (initial cfg mode now) acts) c u) ∧
    ∀ a t c' out' socket u, Machine.trigger c a = some t → (server cfg).step c a = some (c', out') →
      closes c.shared t = some socket → socket ∈ c.shared.live → c.shared.leaver socket = some u →
      LeavesEmpty c.shared u →
      c.shared.room.lastActivityAt + cfg.idleRoomTtlMs ≤ c.shared.now + c.shared.room.gracePeriodMs →
      SweptInGrace cfg c' u := by
  refine ⟨fun turn hturn htrigger hgrace => ?_, ?_, ?_⟩
  · obtain ⟨past, later, hsplit⟩ := List.append_of_mem hturn
    obtain ⟨before, a, after, rfl, -, hrun, ha, hstep⟩ := Machine.history_split hsplit
    obtain ⟨hbefore, hafter⟩ := Machine.meets_append hmeets hrun
    have htime := hafter.1 _ ha
    obtain ⟨t, g, ht, hby⟩ := Machine.step_by hstep
    obtain rfl := Option.some.inj (ha.symm.trans ht)
    have hfire := hby.fire
    rw [htrigger] at htime hfire
    obtain ⟨userId, hgrace⟩ := hgrace
    exact sweep_registered (covered_run hbefore hrun) htime hgrace hby.shared hfire
  · intro before after c₁ out₁ hsplit hreach₁ hregistered u hu haway hstays
    subst hsplit
    obtain ⟨hbefore, hafter⟩ := Machine.meets_append hmeets hreach₁
    obtain ⟨c₂, out₂, out₃, hrun₁, hrun₂, -⟩ := Machine.run_append hreach
    obtain ⟨rfl, rfl⟩ := Prod.mk.inj (Option.some.inj (hreach₁.symm.trans hrun₁))
    obtain ⟨hregistered', hu'⟩ := away_run hbefore hreach₁ hregistered hu haway
      (Machine.meets_and hafter hstays) hrun₂
    have hledger := ledger_run hreach
    obtain ⟨i, hlast, htoken, -⟩ := hledger.current u hu'
    have hseats := seatTable_run hreach hregistered'
    refine ⟨hregistered', hu', (hseats.seatInvariant.disconnected_iff u hu').mp haway,
      fun socket payload hlive => fire_receive_join hlive payload,
      fun socket payload seen hlive hunseated => fire_handle_join hlive hregistered' hunseated payload seen,
      i, hlast, ?_⟩
    intro socket payload hpresented
    rw [htoken] at hpresented
    exact takeSeat_back hledger hu' haway socket hpresented
  · intro a t c' out' socket u ha hstep hcloses hlive hleaver hempty hlate
    have hstamped := (covered_run hmeets hreach).stamped
    exact late_leave_swept hreach hstamped ha hstep hcloses hlive hleaver hempty hlate

/-- A user leaves a minute after its join, and a sweep comes two minutes later. -/
def exampleExpiry : List ServerAct :=
  exampleJoin 0 .go ++ [.event (.tick 60000), .event (.disconnect 0), .event (.tick 120000), .event .sweep]

theorem grace_periods_kept_example : ∃ c out,
    Reaches plainConfig .collaboration 0 exampleExpiry c out ∧
    (c.shared.room.users.map (·.connected)) = [false] ∧
    Meeting plainConfig (LeavesInTime plainConfig) .collaboration 0 exampleExpiry ∧
    ∀ u ∈ c.shared.room.users, u.connected = false →
      SeatWaits plainConfig ((server plainConfig).history (initial plainConfig .collaboration 0)
        exampleExpiry) c u := by
  obtain ⟨c, out, hreach, hregistered, husers⟩ : ∃ c out,
      Reaches plainConfig .collaboration 0 exampleExpiry c out ∧ c.shared.registered = true ∧
      (c.shared.room.users.map (·.connected)) = [false] :=
    ⟨_, _, rfl, rfl, rfl⟩
  have hmeets : Meeting plainConfig (LeavesInTime plainConfig) .collaboration 0 exampleExpiry := by
    unfold Meeting
    decide
  refine ⟨c, out, hreach, husers, hmeets, fun u hu haway => ?_⟩
  exact (grace_periods_kept hmeets hreach).2.1 exampleExpiry [] c out (List.append_nil _).symm hreach
    hregistered u hu haway trivial

/-- The only user edits for half an hour, which stamps nothing, and loses its connection. -/
def exampleQuiet : List ServerAct :=
  exampleJoin 0 .go ++ [.event (.tick 1800000), .event (.edit (js "pass")), .event (.disconnect 0)]

/-- The next sweep destroys the room while the grace period runs, and the user is turned away. -/
theorem swept_in_grace : plainConfig.gracePeriodMs < plainConfig.idleRoomTtlMs ∧
    ∃ c out, Reaches plainConfig .collaboration 0 exampleQuiet c out ∧
      c.shared.registered = true ∧ c.shared.InGrace 1 ∧
      (∀ timer ∈ c.shared.timers, c.shared.now < timer.due) ∧
      ∃ c' out', (server plainConfig).run c [.event .sweep, .event .connect,
          .event (.receive 1 (.userJoin (some ⟨js "guest", some (.wellFormed 2)⟩))), .resume 0 .go] =
        some (c', out') ∧ c'.shared.registered = false ∧
      messagesTo 1 out' = [.eventRejected (js "user:join") (js "Room not found.") none] :=
  ⟨by decide, _, _, rfl, rfl, ⟨0, List.mem_singleton_self _, _, List.mem_singleton_self _, rfl, rfl⟩,
    by decide, _, _, rfl, rfl, rfl⟩

end CodeShare
