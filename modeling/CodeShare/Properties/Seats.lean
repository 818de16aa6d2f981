import CodeShare.Server.SeatSteps
import Mathlib.Data.List.Pairwise

/-! # Seats and sockets

A join checks before its rate limiter that the socket has no seat, and takes the seat behind it. Runs
in which the check still holds behind the limiter bind every socket to at most one user; runs in which
a seat is also taken only by a socket that is still connected, in a room that still exists, have no
connected user without a socket.
-/

namespace CodeShare
open Tasks
set_option autoImplicit false

/-! ## Well-seated users -/

/-- Two users with different ids and no common socket. -/
structure Apart (u v : RoomUserInternal) : Prop where
  id : u.id ≠ v.id
  socket : ∀ socket, u.socketId = some socket → v.socketId ≠ some socket

instance : Std.Symm Apart where
  symm _ _ h := ⟨h.id.symm, fun socket hv hu => h.socket socket hu hv⟩

structure WellSeated (users : List RoomUserInternal) (fresh : ℕ) : Prop where
  apart : users.Pairwise Apart
  fresh : ∀ u ∈ users, u.id < fresh
  bound : ∀ u ∈ users, u.connected = u.socketId.isSome

namespace WellSeated
variable {users : List RoomUserInternal} {fresh fresh' : ℕ} {u v : RoomUserInternal}
  {f : RoomUserInternal → RoomUserInternal} {userId : UserId} {socket : SocketId}

theorem nil (fresh : ℕ) : WellSeated [] fresh :=
  ⟨.nil, List.forall_mem_nil _, List.forall_mem_nil _⟩

theorem mono (h : WellSeated users fresh) (hle : fresh ≤ fresh') : WellSeated users fresh' :=
  { h with fresh := fun u hu => (h.fresh u hu).trans_le hle }

theorem sublist {users' : List RoomUserInternal} (h : WellSeated users fresh)
    (hsub : users'.Sublist users) : WellSeated users' fresh where
  apart := h.apart.sublist hsub
  fresh u hu := h.fresh u (hsub.subset hu)
  bound u hu := h.bound u (hsub.subset hu)

theorem eq_or_apart (h : WellSeated users fresh) (hu : u ∈ users) (hv : v ∈ users) :
    u = v ∨ Apart u v := by
  by_cases heq : u = v
  · exact .inl heq
  · exact .inr (h.apart.forall hu hv heq)

/-- Users may change without their ids as long as no socket is shared. -/
theorem map (h : WellSeated users fresh) (hid : ∀ u ∈ users, (f u).id = u.id)
    (hsocket : ∀ u ∈ users, ∀ v ∈ users, Apart u v → ∀ k, (f u).socketId = some k →
      (f v).socketId ≠ some k)
    (hbound : ∀ u ∈ users, (f u).connected = (f u).socketId.isSome) :
    WellSeated (users.map f) fresh where
  apart := by
    rw [List.pairwise_map]
    refine h.apart.imp_of_mem fun {u v} hu hv happart => ⟨?_, hsocket u hu v hv happart⟩
    rw [hid u hu, hid v hv]
    exact happart.id
  fresh := by
    refine List.forall_mem_map.mpr fun u hu => ?_
    rw [hid u hu]
    exact h.fresh u hu
  bound := List.forall_mem_map.mpr hbound

theorem release (h : WellSeated users fresh) (userId : UserId) :
    WellSeated (users.map fun u =>
      if u.id = userId then { u with connected := false, socketId := none } else u) fresh := by
  refine h.map (fun u _ => ?_) (fun u _ v _ happart k hu hv => ?_) (fun u hu => ?_)
  · split_ifs <;> rfl
  · split_ifs at hu hv
    all_goals first | cases hu | cases hv | exact happart.socket k hu hv
  · split_ifs
    · rfl
    · exact h.bound u hu

/-- A user takes a free socket. -/
theorem take (h : WellSeated users fresh) (userId : UserId) (token : Token)
    (hfree : ∀ u ∈ users, u.socketId ≠ some socket) :
    WellSeated (users.map fun u => if u.id = userId then
      { u with connected := true, socketId := some socket, reconnectToken := token } else u)
      fresh := by
  refine h.map (fun u _ => ?_) (fun u hu v hv happart k hku hkv => ?_) (fun u hu => ?_)
  · split_ifs <;> rfl
  · split_ifs at hku hkv with hu' hv' hv'
    · exact happart.id (hu'.trans hv'.symm)
    · exact hfree v hv (hkv.trans hku.symm)
    · exact hfree u hu (hku.trans hkv.symm)
    · exact happart.socket k hku hkv
  · split_ifs
    · rfl
    · exact h.bound u hu

/-- A new user with a free socket. -/
theorem append (h : WellSeated users fresh) (hid : fresh ≤ u.id) (hlt : u.id < fresh')
    (hbound : u.connected = u.socketId.isSome)
    (hfree : ∀ v ∈ users, ∀ k, v.socketId = some k → u.socketId ≠ some k) :
    WellSeated (users ++ [u]) fresh' where
  apart := by
    refine List.pairwise_append.mpr ⟨h.apart, List.pairwise_singleton _ _, fun v hv w hw => ?_⟩
    rw [List.mem_singleton] at hw
    rw [hw]
    exact ⟨((h.fresh v hv).trans_le hid).ne, hfree v hv⟩
  fresh v hv := by
    rcases List.mem_append.mp hv with hv | hv
    · exact ((h.fresh v hv).trans_le hid).trans hlt
    · rw [List.mem_singleton] at hv
      exact hv ▸ hlt
  bound v hv := by
    rcases List.mem_append.mp hv with hv | hv
    · exact h.bound v hv
    · rw [List.mem_singleton] at hv
      exact hv ▸ hbound

theorem countP_le_one (h : WellSeated users fresh) (socket : SocketId) :
    (users.countP fun u => u.socketId = some socket) ≤ 1 := by
  have happart := h.apart
  clear h
  induction users with
  | nil => exact Nat.zero_le _
  | cons u users ih =>
    obtain ⟨hu, hrest⟩ := List.pairwise_cons.mp happart
    by_cases hsocket : u.socketId = some socket
    · have hnone : (users.countP fun v => v.socketId = some socket) = 0 := by
        rw [List.countP_eq_zero]
        exact fun v hv => by simpa using (hu v hv).socket socket hsocket
      rw [List.countP_cons_of_pos (by simpa using hsocket), hnone]
    · rw [List.countP_cons_of_neg (by simpa using hsocket)]
      exact ih hrest

end WellSeated

/-- A socket that `findBySocketId` does not find is bound to nobody. -/
theorem not_bound_of_find {room : Room} {fresh : ℕ} {socket : SocketId}
    (h : WellSeated room.users fresh) (hfind : room.findBySocketId socket = none) :
    ∀ u ∈ room.users, u.socketId ≠ some socket := by
  intro u hu heq
  have hnot := List.find?_eq_none.mp hfind u hu
  have hbound := h.bound u hu
  rw [heq] at hbound
  simp [heq, hbound] at hnot

/-! ## The seat invariant -/

section
variable {cfg : Config} {c c' : ServerConf} {past out : List Effect} {t : ServerTrigger} {g : Step}
  {rest : List Task} {s : Server} {socket : SocketId}

theorem leave_wellSeated (h : WellSeated s.room.users s.fresh) (socket : SocketId) :
    WellSeated (s.leave socket) s.fresh := by
  unfold Server.leave
  split_ifs
  · split
    · exact h
    · exact h.release _
  · exact h

/-- Seats are taken by sockets without a seat. -/
def TakesFreeSeat (c : ServerConf) (t : ServerTrigger) : Prop :=
  ∀ join ∈ seating t, c.shared.room.seats join.2 = true →
    c.shared.room.findBySocketId join.1 = none

theorem seats_of_reconnecting {room : Room} {payload : UserJoinPayload} {u : RoomUserInternal}
    (h : reconnectingUser room payload.reconnectToken = some u) : room.seats payload = true := by
  simp [Room.seats, h]

theorem seats_of_not_full {room : Room} {payload : UserJoinPayload} (h : room.isFull = false) :
    room.seats payload = true := by
  simp [Room.seats, h]

theorem seat_step (h : WellSeated c.shared.room.users c.shared.fresh) (hfree : TakesFreeSeat c t)
    (hfire : (server cfg).fire c.shared t = some g) :
    WellSeated g.state.room.users g.state.fresh := by
  cases fire_seats hfire with
  | kept hview hfresh =>
    rw [show g.state.room.users = c.shared.room.users from congrArg SeatView.users hview]
    exact h.mono hfresh
  | connected hview hfresh =>
    rw [show g.state.room.users = c.shared.room.users from congrArg SeatView.users hview, hfresh]
    exact h
  | closed socket hlive hview hfresh =>
    rw [show g.state.room.users = c.shared.leave socket from congrArg SeatView.users hview, hfresh]
    exact leave_wellSeated h socket
  | removed userId registered hregistered hview hfresh =>
    rw [show g.state.room.users = c.shared.room.users.filter (·.id ≠ userId) from
      congrArg SeatView.users hview]
    exact (h.sublist List.filter_sublist).mono hfresh
  | destroyed hempty hview hfresh =>
    rw [show g.state.room.users = c.shared.room.users from congrArg SeatView.users hview, hfresh]
    exact h
  | reconnected socket payload existing hseating hexisting hview hfresh =>
    rw [show g.state.room.users = c.shared.reseat existing.id socket from
      congrArg SeatView.users hview]
    have hnone := hfree (socket, payload) hseating (seats_of_reconnecting hexisting)
    exact (h.take existing.id c.shared.fresh (not_bound_of_find h hnone)).mono hfresh
  | added socket payload hseating hroom hview hfresh =>
    rw [show g.state.room.users =
      c.shared.room.users ++ [c.shared.newUser socket payload.displayName] from
      congrArg SeatView.users hview]
    have hnone := hfree (socket, payload) hseating (seats_of_not_full hroom)
    refine h.append (Nat.le_refl _) hfresh rfl fun v hv k hk heq => ?_
    exact not_bound_of_find h hnone v hv (hk.trans heq.symm)

/-! ## One seat for each socket -/

/-- Behind the rate limiter a join still finds its socket without a seat. -/
def JoinsUnseated (c : ServerConf) (t : ServerTrigger) : Prop :=
  ∀ join ∈ seating t, c.shared.room.findBySocketId join.1 = none

instance (c : ServerConf) (t : ServerTrigger) : Decidable (JoinsUnseated c t) :=
  decidable_of_iff (∀ join ∈ seating t, (c.shared.room.findBySocketId join.1).isNone = true)
    (by simp only [JoinsUnseated, Option.isNone_iff_eq_none])

theorem JoinsUnseated.takesFreeSeat (h : JoinsUnseated c t) : TakesFreeSeat c t :=
  fun join hjoin _ => h join hjoin

/-- The socket of a join under way. -/
def joining : ServerTrigger → Option SocketId
  | .task (.admitted socket (.userJoin _) _) _ | .task (.joinLimiter socket _) _
  | .task (.hydrating socket _ _) _ => some socket
  | _ => none

theorem handleUserJoin_users (s : Server) (socket : SocketId) (payload : Option UserJoinPayload) :
    (handleUserJoin s socket payload).state.room.users = s.room.users := by
  unfold handleUserJoin
  split
  · rfl
  · split
    · rfl
    · split
      · exact congrArg SeatView.users (emitJoinedPayload_seats (.of s) socket ‹_› none).1
      · rfl

/-- A join of a socket that has its seat changes no user. -/
theorem join_idempotent (hunseated : JoinsUnseated c t) (hjoining : joining t = some socket)
    (hseated : c.shared.room.findBySocketId socket ≠ none)
    (hfire : (server cfg).fire c.shared t = some g) :
    g.state.room.users = c.shared.room.users := by
  unfold joining at hjoining
  split at hjoining
  · rename_i socket' payload seen o
    cases hjoining
    change resumeTask cfg c.shared (.admitted socket (.userJoin payload) seen) o = some g at hfire
    cases o <;> cases hfire
    unfold runHandler
    split
    · rfl
    · exact handleUserJoin_users c.shared socket payload
  · rename_i socket' payload o
    cases hjoining
    change afterJoinLimiter c.shared socket payload o = some g at hfire
    unfold afterJoinLimiter at hfire
    split at hfire <;> cases hfire
    · exact absurd (hunseated (socket, payload) rfl) hseated
    · rfl
    · rfl
  · cases hjoining
    rw [afterHydration_state hfire]
  · cases hjoining

end

/-- **One seat for each socket**, in runs whose joins still find their socket without a seat behind
the rate limiter: no socket is bound to two users, and a further join of a socket that has its seat
changes no user. -/
theorem one_seat_per_socket {cfg : Config} {mode : RoomMode} {now : Time} {acts : List ServerAct}
    {c : ServerConf} {out : List Effect} (hmeets : Meeting cfg JoinsUnseated mode now acts)
    (hreach : Reaches cfg mode now acts c out) :
    (∀ socket, (c.shared.room.users.countP fun u => u.socketId = some socket) ≤ 1) ∧
    ∀ t g socket, JoinsUnseated c t → joining t = some socket →
      c.shared.room.findBySocketId socket ≠ none → (server cfg).fire c.shared t = some g →
      g.state.room.users = c.shared.room.users := by
  have h : WellSeated c.shared.room.users c.shared.fresh := by
    refine Machine.run_preserves
      (I := fun (c : ServerConf) (_ : List Effect) => WellSeated c.shared.room.users c.shared.fresh)
      (fun c c' past out t g rest h hunseated hby => ?_) (.nil _) hmeets hreach
    rw [hby.shared]
    exact seat_step h hunseated.takesFreeSeat hby.fire
  exact ⟨h.countP_le_one, fun t g socket => join_idempotent⟩

/-- A join that is sent again once it has succeeded. -/
def exampleRejoin : List ServerAct :=
  exampleJoin 0 .go ++
    [.event (.receive 0 (.userJoin (some ⟨js "guest", none⟩))), .resume 0 .go, .resume 0 .go]

theorem one_seat_per_socket_example : ∃ c out,
    Reaches plainConfig .collaboration 0 exampleRejoin c out ∧ c.shared.room.users.length = 1 ∧
    (∀ socket, (c.shared.room.users.countP fun u => u.socketId = some socket) ≤ 1) ∧
    ∀ t g socket, JoinsUnseated c t → joining t = some socket →
      c.shared.room.findBySocketId socket ≠ none → (server plainConfig).fire c.shared t = some g →
      g.state.room.users = c.shared.room.users := by
  obtain ⟨c, out, hreach, husers⟩ : ∃ c out,
      Reaches plainConfig .collaboration 0 exampleRejoin c out ∧ c.shared.room.users.length = 1 :=
    ⟨_, _, rfl, rfl⟩
  have hmeets : Meeting plainConfig JoinsUnseated .collaboration 0 exampleRejoin := by
    unfold Meeting
    decide
  exact ⟨c, out, hreach, husers, one_seat_per_socket hmeets hreach⟩

/-- Two joins of one socket wait at the rate limiter together: the socket gets both seats. -/
theorem socket_seated_twice : ∃ c out,
    Reaches plainConfig .collaboration 0
      [.event .connect, .event (.receive 0 (.userJoin (some ⟨js "guest", none⟩))),
        .event (.receive 0 (.userJoin (some ⟨js "guest", none⟩))), .resume 0 .go, .resume 0 .go,
        .resume 0 .allowed, .resume 0 .allowed] c out ∧
    (c.shared.room.users.countP fun u => u.socketId = some 0) = 2 :=
  ⟨_, _, rfl, rfl⟩

/-! ## No ghost users -/

/-- A seat is taken by a socket that is still connected and has none, in a room that still exists. -/
def JoinsPresent (c : ServerConf) (t : ServerTrigger) : Prop :=
  ∀ join ∈ seating t, c.shared.room.seats join.2 = true →
    join.1 ∈ c.shared.live ∧ c.shared.registered = true ∧
      c.shared.room.findBySocketId join.1 = none

instance (c : ServerConf) (t : ServerTrigger) : Decidable (JoinsPresent c t) :=
  decidable_of_iff (∀ join ∈ seating t, c.shared.room.seats join.2 = true →
      join.1 ∈ c.shared.live ∧ c.shared.registered = true ∧
        (c.shared.room.findBySocketId join.1).isNone = true)
    (by simp only [JoinsPresent, Option.isNone_iff_eq_none])

structure PresentInvariant (s : Server) : Prop where
  seated : WellSeated s.room.users s.fresh
  present : ∀ u ∈ s.room.users, ∀ socket, u.socketId = some socket →
    socket ∈ s.live ∧ s.registered = true

section
variable {cfg : Config} {c c' : ServerConf} {past out : List Effect} {t : ServerTrigger} {g : Step}
  {rest : List Task} {s : Server} {socket : SocketId}

theorem JoinsPresent.takesFreeSeat (h : JoinsPresent c t) : TakesFreeSeat c t :=
  fun join hjoin hseats => (h join hjoin hseats).2.2

/-- A socket that is closed is bound to nobody, and nobody is bound anew. -/
theorem leave_bound (h : WellSeated s.room.users s.fresh) (hregistered : s.registered = true)
    {u : RoomUserInternal} (hu : u ∈ s.leave socket) {k : SocketId} (hk : u.socketId = some k) :
    k ≠ socket ∧ ∃ v ∈ s.room.users, v.socketId = some k := by
  unfold Server.leave at hu
  rw [if_pos hregistered] at hu
  split at hu
  · rename_i hfind
    refine ⟨?_, u, hu, hk⟩
    rintro rfl
    exact not_bound_of_find h hfind u hu hk
  · rename_i user hfind
    obtain ⟨v, hv, rfl⟩ := List.mem_map.mp hu
    split_ifs at hk with hid
    refine ⟨?_, v, hv, hk⟩
    rintro rfl
    have huser : user.socketId = some k := by
      have hfound := List.find?_some hfind
      simp only [Bool.and_eq_true, decide_eq_true_eq] at hfound
      exact hfound.1
    rcases h.eq_or_apart hv (List.mem_of_find?_eq_some hfind) with rfl | happart
    · exact hid rfl
    · exact happart.socket k hk huser

theorem present_step (h : PresentInvariant c.shared) (hpresent : JoinsPresent c t)
    (hfire : (server cfg).fire c.shared t = some g) : PresentInvariant g.state := by
  refine ⟨seat_step h.seated hpresent.takesFreeSeat hfire, ?_⟩
  have hview : ∀ v : SeatView, g.state.seatView = v →
      (∀ u ∈ v.users, ∀ socket, u.socketId = some socket → socket ∈ v.live ∧ v.registered = true) →
      ∀ u ∈ g.state.room.users, ∀ socket, u.socketId = some socket →
        socket ∈ g.state.live ∧ g.state.registered = true := by
    rintro v rfl hv
    exact hv
  cases fire_seats hfire with
  | kept heq hfresh => exact hview _ heq h.present
  | connected heq hfresh =>
    refine hview _ heq fun u hu k hk => ?_
    obtain ⟨hlive, hregistered⟩ := h.present u hu k hk
    exact ⟨List.mem_append_left _ hlive, hregistered⟩
  | closed socket hlive heq hfresh =>
    refine hview _ heq fun u hu k hk => ?_
    cases hregistered : c.shared.registered with
    | false =>
      rw [Server.leave, hregistered] at hu
      obtain ⟨-, hregistered'⟩ := h.present u hu k hk
      rw [hregistered] at hregistered'
      cases hregistered'
    | true =>
      obtain ⟨hne, v, hv, hvk⟩ := leave_bound h.seated hregistered hu hk
      refine ⟨List.mem_filter.mpr ⟨(h.present v hv k hvk).1, by simpa using hne⟩, hregistered⟩
  | removed userId registered hregistered heq hfresh =>
    refine hview _ heq fun u hu k hk => ?_
    rcases hregistered with rfl | hempty
    · exact h.present u (List.mem_filter.mp hu).1 k hk
    · rw [hempty] at hu
      cases hu
  | destroyed hempty heq hfresh =>
    refine hview _ heq fun u hu k hk => ?_
    have hconnected := h.seated.bound u hu
    rw [hk] at hconnected
    exact absurd hconnected (List.countP_eq_zero.mp hempty u hu)
  | reconnected socket payload existing hseating hexisting heq hfresh =>
    obtain ⟨hlive, hregistered, -⟩ :=
      hpresent (socket, payload) hseating (seats_of_reconnecting hexisting)
    refine hview _ heq fun u hu k hk => ?_
    obtain ⟨v, hv, rfl⟩ := List.mem_map.mp hu
    split_ifs at hk with hid
    · obtain rfl := Option.some.inj hk
      exact ⟨hlive, hregistered⟩
    · exact h.present v hv k hk
  | added socket payload hseating hroom heq hfresh =>
    obtain ⟨hlive, hregistered, -⟩ := hpresent (socket, payload) hseating (seats_of_not_full hroom)
    refine hview _ heq fun u hu k hk => ?_
    rcases List.mem_append.mp hu with hu | hu
    · exact h.present u hu k hk
    · rw [List.mem_singleton] at hu
      rw [hu] at hk
      obtain rfl := Option.some.inj hk
      exact ⟨hlive, hregistered⟩

/-! ### Sockets never come back -/

/-- The socket was connected once and is closed. -/
def Gone (socket : SocketId) (s : Server) : Prop := socket < s.nextSocket ∧ socket ∉ s.live

theorem gone_step (h : Gone socket s) (hfire : (server cfg).fire s t = some g) :
    Gone socket g.state := by
  obtain ⟨hold, hclosed⟩ := h
  have hview : ∀ v : SeatView, g.state.seatView = v → socket < v.nextSocket → socket ∉ v.live →
      Gone socket g.state := by
    rintro v rfl hlt hmem
    exact ⟨hlt, hmem⟩
  cases fire_seats hfire with
  | kept heq _ => exact hview _ heq hold hclosed
  | connected heq _ =>
    refine hview _ heq (Nat.lt_succ_of_lt hold) fun hm => ?_
    rcases List.mem_append.mp hm with hm | hm
    · exact hclosed hm
    · exact hold.ne (List.mem_singleton.mp hm)
  | closed _ _ heq _ => exact hview _ heq hold fun hm => hclosed (List.mem_filter.mp hm).1
  | removed _ _ _ heq _ => exact hview _ heq hold hclosed
  | destroyed _ heq _ => exact hview _ heq hold hclosed
  | reconnected _ _ _ _ _ heq _ => exact hview _ heq hold hclosed
  | added _ _ _ _ heq _ => exact hview _ heq hold hclosed

theorem live_lt_step (h : ∀ k ∈ s.live, k < s.nextSocket) (hfire : (server cfg).fire s t = some g) :
    ∀ k ∈ g.state.live, k < g.state.nextSocket := by
  have hview : ∀ v : SeatView, g.state.seatView = v → (∀ k ∈ v.live, k < v.nextSocket) →
      ∀ k ∈ g.state.live, k < g.state.nextSocket := by
    rintro v rfl hv
    exact hv
  cases fire_seats hfire with
  | kept heq _ => exact hview _ heq h
  | connected heq _ =>
    refine hview _ heq fun k hm => ?_
    rcases List.mem_append.mp hm with hm | hm
    · exact Nat.lt_succ_of_lt (h k hm)
    · rw [List.mem_singleton.mp hm]
      exact Nat.lt_succ_self _
  | closed _ _ heq _ => exact hview _ heq fun k hm => h k (List.mem_filter.mp hm).1
  | removed _ _ _ heq _ => exact hview _ heq h
  | destroyed _ heq _ => exact hview _ heq h
  | reconnected _ _ _ _ _ heq _ => exact hview _ heq h
  | added _ _ _ _ heq _ => exact hview _ heq h

/-- A socket whose `disconnect` was handled is gone for good. -/
theorem gone_after_disconnect {mode : RoomMode} {now : Time} {before after : List ServerAct}
    (hreach : Reaches cfg mode now (before ++ .event (.disconnect socket) :: after) c out) :
    Gone socket c.shared := by
  obtain ⟨c₁, out₁, out₂, hbefore, hrun, -⟩ := Machine.run_append hreach
  obtain ⟨c₂, out₃, out₄, hstep, hafter, -⟩ := Machine.run_cons hrun
  have hlt : ∀ k ∈ c₁.shared.live, k < c₁.shared.nextSocket := by
    refine Machine.run_preserves_always (M := server cfg)
      (I := fun (c : ServerConf) (_ : List Effect) => ∀ k ∈ c.shared.live, k < c.shared.nextSocket)
      (fun c c' past out t g rest h hby => ?_) (List.forall_mem_nil _) hbefore
    rw [hby.shared]
    exact live_lt_step h hby.fire
  have hgone : Gone socket c₂.shared := by
    obtain ⟨t, g, htrigger, hby⟩ := Machine.step_by hstep
    cases htrigger
    rw [hby.shared]
    have hfire : handleEvent cfg c₁.shared (.disconnect socket) = some g := hby.fire
    simp only [handleEvent] at hfire
    split_ifs at hfire with hlive
    cases hfire
    have hview := (disconnectSocket_seats (g := .of c₁.shared) hlive).1
    have hlive' : (disconnectSocket (.of c₁.shared) socket).state.live =
        c₁.shared.live.filter (· ≠ socket) := congrArg SeatView.live hview
    have hnext : (disconnectSocket (.of c₁.shared) socket).state.nextSocket =
        c₁.shared.nextSocket := congrArg SeatView.nextSocket hview
    refine ⟨hnext ▸ hlt socket hlive, ?_⟩
    rw [hlive']
    simp
  refine Machine.run_preserves (M := server cfg) (P := fun _ _ => True)
    (I := fun (c : ServerConf) (_ : List Effect) => Gone socket c.shared)
    (fun c c' past out t g rest h _ hby => ?_) hgone (Machine.meets_true _ _) hafter
  rw [hby.shared]
  exact gone_step h hby.fire

/-! ### The idle sweep -/

theorem destroyIdleRoom_eq (hempty : s.room.connectedUserCount = 0)
    (hidle : cfg.idleRoomTtlMs ≤ s.now - s.room.lastActivityAt) :
    destroyIdleRoom cfg s = destroyRoom s := by
  refine if_neg ?_
  rw [hempty]
  rintro (hconnected | hactive)
  · exact absurd hconnected (Nat.lt_irrefl 0)
  · exact absurd hactive (Nat.not_lt.mpr hidle)

theorem step_sweep (hregistered : c.shared.registered = true) :
    (server cfg).step c (.event .sweep) =
      some (⟨destroyIdleRoom cfg c.shared, c.pool ++ []⟩, []) := by
  have hsweep : (server cfg).fire c.shared (.event .sweep) =
      some (.of (destroyIdleRoom cfg c.shared)) := if_pos hregistered
  simp only [Machine.step, Machine.trigger, hsweep]
  rfl

/-- Without connected users, a sweep destroys the room once it has been idle long enough. -/
theorem sweep_destroys (hregistered : c.shared.registered = true)
    (hempty : c.shared.room.connectedUserCount = 0) {elapsed : Time}
    (hidle : cfg.idleRoomTtlMs ≤ c.shared.now + elapsed - c.shared.room.lastActivityAt) :
    ∃ c' out', (server cfg).run c [.event (.tick elapsed), .event .sweep] = some (c', out') ∧
      c'.shared.registered = false := by
  let c₁ : ServerConf := ⟨{ c.shared with now := c.shared.now + elapsed }, c.pool ++ []⟩
  have htick : (server cfg).step c (.event (.tick elapsed)) = some (c₁, []) := rfl
  have hsweep : (server cfg).step c₁ (.event .sweep) = _ := step_sweep hregistered
  have hdestroyed : destroyIdleRoom cfg c₁.shared = destroyRoom c₁.shared :=
    destroyIdleRoom_eq hempty hidle
  rw [hdestroyed] at hsweep
  refine ⟨⟨destroyRoom c₁.shared, c₁.pool ++ []⟩, [], ?_, ?_⟩
  · simp only [Machine.run, htick, hsweep]
    rfl
  · unfold destroyRoom
    rw [if_pos hregistered]

end

/-- **No ghost users**, in runs whose seats are all taken by connected sockets that have none, in a
room that still exists: nobody is connected through a socket whose `disconnect` was handled; every
connected user has a connected socket; and a room without sockets is destroyed by the next sweep once
it has been idle long enough. -/
theorem no_ghost_users {cfg : Config} {mode : RoomMode} {now : Time} {acts : List ServerAct}
    {c : ServerConf} {out : List Effect} (hmeets : Meeting cfg JoinsPresent mode now acts)
    (hreach : Reaches cfg mode now acts c out) :
    (∀ before after socket, acts = before ++ .event (.disconnect socket) :: after →
      ∀ u ∈ c.shared.room.users, u.connected = true → u.socketId ≠ some socket) ∧
    (∀ u ∈ c.shared.room.users, u.connected = true →
      ∃ socket ∈ c.shared.live, u.socketId = some socket) ∧
    (c.shared.live = [] → c.shared.registered = true → ∃ wait, ∀ elapsed, wait ≤ elapsed →
      ∃ c' out', (server cfg).run c [.event (.tick elapsed), .event .sweep] = some (c', out') ∧
        c'.shared.registered = false) := by
  have h : PresentInvariant c.shared := by
    refine Machine.run_preserves
      (I := fun (c : ServerConf) (_ : List Effect) => PresentInvariant c.shared)
      (fun c c' past out t g rest h hpresent hby => ?_) ⟨.nil _, List.forall_mem_nil _⟩ hmeets
      hreach
    rw [hby.shared]
    exact present_step h hpresent hby.fire
  have hreachable : ∀ u ∈ c.shared.room.users, u.connected = true →
      ∃ socket ∈ c.shared.live, u.socketId = some socket := by
    intro u hu hconnected
    have hbound := h.seated.bound u hu
    rw [hconnected] at hbound
    obtain ⟨socket, hsocket⟩ := Option.isSome_iff_exists.mp hbound.symm
    exact ⟨socket, (h.present u hu socket hsocket).1, hsocket⟩
  refine ⟨?_, hreachable, fun hlive hregistered => ?_⟩
  · rintro before after socket rfl u hu - hsocket
    exact (gone_after_disconnect hreach).2 (h.present u hu socket hsocket).1
  · have hempty : c.shared.room.connectedUserCount = 0 := by
      refine List.countP_eq_zero.mpr fun u hu hconnected => ?_
      obtain ⟨socket, hsocket, -⟩ := hreachable u hu hconnected
      rw [hlive] at hsocket
      cases hsocket
    refine ⟨cfg.idleRoomTtlMs + c.shared.room.lastActivityAt, fun elapsed hwait => ?_⟩
    exact sweep_destroys hregistered hempty
      (Nat.le_sub_of_add_le (hwait.trans (Nat.le_add_left _ _)))

/-- A user joins and leaves. -/
def exampleLeave : List ServerAct := exampleJoin 0 .go ++ [.event (.disconnect 0)]

theorem no_ghost_users_example : ∃ c out,
    Reaches plainConfig .collaboration 0 exampleLeave c out ∧ c.shared.room.users.length = 1 ∧
    (∀ before after socket, exampleLeave = before ++ .event (.disconnect socket) :: after →
      ∀ u ∈ c.shared.room.users, u.connected = true → u.socketId ≠ some socket) ∧
    (∀ u ∈ c.shared.room.users, u.connected = true →
      ∃ socket ∈ c.shared.live, u.socketId = some socket) ∧
    (c.shared.live = [] → c.shared.registered = true → ∃ wait, ∀ elapsed, wait ≤ elapsed →
      ∃ c' out', (server plainConfig).run c [.event (.tick elapsed), .event .sweep] =
        some (c', out') ∧ c'.shared.registered = false) := by
  obtain ⟨c, out, hreach, husers⟩ : ∃ c out,
      Reaches plainConfig .collaboration 0 exampleLeave c out ∧ c.shared.room.users.length = 1 :=
    ⟨_, _, rfl, rfl⟩
  have hmeets : Meeting plainConfig JoinsPresent .collaboration 0 exampleLeave := by
    unfold Meeting
    decide
  exact ⟨c, out, hreach, husers, no_ghost_users hmeets hreach⟩

/-- The socket of a join is closed while the join waits at the rate limiter: its user is connected
through a socket that is gone, and no sweep, however late, destroys the room. -/
theorem ghost_user : ∃ c out,
    Reaches plainConfig .collaboration 0
      [.event .connect, .event (.receive 0 (.userJoin (some ⟨js "guest", none⟩))), .resume 0 .go,
        .event (.disconnect 0), .resume 0 .allowed] c out ∧
    c.shared.live = [] ∧
    (c.shared.room.users.map fun u => (u.connected, u.socketId)) = [(true, some 0)] ∧
    c.shared.timers = [] ∧
    ∀ elapsed, ∃ c' out', (server plainConfig).run c [.event (.tick elapsed), .event .sweep] =
      some (c', out') ∧ c'.shared.registered = true :=
  ⟨_, _, rfl, rfl, rfl, rfl, fun _ => ⟨_, _, rfl, rfl⟩⟩

end CodeShare
