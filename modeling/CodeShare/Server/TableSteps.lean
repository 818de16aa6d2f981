import CodeShare.Foundations.Ledger
import CodeShare.Server.SeatSteps

/-! # The seat table

What the room and the server know about seats: users, the running grace timers under their ids, and
the timeouts themselves. `SeatTable` says how they belong together, and every segment that leaves the
room registered keeps it (`fire_table`).
-/

namespace CodeShare
open Tasks
set_option autoImplicit false

/-! ## The table -/

structure TableView where
  mode : RoomMode
  users : List RoomUserInternal
  gracePeriodTimers : List (UserId × TimerId)
  timers : List Timer
  consentTimer : Option TimerId
  nextTimer : TimerId
  registered : Bool
  fresh : ℕ

def Server.tableView (s : Server) : TableView where
  mode := s.room.mode
  users := s.room.users
  gracePeriodTimers := s.room.gracePeriodTimers
  timers := s.timers
  consentTimer := s.consentTimer
  nextTimer := s.nextTimer
  registered := s.registered
  fresh := s.fresh

/-- A timeout that runs for the grace period of a user. -/
def TableView.Running (v : TableView) (userId : UserId) (id : TimerId) : Prop :=
  ∃ timer ∈ v.timers, timer.id = id ∧ timer.kind = .grace userId

/-- Timeouts have ids of their own, and the consent timer is not the timer of a grace period. -/
structure WellTimed (v : TableView) : Prop where
  distinct : (v.timers.map (·.id)).Nodup
  fresh : ∀ timer ∈ v.timers, timer.id < v.nextTimer
  consent : ∀ id, v.consentTimer = some id →
    id < v.nextTimer ∧ ∀ timer ∈ v.timers, timer.id = id → timer.kind = .consent

/-- The users as far as timers do not matter. -/
structure Roster (mode : RoomMode) (users : List RoomUserInternal) (fresh : ℕ) : Prop where
  full : users.length ≤ maxUsers
  distinct : (users.map (·.id)).Nodup
  fresh : ∀ u ∈ users, u.id < fresh
  interviewer : mode = .interview → (users.countP fun u => u.role = .interviewer) ≤ 1

structure SeatTable (v : TableView) : Prop where
  timed : WellTimed v
  roster : Roster v.mode v.users v.fresh
  bound : ∀ u ∈ v.users, u.connected = u.socketId.isSome
  keys : (v.gracePeriodTimers.map Prod.fst).Nodup
  waiting : ∀ u ∈ v.users, u.connected = false → u.id ∈ v.gracePeriodTimers.map Prod.fst
  disconnected : ∀ entry ∈ v.gracePeriodTimers, ∃ u ∈ v.users, u.id = entry.1 ∧ u.connected = false
  running : ∀ entry ∈ v.gracePeriodTimers, v.Running entry.1 entry.2

/-! ## Timeouts -/

namespace WellTimed
variable {v : TableView} {timer timer' : Timer} {userId : UserId} {id : TimerId}

theorem eq_of_id (h : WellTimed v) (hm : timer ∈ v.timers) (hm' : timer' ∈ v.timers)
    (hid : timer.id = timer'.id) : timer = timer' :=
  List.inj_on_of_nodup_map h.distinct hm hm' hid

/-- Timeouts go, and with them perhaps the entry of the consent timer. -/
theorem filter (h : WellTimed v) (p : Timer → Bool) {consentTimer : Option TimerId}
    (hconsent : consentTimer = v.consentTimer ∨ consentTimer = none) :
    WellTimed { v with timers := v.timers.filter p, consentTimer := consentTimer } where
  distinct := h.distinct.sublist (List.filter_sublist.map _)
  fresh timer hm := h.fresh timer (List.mem_filter.mp hm).1
  consent id hid := by
    obtain rfl | rfl := hconsent
    · obtain ⟨hlt, hkind⟩ := h.consent id hid
      exact ⟨hlt, fun timer hm => hkind timer (List.mem_filter.mp hm).1⟩
    · cases hid

/-- A new timeout; that of a consent becomes the consent timer. -/
theorem append (h : WellTimed v) (due : Time) (kind : TimerKind) {consentTimer : Option TimerId}
    (hconsent : consentTimer = v.consentTimer ∨
      consentTimer = some v.nextTimer ∧ kind = .consent) :
    WellTimed { v with
      timers := v.timers ++ [⟨v.nextTimer, due, kind⟩]
      nextTimer := v.nextTimer + 1
      consentTimer := consentTimer } where
  distinct := by
    rw [List.map_append]
    refine List.nodup_append.mpr ⟨h.distinct, List.nodup_singleton _, ?_⟩
    intro id hid id' hid'
    obtain ⟨timer, hm, rfl⟩ := List.mem_map.mp hid
    rw [List.map_singleton, List.mem_singleton] at hid'
    subst hid'
    exact (h.fresh timer hm).ne
  fresh timer hm := by
    rcases List.mem_append.mp hm with hm | hm
    · exact Nat.lt_succ_of_lt (h.fresh timer hm)
    · rw [List.mem_singleton] at hm
      subst hm
      exact Nat.lt_succ_self _
  consent id hid := by
    obtain rfl | ⟨rfl, rfl⟩ := hconsent
    · obtain ⟨hlt, hkind⟩ := h.consent id hid
      refine ⟨Nat.lt_succ_of_lt hlt, fun timer hm heq => ?_⟩
      rcases List.mem_append.mp hm with hm | hm
      · exact hkind timer hm heq
      · rw [List.mem_singleton] at hm
        subst hm
        exact absurd heq hlt.ne'
    · obtain rfl := Option.some.inj hid
      refine ⟨Nat.lt_succ_self _, fun timer hm heq => ?_⟩
      rcases List.mem_append.mp hm with hm | hm
      · exact absurd heq (h.fresh timer hm).ne
      · rw [List.mem_singleton] at hm
        subst hm
        rfl

end WellTimed

/-! ## Users -/

namespace Roster
variable {mode : RoomMode} {users users' : List RoomUserInternal} {fresh fresh' : ℕ}

theorem mono (h : Roster mode users fresh) (hle : fresh ≤ fresh') : Roster mode users fresh' :=
  { h with fresh := fun u hu => (h.fresh u hu).trans_le hle }

theorem sublist (h : Roster mode users fresh) (hsub : users'.Sublist users) :
    Roster mode users' fresh where
  full := hsub.length_le.trans h.full
  distinct := h.distinct.sublist (hsub.map _)
  fresh u hu := h.fresh u (hsub.subset hu)
  interviewer hmode := (hsub.countP_le).trans (h.interviewer hmode)

/-- Users may change, but not their ids and roles. -/
theorem map (h : Roster mode users fresh) (f : RoomUserInternal → RoomUserInternal)
    (hid : ∀ u, (f u).id = u.id) (hrole : ∀ u, (f u).role = u.role) :
    Roster mode (users.map f) fresh where
  full := by
    rw [List.length_map]
    exact h.full
  distinct := by
    rw [List.map_map]
    have hids : users.map ((fun u : RoomUserInternal => u.id) ∘ f) = users.map (·.id) :=
      List.map_congr_left fun u _ => hid u
    rw [hids]
    exact h.distinct
  fresh := by
    refine List.forall_mem_map.mpr fun u hu => ?_
    rw [hid u]
    exact h.fresh u hu
  interviewer hmode := by
    rw [List.countP_map]
    have hroles : ((fun u : RoomUserInternal => decide (u.role = .interviewer)) ∘ f) =
        fun u => decide (u.role = .interviewer) := by
      funext u
      rw [Function.comp_apply, hrole]
    rw [hroles]
    exact h.interviewer hmode

/-- A new user in a room that is not full; the first one of an interview is the interviewer. -/
theorem append (h : Roster mode users fresh) {u : RoomUserInternal} (hfull : users.length < maxUsers)
    (hid : fresh ≤ u.id) (hlt : u.id < fresh')
    (hrole : mode = .interview → users ≠ [] → u.role ≠ .interviewer) :
    Roster mode (users ++ [u]) fresh' where
  full := by
    rw [List.length_append, List.length_singleton]
    exact hfull
  distinct := by
    rw [List.map_append]
    refine nodup_concat h.distinct fun hm => ?_
    obtain ⟨w, hw, heq⟩ := List.mem_map.mp hm
    exact absurd heq ((h.fresh w hw).trans_le hid).ne
  fresh := forall_mem_concat (fun w hw => ((h.fresh w hw).trans_le hid).trans hlt) hlt
  interviewer hmode := by
    rw [List.countP_append, List.countP_singleton]
    by_cases hempty : users = []
    · subst hempty
      split_ifs <;> simp
    · have hcandidate := hrole hmode hempty
      rw [if_neg (by simpa using hcandidate)]
      exact h.interviewer hmode

end Roster

/-! ## Operations on the table -/

namespace SeatTable
variable {v : TableView} {userId : UserId}

theorem mono {fresh : ℕ} (h : SeatTable v) (hle : v.fresh ≤ fresh) :
    SeatTable { v with fresh := fresh } :=
  { h with
    timed := ⟨h.timed.distinct, h.timed.fresh, h.timed.consent⟩
    running := h.running
    roster := h.roster.mono hle }

/-- The users of an id are one user. -/
theorem eq_of_id (h : SeatTable v) {u w : RoomUserInternal} (hu : u ∈ v.users) (hw : w ∈ v.users)
    (hid : u.id = w.id) : u = w :=
  List.inj_on_of_nodup_map h.roster.distinct hu hw hid

/-- Timeouts may come and go as long as those of grace periods stay. -/
theorem retimed {timers : List Timer} {consentTimer : Option TimerId} {nextTimer : TimerId}
    (h : SeatTable v)
    (htimed : WellTimed { v with
      timers := timers, consentTimer := consentTimer, nextTimer := nextTimer })
    (hkept : ∀ timer ∈ v.timers, ∀ userId, timer.kind = .grace userId → timer ∈ timers) :
    SeatTable { v with
      timers := timers, consentTimer := consentTimer, nextTimer := nextTimer } :=
  { h with
    timed := htimed
    running := fun entry hentry => by
      obtain ⟨timer, hm, hid, hkind⟩ := h.running entry hentry
      exact ⟨timer, hkept timer hm _ hkind, hid, hkind⟩ }

/-- A timeout that is not that of a grace period goes. -/
theorem clear (h : SeatTable v) {id : TimerId}
    (hid : ∀ timer ∈ v.timers, timer.id = id → timer.kind = .consent) :
    SeatTable { v with
      timers := v.timers.filter fun timer => timer.id ≠ id, consentTimer := none } := by
  have htimed : WellTimed { v with
      timers := v.timers.filter fun timer => timer.id ≠ id, consentTimer := none } :=
    h.timed.filter _ (.inr rfl)
  refine h.retimed htimed ?_
  intro timer hm userId hkind
  refine List.mem_filter.mpr ⟨hm, ?_⟩
  have hne : timer.id ≠ id := by
    intro heq
    rw [hid timer hm heq] at hkind
    cases hkind
  simpa using hne

/-- A user leaves, and the grace period starts. -/
theorem release (h : SeatTable v) {user : RoomUserInternal} (huser : user ∈ v.users) (due : Time) :
    SeatTable { v with
      users := v.users.map fun u =>
        if u.id = user.id then { u with connected := false, socketId := none } else u
      gracePeriodTimers :=
        v.gracePeriodTimers.filter (fun entry => entry.1 ≠ user.id) ++ [(user.id, v.nextTimer)]
      timers := v.timers ++ [⟨v.nextTimer, due, .grace user.id⟩]
      nextTimer := v.nextTimer + 1 } where
  timed := by
    have happend := h.timed.append due (.grace user.id) (.inl rfl)
    exact ⟨happend.distinct, happend.fresh, happend.consent⟩
  roster := by
    refine h.roster.map _ (fun u => ?_) fun u => ?_
    · split_ifs <;> rfl
    · split_ifs <;> rfl
  bound := by
    refine List.forall_mem_map.mpr fun u hu => ?_
    split_ifs
    · rfl
    · exact h.bound u hu
  keys := by
    rw [List.map_append]
    refine nodup_concat (h.keys.sublist (List.filter_sublist.map _)) fun hm => ?_
    obtain ⟨entry, hentry, heq⟩ := List.mem_map.mp hm
    exact absurd heq (by simpa using (List.mem_filter.mp hentry).2)
  waiting := by
    refine List.forall_mem_map.mpr fun u hu => ?_
    rw [List.map_append, List.mem_append]
    split_ifs with hid
    · intro _
      exact .inr (List.mem_singleton.mpr hid)
    · intro hu'
      obtain ⟨entry, hentry, heq⟩ := List.mem_map.mp (h.waiting u hu hu')
      refine .inl (List.mem_map.mpr ⟨entry, List.mem_filter.mpr ⟨hentry, ?_⟩, heq⟩)
      rw [heq]
      simpa using hid
  disconnected := by
    refine forall_mem_concat (fun entry hentry => ?_) ?_
    · obtain ⟨hentry, hne⟩ := List.mem_filter.mp hentry
      obtain ⟨u, hu, hid, hu'⟩ := h.disconnected entry hentry
      refine ⟨u, List.mem_map.mpr ⟨u, hu, if_neg ?_⟩, hid, hu'⟩
      rw [hid]
      simpa using hne
    · exact ⟨_, List.mem_map.mpr ⟨user, huser, if_pos rfl⟩, rfl, rfl⟩
  running := by
    refine forall_mem_concat (fun entry hentry => ?_) ?_
    · obtain ⟨timer, hm, hid, hkind⟩ := h.running entry (List.mem_filter.mp hentry).1
      exact ⟨timer, List.mem_append_left _ hm, hid, hkind⟩
    · exact ⟨_, List.mem_append_right _ (List.mem_singleton_self _), rfl, rfl⟩

/-- The grace period of a user is over, together with the user or after its return. -/
theorem expire (h : SeatTable v) {users : List RoomUserInternal} {id : TimerId}
    (hid : ∀ timer ∈ v.timers, timer.id = id → timer.kind = .grace userId)
    (hsub : users.Sublist v.users) (hkept : ∀ u ∈ v.users, u.id ≠ userId → u ∈ users)
    (hgone : ∀ u ∈ users, u.connected = false → u.id ≠ userId) :
    SeatTable { v with
      users := users
      gracePeriodTimers := v.gracePeriodTimers.filter fun entry => entry.1 ≠ userId
      timers := v.timers.filter fun timer => timer.id ≠ id } where
  timed := by
    have hfilter := h.timed.filter (fun timer => decide (timer.id ≠ id)) (.inl rfl)
    exact ⟨hfilter.distinct, hfilter.fresh, hfilter.consent⟩
  roster := h.roster.sublist hsub
  bound u hu := h.bound u (hsub.subset hu)
  keys := h.keys.sublist (List.filter_sublist.map _)
  waiting u hu hu' := by
    obtain ⟨entry, hentry, heq⟩ := List.mem_map.mp (h.waiting u (hsub.subset hu) hu')
    refine List.mem_map.mpr ⟨entry, List.mem_filter.mpr ⟨hentry, ?_⟩, heq⟩
    rw [heq]
    simpa using hgone u hu hu'
  disconnected entry hentry := by
    obtain ⟨hentry, hne⟩ := List.mem_filter.mp hentry
    obtain ⟨u, hu, heq, hu'⟩ := h.disconnected entry hentry
    refine ⟨u, hkept u hu ?_, heq, hu'⟩
    rw [heq]
    simpa using hne
  running entry hentry := by
    obtain ⟨hentry, hne⟩ := List.mem_filter.mp hentry
    obtain ⟨timer, hm, heq, hkind⟩ := h.running entry hentry
    refine ⟨timer, List.mem_filter.mpr ⟨hm, ?_⟩, heq, hkind⟩
    have hother : timer.id ≠ id := by
      intro hsame
      rw [hid timer hm hsame, TimerKind.grace.injEq] at hkind
      exact absurd hkind.symm (by simpa using hne)
    simpa using hother

/-- A user comes back, and its grace period is cancelled. -/
theorem take (h : SeatTable v) (userId : UserId) (socket : SocketId) (token : Token) :
    SeatTable { v with
      users := v.users.map fun u => if u.id = userId then
        { u with connected := true, socketId := some socket, reconnectToken := token } else u
      gracePeriodTimers := v.gracePeriodTimers.filter fun entry => entry.1 ≠ userId
      timers := v.timers.filter fun t => (userId, t.id) ∉ v.gracePeriodTimers } where
  timed := by
    have hfilter := h.timed.filter (fun t => decide ((userId, t.id) ∉ v.gracePeriodTimers)) (.inl rfl)
    exact ⟨hfilter.distinct, hfilter.fresh, hfilter.consent⟩
  roster := by
    refine h.roster.map _ (fun u => ?_) fun u => ?_
    · split_ifs <;> rfl
    · split_ifs <;> rfl
  bound := by
    refine List.forall_mem_map.mpr fun u hu => ?_
    split_ifs
    · rfl
    · exact h.bound u hu
  keys := h.keys.sublist (List.filter_sublist.map _)
  waiting := by
    refine List.forall_mem_map.mpr fun u hu => ?_
    split_ifs with hid
    · nofun
    · intro hu'
      obtain ⟨entry, hentry, heq⟩ := List.mem_map.mp (h.waiting u hu hu')
      refine List.mem_map.mpr ⟨entry, List.mem_filter.mpr ⟨hentry, ?_⟩, heq⟩
      rw [heq]
      simpa using hid
  disconnected entry hentry := by
    obtain ⟨hentry, hne⟩ := List.mem_filter.mp hentry
    obtain ⟨u, hu, heq, hu'⟩ := h.disconnected entry hentry
    refine ⟨u, List.mem_map.mpr ⟨u, hu, if_neg ?_⟩, heq, hu'⟩
    rw [heq]
    simpa using hne
  running entry hentry := by
    obtain ⟨hentry, hne⟩ := List.mem_filter.mp hentry
    obtain ⟨timer, hm, heq, hkind⟩ := h.running entry hentry
    refine ⟨timer, List.mem_filter.mpr ⟨hm, ?_⟩, heq, hkind⟩
    have hother : (userId, timer.id) ∉ v.gracePeriodTimers := by
      intro hmine
      obtain ⟨timer', hm', heq', hkind'⟩ := h.running _ hmine
      rw [h.timed.eq_of_id hm' hm heq', hkind, TimerKind.grace.injEq] at hkind'
      exact absurd hkind' (by simpa using hne)
    simpa using hother

/-- A new user takes a seat of a room that is not full. -/
theorem append (h : SeatTable v) {u : RoomUserInternal} {fresh : ℕ}
    (hfull : v.users.length < maxUsers) (hid : v.fresh ≤ u.id) (hlt : u.id < fresh)
    (hrole : v.mode = .interview → v.users ≠ [] → u.role ≠ .interviewer)
    (hconnected : u.connected = true) (hbound : u.socketId.isSome = true) :
    SeatTable { v with users := v.users ++ [u], fresh := fresh } where
  timed := ⟨h.timed.distinct, h.timed.fresh, h.timed.consent⟩
  roster := h.roster.append hfull hid hlt hrole
  bound := forall_mem_concat h.bound (hconnected.trans hbound.symm)
  keys := h.keys
  waiting := by
    refine forall_mem_concat h.waiting fun hu => ?_
    rw [hconnected] at hu
    cases hu
  disconnected entry hentry := by
    obtain ⟨w, hw, heq, hw'⟩ := h.disconnected entry hentry
    exact ⟨w, List.mem_append_left _ hw, heq, hw'⟩
  running := h.running

end SeatTable

/-! ## Handlers -/

/-- A segment that leaves the room registered found it so, and keeps the table. -/
def KeepsTable (s s' : Server) : Prop :=
  s'.registered = true → s.registered = true ∧ (SeatTable s.tableView → SeatTable s'.tableView)

namespace KeepsTable
variable {s s' s'' : Server}

theorem of_table (hregistered : s'.registered = s.registered)
    (h : SeatTable s.tableView → SeatTable s'.tableView) : KeepsTable s s' :=
  fun hs => ⟨hregistered.symm.trans hs, h⟩

theorem of_view (h : s'.tableView = s.tableView) : KeepsTable s s' :=
  of_table (congrArg TableView.registered h) fun htable => h ▸ htable

theorem trans (h : KeepsTable s s') (h' : KeepsTable s' s'') : KeepsTable s s'' := by
  intro hs
  obtain ⟨hs', htable'⟩ := h' hs
  obtain ⟨hs, htable⟩ := h hs'
  exact ⟨hs, fun h => htable' (htable h)⟩

end KeepsTable

section
variable {cfg : Config} {s : Server} {t : ServerTrigger} {o : Outcome} {g : Step} {socket : SocketId}

theorem clearConsentTimer_table (s : Server) : KeepsTable s s.clearConsentTimer := by
  unfold Server.clearConsentTimer
  split
  · exact .of_view rfl
  · rename_i id hid
    exact .of_table rfl fun h => h.clear (h.timed.consent id hid).2

theorem startConsentTimer_table (cfg : Config) (s : Server) :
    KeepsTable s (startConsentTimer cfg s) := by
  refine (clearConsentTimer_table s).trans (.of_table rfl fun h => ?_)
  refine h.retimed (h.timed.append _ .consent (.inr ⟨rfl, rfl⟩)) ?_
  intro timer hm userId hkind
  exact List.mem_append_left _ hm

theorem sendPendingHintRequest_table (cfg : Config) (g : Step) (socket : SocketId) :
    KeepsTable g.state (sendPendingHintRequest cfg g socket).state := by
  unfold sendPendingHintRequest
  split
  · exact .of_view rfl
  · dsimp only
    split
    · exact .of_view rfl
    · split
      · exact .of_view rfl
      · exact KeepsTable.trans (.of_view rfl) (startConsentTimer_table cfg _)

theorem handleHintRequest_table (cfg : Config) (s : Server) (socket : SocketId) :
    KeepsTable s (handleHintRequest cfg s socket).state := by
  have hview : (getHintRequestRejection cfg s socket).1.tableView = s.tableView := by
    unfold getHintRequestRejection
    split_ifs <;> rfl
  unfold handleHintRequest
  generalize getHintRequestRejection cfg s socket = r at hview
  obtain ⟨s', message⟩ := r
  cases message with
  | some message => exact .of_view hview
  | none =>
    dsimp only
    split_ifs
    · exact .of_view hview
    · exact KeepsTable.trans (.of_view hview) (sendPendingHintRequest_table cfg (.of s') socket)

theorem handleHintApprove_table (s : Server) (socket : SocketId) (seen : Option SeenRequest) :
    KeepsTable s (handleHintApprove s socket seen).state := by
  unfold handleHintApprove
  split
  · exact .of_view rfl
  · exact (clearConsentTimer_table s).trans (.of_view rfl)

theorem denyPendingHintRequest_table (g : Step) (request : PendingRequest) :
    KeepsTable g.state (denyPendingHintRequest g request).state := by
  obtain ⟨hstate, -, -⟩ := denyPendingHintRequest_spec g request
  exact .of_view (by rw [hstate]; rfl)

theorem handleHintDeny_table (s : Server) : KeepsTable s (handleHintDeny s).state := by
  unfold handleHintDeny
  split
  · exact .of_view rfl
  · exact (clearConsentTimer_table s).trans (denyPendingHintRequest_table (.of s.clearConsentTimer) _)

theorem handleDisconnect_table (g : Step) (socket : SocketId) :
    KeepsTable g.state (handleDisconnect g socket).state := by
  unfold handleDisconnect
  split_ifs
  · exact .of_view rfl
  · split
    · exact .of_view rfl
    · rename_i user huser
      exact .of_table rfl fun h => h.release (List.mem_of_find?_eq_some huser) _

theorem handleRequesterDisconnect_table (g : Step) :
    KeepsTable g.state (handleRequesterDisconnect g).state := by
  unfold handleRequesterDisconnect
  split
  · exact .of_view rfl
  · split
    · exact .of_view rfl
    · split_ifs
      · exact .of_view rfl
      · exact (clearConsentTimer_table g.state).trans (.of_view rfl)

theorem disconnectSocket_table (g : Step) (socket : SocketId) :
    KeepsTable g.state (disconnectSocket g socket).state := by
  unfold disconnectSocket
  split_ifs
  · dsimp only
    have hleave := (KeepsTable.of_view rfl).trans (handleDisconnect_table (g.modify fun s => { s with
      live := s.live.filter (· ≠ socket)
      joined := s.joined.filter (· ≠ socket) }) socket)
    split_ifs
    · exact hleave.trans (handleRequesterDisconnect_table _)
    · exact hleave
  · exact .of_view rfl

/-- A destroyed room is no longer registered. -/
theorem destroyRoom_table (s : Server) : KeepsTable s (destroyRoom s) := by
  unfold destroyRoom
  split_ifs
  · nofun
  · exact .of_view rfl

theorem cancelGracePeriod_removeUser (room : Room) (userId : UserId) :
    (room.cancelGracePeriod userId).removeUser userId = room.removeUser userId := by
  unfold Room.cancelGracePeriod Room.removeUser
  rw [List.filter_filter]
  simp only [Bool.and_self]

theorem handleGraceTimeout_table {timer : Timer} {userId : UserId} (hm : timer ∈ s.timers)
    (hkind : timer.kind = .grace userId) :
    KeepsTable s (handleGraceTimeout (s.clearTimeout timer.id) userId).state := by
  have hid : SeatTable s.tableView → ∀ timer' ∈ s.timers, timer'.id = timer.id →
      timer'.kind = .grace userId := by
    intro h timer' hm' heq
    rw [h.timed.eq_of_id hm' hm heq, hkind]
  unfold handleGraceTimeout removeDisconnectedUser
  split
  · rename_i hfind
    refine .of_table rfl fun h => h.expire (hid h) (List.Sublist.refl _) (fun u hu _ => hu) ?_
    intro u hu _
    simpa using List.find?_eq_none.mp hfind u hu
  · rename_i user hfind
    have hmem : user ∈ s.room.users := List.mem_of_find?_eq_some hfind
    have huser : user.id = userId := by simpa using List.find?_some hfind
    dsimp only
    rw [cancelGracePeriod_removeUser]
    split_ifs with hbound husers
    · refine .of_table rfl fun h => h.expire (hid h) (List.Sublist.refl _) (fun u hu _ => hu) ?_
      intro u hu hu' heq
      have hsame : u = user := h.eq_of_id hu hmem (heq.trans huser.symm)
      have hsocket := h.bound u hu
      subst hsame
      simp only [hu', Bool.false_or, decide_eq_true_eq] at hbound
      rw [hu', eq_comm, Option.isSome_eq_false_iff, Option.isNone_iff_eq_none] at hsocket
      exact hbound hsocket
    · refine .of_table rfl fun h => (h.expire (hid h) List.filter_sublist ?_ ?_).mono (Nat.le_succ _)
      · intro u hu hne
        exact List.mem_filter.mpr ⟨hu, by simpa using hne⟩
      · intro u hu _
        simpa using (List.mem_filter.mp hu).2
    · refine KeepsTable.trans ?_ (destroyRoom_table _)
      refine .of_table rfl fun h => h.expire (hid h) List.filter_sublist ?_ ?_
      · intro u hu hne
        exact List.mem_filter.mpr ⟨hu, by simpa using hne⟩
      · intro u hu _
        simpa using (List.mem_filter.mp hu).2

theorem handleTimeout_table {timer : Timer} (hm : timer ∈ s.timers) :
    KeepsTable s (handleTimeout s timer).state := by
  unfold handleTimeout
  dsimp only
  split
  · rename_i userId hkind
    exact handleGraceTimeout_table hm hkind
  · rename_i hkind
    have hclear : KeepsTable s { s.clearTimeout timer.id with consentTimer := none } := by
      refine .of_table rfl fun h => h.clear fun timer' hm' heq => ?_
      rw [h.timed.eq_of_id hm' hm heq, hkind]
    unfold handleConsentTimeout
    dsimp only
    split
    · exact hclear
    · exact hclear.trans (denyPendingHintRequest_table
        (.of { s.clearTimeout timer.id with consentTimer := none }) _)

theorem emitJoinedPayload_table (g : Step) (socket : SocketId) (user : RoomUserInternal)
    (announced : Option RoomUser) :
    KeepsTable g.state (emitJoinedPayload g socket user announced).state := by
  refine .of_view ?_
  unfold emitJoinedPayload
  simp only [Segment.suspend_state, Segment.toSocket_state, Segment.modify_state]
  split_ifs <;> rfl

theorem handleUserJoin_table (s : Server) (socket : SocketId) (payload : Option UserJoinPayload) :
    KeepsTable s (handleUserJoin s socket payload).state := by
  unfold handleUserJoin
  split
  · exact .of_view rfl
  · split
    · exact .of_view rfl
    · split
      · exact emitJoinedPayload_table (.of s) socket _ none
      · exact .of_view rfl

theorem determineRole_ne_interviewer {room : Room} (hmode : room.mode = .interview)
    (husers : room.users ≠ []) : determineRole room ≠ .interviewer := by
  unfold determineRole
  rw [if_neg (not_not.mpr hmode), if_neg husers]
  nofun

theorem takeSeat_table (s : Server) (socket : SocketId) (payload : UserJoinPayload) :
    KeepsTable s (takeSeat s socket payload).state := by
  unfold takeSeat
  split
  · rename_i existing _
    refine KeepsTable.trans ?_ (emitJoinedPayload_table (.of (reconnectUser s existing.id socket))
      socket _ _)
    exact .of_table rfl fun h => (h.take existing.id socket s.fresh).mono (Nat.le_succ _)
  · split_ifs with hfull
    · exact disconnectSocket_table ((Segment.of s).toSocket socket .roomFull) socket
    · refine KeepsTable.trans ?_ (emitJoinedPayload_table (.of (addUser s payload.displayName socket))
        socket _ _)
      have hroom : s.room.users.length < maxUsers := by simpa [Room.isFull] using hfull
      refine .of_table rfl fun h => h.append hroom (Nat.le_refl _) ?_ ?_ rfl rfl
      · exact Nat.lt_add_of_pos_right Nat.two_pos
      · exact determineRole_ne_interviewer

/-! ## Every segment -/

theorem handleEvent_table {e : ServerEvent} (h : handleEvent cfg s e = some g) :
    KeepsTable s g.state := by
  unfold handleEvent at h
  split at h
  · cases h; exact .of_view rfl
  · split_ifs at h
    cases h
    exact .of_view (by rw [authMiddleware_state])
  · split_ifs at h
    cases h
    exact .of_view rfl
  · split_ifs at h
    cases h
    exact disconnectSocket_table (.of s) _
  · split at h
    · cases h
    · rename_i timer htimer
      split_ifs at h
      cases h
      exact handleTimeout_table (List.mem_of_find?_eq_some htimer)
  · split_ifs at h
    cases h
    unfold destroyIdleRoom
    split_ifs
    · exact .of_view rfl
    · exact destroyRoom_table s
  · cases h; exact .of_view rfl
  · cases h; exact .of_view rfl

/-- Behind its first await a hint delivery leaves the table alone. -/
theorem resumeHint_tableView {task : Task} (hfamily : task.family = .hint)
    (h : resumeTask cfg s task o = some g) : g.state.tableView = s.tableView := by
  cases task with
  | hintStored d =>
    change afterStoredHint cfg s d o = some g at h
    unfold afterStoredHint at h
    split at h
    · split_ifs at h
      cases h
      rfl
    · cases h
      unfold prepareLLMHintRequest
      split_ifs <;> rfl
    · cases h
      rename_i reason
      cases reason <;> rfl
    · cases h
  | hintIpLimiter d =>
    change afterHintIpLimiter s d o = some g at h
    unfold afterHintIpLimiter at h
    split at h <;> cases h <;> rfl
  | hintQuota d =>
    change afterHintQuota cfg s d o = some g at h
    unfold afterHintQuota at h
    split at h
    · split_ifs at h
      · cases h; rfl
      · split at h <;> cases h
        rfl
    · cases h; rfl
    · cases h; rfl
    · cases h
  | hintProblem d p =>
    change afterHintProblem cfg s d p o = some g at h
    unfold afterHintProblem at h
    split at h
    · split_ifs at h <;> cases h <;> rfl
    · cases h; rfl
    · cases h; rfl
    · cases h
  | hintLimiter d prompt =>
    change afterHintLimiter s d prompt o = some g at h
    unfold afterHintLimiter at h
    split at h <;> cases h <;> rfl
  | hintReserve d prompt =>
    change afterHintReserve s d prompt o = some g at h
    unfold afterHintReserve at h
    split at h <;> cases h <;> rfl
  | hintStream d prompt generated closing =>
    change afterHintStream cfg s d prompt generated closing o = some g at h
    unfold afterHintStream at h
    split at h
    · split_ifs at h
      cases h
      rfl
    · cases h
      unfold finishHintStream
      split <;> rfl
    · cases h; rfl
    · cases h
  | hintFailing d reason =>
    cases o <;> cases h
    cases reason <;> rfl
  | _ => cases hfamily

/-- **The seat table.** Every segment that leaves the room registered keeps the table. -/
theorem fire_table (h : (server cfg).fire s t = some g) : KeepsTable s g.state := by
  have hwithin := fire_within h
  cases t with
  | event e => exact handleEvent_table h
  | task task o =>
    change resumeTask cfg s task o = some g at h
    cases task with
    | admitted socket event seen =>
      cases o <;> cases h
      unfold runHandler at hwithin ⊢
      split
      · exact .of_view rfl
      · rename_i hlive
        rw [if_neg hlive] at hwithin
        cases event with
        | userJoin payload => exact handleUserJoin_table s socket payload
        | hintRequest =>
          dsimp only
          split_ifs
          · exact handleHintRequest_table cfg s socket
          · exact .of_view rfl
        | hintApprove =>
          dsimp only
          split_ifs
          · exact handleHintApprove_table s socket seen
          · exact .of_view rfl
        | hintDeny =>
          dsimp only
          split_ifs
          · exact handleHintDeny_table s
          · exact .of_view rfl
        | _ => exact .of_view (hwithin.observe Server.tableView fun _ => rfl)
    | joinLimiter socket payload =>
      change afterJoinLimiter s socket payload o = some g at h
      unfold afterJoinLimiter at h
      split at h <;> cases h
      · exact takeSeat_table s socket payload
      · exact .of_view rfl
      · exact .of_view rfl
    | hydrating socket p announced =>
      exact .of_view (by rw [afterHydration_state h])
    | hintStored d => exact .of_view (resumeHint_tableView rfl h)
    | hintIpLimiter d => exact .of_view (resumeHint_tableView rfl h)
    | hintQuota d => exact .of_view (resumeHint_tableView rfl h)
    | hintProblem d p => exact .of_view (resumeHint_tableView rfl h)
    | hintLimiter d prompt => exact .of_view (resumeHint_tableView rfl h)
    | hintReserve d prompt => exact .of_view (resumeHint_tableView rfl h)
    | hintStream d prompt generated closing => exact .of_view (resumeHint_tableView rfl h)
    | hintFailing d reason => exact .of_view (resumeHint_tableView rfl h)
    | _ => exact .of_view (hwithin.observe Server.tableView fun _ => rfl)

end

/-! ## The roster alone -/

/-- Two records of one person. -/
structure SamePerson (r : RoomUserInternal) (u : RoomUser) : Prop where
  id : r.id = u.id
  displayName : r.displayName = u.displayName
  role : r.role = u.role

/-- Nobody changes person: a user with an id that was in use is the user who had it. -/
structure KeepsPeople (s s' : Server) : Prop where
  roster : Roster s.room.mode s.room.users s.fresh → Roster s.room.mode s'.room.users s'.fresh
  fresh : s.fresh ≤ s'.fresh
  same : ∀ r ∈ s'.room.users, s.fresh ≤ r.id ∨ ∃ r' ∈ s.room.users, SamePerson r' r.toRoomUser

theorem SeatStep.people {s : Server} {t : ServerTrigger} {g : Step} (h : SeatStep s t g) : KeepsPeople s g.state := by
  have hself : ∀ r ∈ s.room.users,
      s.fresh ≤ r.id ∨ ∃ r' ∈ s.room.users, SamePerson r' r.toRoomUser :=
    fun r hr => .inr ⟨r, hr, ⟨rfl, rfl, rfl⟩⟩
  have hsub : ∀ {users : List RoomUserInternal}, g.state.room.users = users →
      users.Sublist s.room.users → s.fresh ≤ g.state.fresh → KeepsPeople s g.state := by
    rintro users rfl hsub hle
    exact ⟨fun h => (h.sublist hsub).mono hle, hle, fun r hr => hself r (hsub.subset hr)⟩
  have hmap : ∀ {f : RoomUserInternal → RoomUserInternal}, g.state.room.users = s.room.users.map f →
      (∀ u, SamePerson u (f u).toRoomUser) → s.fresh ≤ g.state.fresh → KeepsPeople s g.state := by
    intro f husers hf hle
    refine ⟨fun h => ?_, hle, ?_⟩
    · rw [husers]
      exact (h.map f (fun u => (hf u).id.symm) fun u => (hf u).role.symm).mono hle
    · rw [husers]
      exact List.forall_mem_map.mpr fun r hr => .inr ⟨r, hr, hf r⟩
  cases h with
  | kept hview hfresh => exact hsub (congrArg SeatView.users hview) (List.Sublist.refl _) hfresh
  | connected hview hfresh =>
    exact hsub (congrArg SeatView.users hview) (List.Sublist.refl _) hfresh.ge
  | closed socket _ hview hfresh =>
    have husers : g.state.room.users = s.leave socket := congrArg SeatView.users hview
    unfold Server.leave at husers
    split_ifs at husers
    · split at husers
      · exact hsub husers (List.Sublist.refl _) hfresh.ge
      · refine hmap husers (fun u => ?_) hfresh.ge
        split_ifs <;> exact ⟨rfl, rfl, rfl⟩
    · exact hsub husers (List.Sublist.refl _) hfresh.ge
  | removed userId registered _ hview hfresh =>
    exact hsub (congrArg SeatView.users hview) List.filter_sublist hfresh
  | destroyed _ hview hfresh =>
    exact hsub (congrArg SeatView.users hview) (List.Sublist.refl _) hfresh.ge
  | reconnected socket payload existing _ _ hview hfresh =>
    refine hmap (congrArg SeatView.users hview) (fun u => ?_) hfresh
    split_ifs <;> exact ⟨rfl, rfl, rfl⟩
  | added socket payload _ hroom hview hfresh =>
    have husers : g.state.room.users =
        s.room.users ++ [s.newUser socket payload.displayName] := congrArg SeatView.users hview
    refine ⟨fun h => ?_, hfresh.le, ?_⟩
    · rw [husers]
      refine h.append ?_ (Nat.le_refl _) hfresh determineRole_ne_interviewer
      simpa [Room.isFull] using hroom
    · rw [husers]
      exact forall_mem_concat hself (.inl (Nat.le_refl _))

/-- Registered or not, the room keeps its roster. -/
theorem roster_step {cfg : Config} {s : Server} {t : ServerTrigger} {g : Step}
    (h : Roster s.room.mode s.room.users s.fresh) (hfire : (server cfg).fire s t = some g) :
    Roster g.state.room.mode g.state.room.users g.state.fresh := by
  have hmode : g.state.room.mode = s.room.mode := by
    refine (fire_within hfire).observe (·.room.mode) fun s => ?_
    cases triggerFamily t <;> rfl
  rw [hmode]
  exact (fire_seats hfire).people.roster h

theorem initial_roster (mode : RoomMode) {fresh : ℕ} : Roster mode [] fresh :=
  ⟨Nat.zero_le _, List.nodup_nil, List.forall_mem_nil _, fun _ => Nat.zero_le _⟩

end CodeShare
