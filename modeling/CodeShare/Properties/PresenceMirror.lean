import CodeShare.Client.Mirror
import CodeShare.Server.TableSteps

/-! # The client's view of who is there

The others hear of a join only behind its hydration, of a socket's end at once, and of a seat that is
given up never. As long as no seat is given up while a client is there, and every user is still there
when it is presented, the client shows the users of the room whenever no join is under way.
-/

namespace CodeShare
open Tasks
set_option autoImplicit false

/-- When no join is under way, the client shows the users of the room and no others. -/
structure MirrorsPresence (clock : ℕ → Time) (state : ClientRoomState) (k : SocketId) (c : ServerConf)
    (out : List Effect) : Prop where
  users : (∀ task ∈ c.pool, task.family ≠ .join) → ∀ u,
    u ∈ (clientState clock state (messagesTo k out)).users ↔
      u ∈ c.shared.room.users.map fun u => u.toRoomUser
  full : (∀ task ∈ c.pool, task.family ≠ .join) →
    (clientState clock state (messagesTo k out)).users.length ≤ maxUsers

/-- The user whom the end of a hydration presents, and the socket that does not hear of it. -/
def presents : ServerTrigger → Option (SocketId × RoomUser)
  | .task (.hydrating socket _ (some user)) _ => some (socket, user)
  | _ => none

/-- While the client is there no seat is given up, and the users that are presented to it are there. -/
def SparesPresence (k : SocketId) (c : ServerConf) (t : ServerTrigger) : Prop :=
  k ∈ c.shared.joined → expels c.shared t = none ∧
    ∀ presented ∈ presents t, presented.1 ≠ k →
      ∃ u ∈ c.shared.room.users, u.id = presented.2.id ∧ u.connected = true

instance (k : SocketId) (c : ServerConf) (t : ServerTrigger) : Decidable (SparesPresence k c t) := by
  unfold SparesPresence
  infer_instance

/-! ## Lists of users -/

theorem upsertUser_cons (u user : RoomUser) (users : List RoomUser) :
    upsertUser (u :: users) user =
      if u.id = user.id then user :: users else u :: upsertUser users user := by
  unfold upsertUser
  rw [List.findIdx?_cons]
  by_cases hid : u.id = user.id
  · simp [hid]
  · cases hindex : users.findIdx? fun u => u.id = user.id with
    | none => simp [hid]
    | some i => simp [hid]

/-- The ids stay, and that of the user is among them. -/
theorem upsertUser_ids (users : List RoomUser) (user : RoomUser) :
    (upsertUser users user).map (·.id) =
      if user.id ∈ users.map (·.id) then users.map (·.id) else users.map (·.id) ++ [user.id] := by
  induction users with
  | nil => rfl
  | cons u users ih =>
    rw [upsertUser_cons]
    by_cases hid : u.id = user.id
    · simp [hid]
    · rw [if_neg hid, List.map_cons, ih, List.map_cons]
      by_cases hm : user.id ∈ users.map (·.id)
      · rw [if_pos hm, if_pos (List.mem_cons_of_mem _ hm)]
      · have hnot : user.id ∉ u.id :: users.map (·.id) :=
          List.not_mem_cons_of_ne_of_not_mem (Ne.symm hid) hm
        rw [if_neg hm, if_neg hnot]
        rfl

theorem upsertUser_distinct {users : List RoomUser} (hdistinct : (users.map (·.id)).Nodup)
    (user : RoomUser) : ((upsertUser users user).map (·.id)).Nodup := by
  rw [upsertUser_ids]
  split_ifs with hm
  · exact hdistinct
  · exact nodup_concat hdistinct hm

theorem mem_upsertUser {users : List RoomUser} {user u : RoomUser}
    (hdistinct : (users.map (·.id)).Nodup) :
    u ∈ upsertUser users user ↔ u = user ∨ u ∈ users ∧ u.id ≠ user.id := by
  induction users with
  | nil => simp [upsertUser]
  | cons w users ih =>
    rw [List.map_cons, List.nodup_cons] at hdistinct
    rw [upsertUser_cons]
    by_cases hid : w.id = user.id
    · have hothers : ∀ u ∈ users, u.id ≠ user.id := by
        intro u hu heq
        exact hdistinct.1 (hid.trans heq.symm ▸ List.mem_map_of_mem hu)
      rw [if_pos hid, List.mem_cons, List.mem_cons]
      constructor
      · rintro (rfl | hu)
        · exact .inl rfl
        · exact .inr ⟨.inr hu, hothers u hu⟩
      · rintro (rfl | ⟨rfl | hu, hne⟩)
        · exact .inl rfl
        · exact absurd hid hne
        · exact .inr hu
    · rw [if_neg hid, List.mem_cons, ih hdistinct.2, List.mem_cons]
      constructor
      · rintro (rfl | rfl | ⟨hu, hne⟩)
        · exact .inr ⟨.inl rfl, hid⟩
        · exact .inl rfl
        · exact .inr ⟨.inr hu, hne⟩
      · rintro (rfl | ⟨rfl | hu, hne⟩)
        · exact .inr (.inl rfl)
        · exact .inl rfl
        · exact .inr (.inr ⟨hu, hne⟩)

/-! ## What a client may show -/

/-- The client shows the users, up to the arrival of those who will be presented to it. -/
structure Shows (pending : UserId → Prop) (shown : List RoomUser) (users : List RoomUserInternal) :
    Prop where
  distinct : (shown.map (·.id)).Nodup
  known : ∀ u ∈ shown, ∃ r ∈ users, SamePerson r u ∧ (u.connected = r.connected ∨ pending u.id)
  complete : ∀ r ∈ users, pending r.id ∨ ∃ u ∈ shown, u.id = r.id

namespace Shows
variable {pending pending' : UserId → Prop} {shown : List RoomUser} {users : List RoomUserInternal}

theorem mono (h : Shows pending shown users) (hle : ∀ id, pending id → pending' id) :
    Shows pending' shown users where
  distinct := h.distinct
  known u hu := by
    obtain ⟨r, hr, hsame, hconnected⟩ := h.known u hu
    exact ⟨r, hr, hsame, hconnected.imp_right (hle u.id)⟩
  complete r hr := (h.complete r hr).imp_left (hle r.id)

/-- A sync shows everyone. -/
theorem sync (hdistinct : (users.map (·.id)).Nodup) :
    Shows pending (users.map fun u => u.toRoomUser) users where
  distinct := by
    rw [List.map_map]
    exact hdistinct
  known := List.forall_mem_map.mpr fun r hr => ⟨r, hr, ⟨rfl, rfl, rfl⟩, .inl rfl⟩
  complete r hr := .inr ⟨r.toRoomUser, List.mem_map_of_mem hr, rfl⟩

/-- A user leaves, and the client hears of it. -/
theorem left (h : Shows pending shown users) (userId : UserId) :
    Shows pending (markLeft shown userId) (users.map fun u =>
      if u.id = userId then { u with connected := false, socketId := none } else u) where
  distinct := by
    have hids : (markLeft shown userId).map (·.id) = shown.map (·.id) := by
      unfold markLeft
      rw [List.map_map]
      refine List.map_congr_left fun u _ => ?_
      rw [Function.comp_apply]
      split_ifs <;> rfl
    rw [hids]
    exact h.distinct
  known := by
    refine List.forall_mem_map.mpr fun u hu => ?_
    obtain ⟨r, hr, hsame, hconnected⟩ := h.known u hu
    refine ⟨_, List.mem_map_of_mem hr, ?_⟩
    by_cases huser : u.id = userId
    · rw [if_pos huser, if_pos (hsame.id.trans huser)]
      exact ⟨⟨hsame.id, hsame.displayName, hsame.role⟩, .inl rfl⟩
    · rw [if_neg huser, if_neg fun heq => huser (hsame.id.symm.trans heq)]
      exact ⟨hsame, hconnected⟩
  complete := by
    refine List.forall_mem_map.mpr fun r hr => ?_
    have hid : (if r.id = userId then { r with connected := false, socketId := none } else r).id =
        r.id := by
      split_ifs <;> rfl
    rw [hid]
    refine (h.complete r hr).imp_right ?_
    rintro ⟨u, hu, heq⟩
    refine ⟨_, List.mem_map_of_mem hu, ?_⟩
    split_ifs <;> exact heq

/-- A user comes back, and will be presented. -/
theorem reseated (h : Shows pending shown users) {userId : UserId} (hpending : pending userId)
    (socket : SocketId) (token : Token) : Shows pending shown (users.map fun u =>
      if u.id = userId then
        { u with connected := true, socketId := some socket, reconnectToken := token } else u) where
  distinct := h.distinct
  known u hu := by
    obtain ⟨r, hr, ⟨hid, hname, hrole⟩, hconnected⟩ := h.known u hu
    refine ⟨_, List.mem_map_of_mem hr, ?_⟩
    split_ifs with hr'
    · exact ⟨⟨hid, hname, hrole⟩, .inr (hid.symm.trans hr' ▸ hpending)⟩
    · exact ⟨⟨hid, hname, hrole⟩, hconnected⟩
  complete := by
    refine List.forall_mem_map.mpr fun r hr => ?_
    have hid : (if r.id = userId then { r with
        connected := true, socketId := some socket, reconnectToken := token } else r).id = r.id := by
      split_ifs <;> rfl
    rw [hid]
    exact h.complete r hr

/-- A new user, who will be presented. -/
theorem added (h : Shows pending shown users) {user : RoomUserInternal} (hpending : pending user.id) :
    Shows pending shown (users ++ [user]) where
  distinct := h.distinct
  known u hu := by
    obtain ⟨r, hr, hsame⟩ := h.known u hu
    exact ⟨r, List.mem_append_left _ hr, hsame⟩
  complete := forall_mem_concat h.complete (.inl hpending)

/-- A user is presented who is there. -/
theorem presented (h : Shows pending shown users) {r : RoomUserInternal} {user : RoomUser}
    (hr : r ∈ users) (hsame : SamePerson r user) (hconnected : r.connected = true)
    (hle : ∀ id, pending id → pending' id ∨ id = user.id) :
    Shows pending' (upsertUser shown ⟨user.id, user.displayName, user.role, true⟩) users where
  distinct := upsertUser_distinct h.distinct _
  known u hu := by
    rcases (mem_upsertUser h.distinct).mp hu with rfl | ⟨hu, hne⟩
    · exact ⟨r, hr, ⟨hsame.id, hsame.displayName, hsame.role⟩, .inl hconnected.symm⟩
    · obtain ⟨r', hr', hsame', hconnected'⟩ := h.known u hu
      exact ⟨r', hr', hsame', hconnected'.imp_right fun hp => (hle u.id hp).resolve_right hne⟩
  complete r' hr' := by
    by_cases hid : r'.id = user.id
    · exact .inr ⟨_, (mem_upsertUser h.distinct).mpr (.inl rfl), hid.symm⟩
    · refine (h.complete r' hr').imp (fun hp => (hle r'.id hp).resolve_right hid) ?_
      rintro ⟨u, hu, heq⟩
      exact ⟨u, (mem_upsertUser h.distinct).mpr (.inr ⟨hu, heq.trans_ne hid⟩), heq⟩

/-- With nobody on the way the client shows the users and no others. -/
theorem mem_iff (h : Shows pending shown users) (hdistinct : (users.map (·.id)).Nodup)
    (hnone : ∀ id, ¬ pending id) (u : RoomUser) :
    u ∈ shown ↔ u ∈ users.map fun u => u.toRoomUser := by
  have hsame : ∀ {r : RoomUserInternal} {u : RoomUser}, SamePerson r u → u.connected = r.connected →
      r.toRoomUser = u := by
    rintro ⟨r, _, _⟩ u ⟨hid, hname, hrole⟩ hconnected
    cases r
    cases u
    cases hid
    cases hname
    cases hrole
    cases hconnected
    rfl
  constructor
  · intro hu
    obtain ⟨r, hr, hperson, hconnected⟩ := h.known u hu
    exact List.mem_map.mpr ⟨r, hr, hsame hperson (hconnected.resolve_right (hnone _))⟩
  · intro hu
    obtain ⟨r, hr, rfl⟩ := List.mem_map.mp hu
    obtain ⟨u', hu', hid⟩ := (h.complete r hr).resolve_left (hnone _)
    obtain ⟨r', hr', hperson, hconnected⟩ := h.known u' hu'
    obtain rfl : r' = r := List.inj_on_of_nodup_map hdistinct hr' hr (hperson.id.trans hid)
    rw [hsame hperson (hconnected.resolve_right (hnone _))]
    exact hu'

theorem length_le (h : Shows pending shown users) (hdistinct : (users.map (·.id)).Nodup)
    (hnone : ∀ id, ¬ pending id) : shown.length ≤ users.length := by
  have hsubset : shown ⊆ users.map fun u => u.toRoomUser :=
    fun u hu => (h.mem_iff hdistinct hnone u).mp hu
  have hle := (List.Nodup.of_map _ h.distinct).subperm hsubset
  have hlength := hle.length_le
  rwa [List.length_map] at hlength

end Shows

/-! ## The people of the room -/

/-- Ids are used once, and whoever will be presented is the user of that id. -/
structure People (c : ServerConf) : Prop where
  roster : Roster c.shared.room.mode c.shared.room.users c.shared.fresh
  presented : ∀ j p user, .hydrating j p (some user) ∈ c.pool → user.id < c.shared.fresh ∧
    ∀ r ∈ c.shared.room.users, r.id = user.id → SamePerson r user

variable {cfg : Config} {s : Server} {c c' : ServerConf} {out : List Effect} {t : ServerTrigger}
  {g : Step} {rest : List Task} {k : SocketId} {v : Shown}

/-- Whom a join announces is among the users. -/
theorem Joins.announced {socket : SocketId} {user : RoomUserInternal} {announced : RoomUser}
    {users : List RoomUserInternal} {fresh : ℕ}
    (h : Joins s t socket user (some announced) users fresh) :
    ∃ r ∈ users, SamePerson r announced := by
  cases h with
  | reconnect payload existing user hseating hexisting huser =>
    refine ⟨_, List.mem_map_of_mem (reconnectingUser_mem hexisting), ?_⟩
    rw [if_pos rfl, huser]
    exact ⟨rfl, rfl, rfl⟩
  | add payload hseating hnew hroom =>
    exact ⟨_, List.mem_append_right _ (List.mem_singleton_self _), ⟨rfl, rfl, rfl⟩⟩

theorem people_step (hpeople : People c) (hby : (server cfg).StepBy c c' out t g rest) :
    People c' := by
  have hkeeps := (fire_seats hby.fire).people
  have hroster : Roster c'.shared.room.mode c'.shared.room.users c'.shared.fresh := by
    rw [hby.shared]
    exact roster_step hpeople.roster hby.fire
  refine ⟨hroster, fun j p user hm => ?_⟩
  rcases hby.mem_after hm with hm | hm
  · obtain ⟨hlt, hsame⟩ := hpeople.presented j p user (hby.mem_of_rest hm)
    rw [hby.shared]
    refine ⟨hlt.trans_le hkeeps.fresh, fun r hr hid => ?_⟩
    rcases hkeeps.same r hr with hle | ⟨r', hr', hperson⟩
    · exact absurd (hle.trans_eq hid) hlt.not_ge
    · have hold := hsame r' hr' (hperson.id.trans hid)
      exact ⟨hid, hperson.displayName.symm.trans hold.displayName,
        hperson.role.symm.trans hold.role⟩
  · obtain ⟨joined, users, fresh, hanswers⟩ := fire_hydrating hby.fire hm
    have husers : c'.shared.room.users = users := by
      rw [hby.shared]
      exact congrArg RoomView.users hanswers.view
    obtain ⟨r, hr, hperson⟩ := hanswers.joins.announced
    rw [← husers] at hr
    refine ⟨hperson.id ▸ hroster.fresh r hr, fun r' hr' hid => ?_⟩
    rw [List.inj_on_of_nodup_map hroster.distinct hr' hr (hid.trans hperson.id.symm)]
    exact hperson

theorem initial_people (mode : RoomMode) (now : Time) : People (initial cfg mode now) where
  roster := initial_roster mode
  presented := nofun

/-! ## One segment -/

/-- Users whom a hydration of somebody else will present to the client. -/
def Awaited (k : SocketId) (c : ServerConf) (id : UserId) : Prop :=
  ∃ j p user, j ≠ k ∧ .hydrating j p (some user) ∈ c.pool ∧ user.id = id

/-- A segment leaves those who are awaited, but for the one whom it takes up the hydration of. -/
theorem Awaited.step {id : UserId} (h : Awaited k c id) (hby : (server cfg).StepBy c c' out t g rest) :
    Awaited k c' id ∨ ∃ j p user, t.taken = [.hydrating j p (some user)] ∧ j ≠ k ∧ user.id = id := by
  obtain ⟨j, p, user, hne, hm, rfl⟩ := h
  rcases List.mem_append.mp (hby.before.mem_iff.mpr hm) with hm | hm
  · cases t with
    | event e => cases hm
    | task task o => exact .inr ⟨j, p, user, congrArg (· :: []) (List.mem_singleton.mp hm).symm, hne, rfl⟩
  · refine .inl ⟨j, p, user, hne, ?_, rfl⟩
    rw [hby.after]
    exact List.mem_append_left _ hm

/-- The message tells nothing of who is there. -/
def Message.absent : Message → Bool
  | roomSync _ | userJoined _ _ _ _ _ _ | userLeft _ => false
  | _ => true

theorem Message.absent_spares {m : Message} (h : m.absent = true) : m.Spares Shown.users := by
  intro now v
  cases m <;> first | rfl | cases h

theorem Message.absent_of_quiet {m : Message} (h : m.quiet = true) : m.absent = true := by
  cases m <;> first | rfl | cases h

theorem Message.absent_of_execution {m : Message} (h : m.isExecution = true) : m.absent = true := by
  cases m <;> first | rfl | cases h

/-- The end of a hydration. -/
theorem EndsHydration.presence {j : SocketId} {p : Option ProblemId} {announced : Option RoomUser}
    (hends : EndsHydration cfg c.shared t g j p announced) (hpeople : People c)
    (hcount : c.shared.joined.count k = 1) (hby : (server cfg).StepBy c c' out t g rest)
    (hpresents : ∀ user ∈ announced, j ≠ k → ∃ u ∈ c.shared.room.users, u.id = user.id ∧
      u.connected = true) (clock : ℕ → Time)
    (hv : Shows (Awaited k c) v.users c.shared.room.users) :
    Shows (Awaited k c') (heard clock v k g.out).users c'.shared.room.users := by
  have husers : c'.shared.room.users = c.shared.room.users := by
    rw [hby.shared]
    exact congrArg RoomView.users hends.view
  have hmem : Task.hydrating j p announced ∈ c.pool :=
    hby.mem_of_taken (hends.taken ▸ List.mem_singleton_self _)
  -- an awaited user is still awaited, or presented now
  have hawaited : ∀ id, Awaited k c id →
      Awaited k c' id ∨ ∃ user ∈ announced, j ≠ k ∧ id = user.id := by
    refine fun id hid => (hid.step hby).imp_right ?_
    rintro ⟨j', p', user, htaken, hne, rfl⟩
    rw [hends.taken, List.singleton_inj, Task.hydrating.injEq] at htaken
    obtain ⟨rfl, -, rfl⟩ := htaken
    exact ⟨user, rfl, hne, rfl⟩
  have hdetail : ∀ m ∈ (rehydrates t).toList.flatMap fun delivered =>
      List.replicate (reaches c.shared.live delivered.1 k) (problemLoadedPayload cfg delivered.2),
      m.Spares Shown.users := spares_flatMap fun _ _ => Message.absent_spares rfl
  have hout := hends.out k
  rw [husers]
  by_cases hpresented : ∃ user ∈ announced, j ≠ k
  · obtain ⟨user, rfl, hne⟩ := hpresented
    obtain ⟨r, hr, hid, hconnected⟩ := hpresents user rfl hne
    have hperson := (hpeople.presented j p user hmem).2 r hr hid
    have hfilter : (c.shared.joined.filter (· ≠ j)).count k = 1 := by
      rw [List.count_filter (by simpa using hne.symm), hcount]
    rw [hfilter, Option.toList_some, List.flatMap_singleton, List.replicate_one] at hout
    have hheard : (heard clock v k g.out).users =
        upsertUser v.users ⟨user.id, user.displayName, user.role, true⟩ := by
      unfold heard
      rw [hout, Shown.receiveAll_append]
      change upsertUser (v.receiveAll clock _).users _ = _
      rw [Shown.receiveAll_spares clock hdetail]
    rw [hheard]
    refine hv.presented hr hperson hconnected fun id hid => (hawaited id hid).imp_right ?_
    rintro ⟨user', huser', -, rfl⟩
    rw [Option.some.inj huser']
  · have hfilter : ∀ user ∈ announced, (c.shared.joined.filter (· ≠ j)).count k = 0 := by
      intro user huser
      have hjk : j = k := by
        by_contra hne
        exact hpresented ⟨user, huser, hne⟩
      exact List.count_eq_zero.mpr fun hm => by simp [hjk] at hm
    have hnone : (announced.toList.flatMap fun user =>
        List.replicate ((c.shared.joined.filter (· ≠ j)).count k)
          (Message.userJoined user.id user.displayName user.role c.shared.room.mode none none)) = [] := by
      cases announced with
      | none => rfl
      | some user =>
        rw [Option.toList_some, List.flatMap_singleton, hfilter user rfl, List.replicate_zero]
    rw [hnone, List.append_nil] at hout
    have hheard : (heard clock v k g.out).users = v.users := by
      unfold heard
      rw [hout]
      exact Shown.receiveAll_spares clock hdetail
    rw [hheard]
    refine hv.mono fun id hid => (hawaited id hid).resolve_right ?_
    rintro ⟨user, huser, hne, -⟩
    exact hpresented ⟨user, huser, hne⟩

/-- The room behind a join, as another client knows it until the join is announced. -/
theorem Joins.presence {socket : SocketId} {user : RoomUserInternal} {announced : Option RoomUser}
    {users : List RoomUserInternal} {fresh : ℕ} {awaited : UserId → Prop} {shown : List RoomUser}
    (h : Joins s t socket user announced users fresh) (hpending : ∀ user ∈ announced, awaited user.id)
    (hshown : Shows awaited shown s.room.users) : Shows awaited shown users := by
  cases h with
  | again user _ => exact hshown
  | reconnect payload existing user _ _ huser =>
    have hid : user.id = existing.id := by rw [huser]
    exact hshown.reseated (hid ▸ hpending _ rfl) socket s.fresh
  | add payload _ _ _ => exact hshown.added (hpending _ rfl)

/-- The user of a socket that is closed leaves. -/
theorem presence_closed {socket : SocketId} {before : List Message} {awaited : UserId → Prop}
    (hquiet : ∀ m ∈ before, m.quiet = true)
    (hout : messagesTo k g.out = before ++ (s.leaver socket).toList.flatMap fun user => [.userLeft user.id])
    (clock : ℕ → Time) (hv : Shows awaited v.users s.room.users) :
    Shows awaited (heard clock v k g.out).users (s.leave socket) := by
  have hbefore : (v.receiveAll clock before).users = v.users :=
    Shown.receiveAll_spares clock fun m hm => Message.absent_spares (Message.absent_of_quiet (hquiet m hm))
  unfold heard
  rw [hout, Shown.receiveAll_append]
  unfold Server.leave Server.leaver
  split_ifs
  · cases s.room.findBySocketId socket with
    | none =>
      change Shows _ (v.receiveAll clock before).users _
      rw [hbefore]
      exact hv
    | some user =>
      change Shows _ (markLeft (v.receiveAll clock before).users user.id) _
      rw [hbefore]
      exact hv.left user.id
  · change Shows _ (v.receiveAll clock before).users _
    rw [hbefore]
    exact hv

/-- Every other segment, seen by a client in the room that does not join anew. -/
theorem Announces.presence (hannounces : Announces cfg c.shared t g)
    (hcount : c.shared.joined.count k = 1) (hjoined : k ∈ g.state.joined)
    (hby : (server cfg).StepBy c c' out t g rest) (hpeople' : People c')
    (hnot : ∀ user announced users fresh, ¬ AnswersJoin c.shared t g k user announced users fresh)
    (hexpels : expels c.shared t = none)
    (hother : ∀ j p announced, t.taken ≠ [.hydrating j p announced]) (clock : ℕ → Time)
    (hv : Shows (Awaited k c) v.users c.shared.room.users) :
    Shows (Awaited k c') (heard clock v k g.out).users c'.shared.room.users := by
  have hv' : Shows (Awaited k c') v.users c.shared.room.users := by
    refine hv.mono fun id hid => (hid.step hby).resolve_right ?_
    rintro ⟨j, p, user, htaken, -, -⟩
    exact hother j p _ htaken
  rw [hby.shared]
  have hkept : g.state.room.users = c.shared.room.users →
      (∀ m ∈ messagesTo k g.out, m.Spares Shown.users) →
      Shows (Awaited k c') (heard clock v k g.out).users g.state.room.users := by
    intro husers hout
    have hheard : (heard clock v k g.out).users = v.users := Shown.receiveAll_spares clock hout
    rw [hheard, husers]
    exact hv'
  have hsynced : (heard clock v k g.out).users = g.state.room.shown.users →
      Shows (Awaited k c') (heard clock v k g.out).users g.state.room.users := by
    intro hheard
    have hdistinct := hpeople'.roster.distinct
    rw [hby.shared] at hdistinct
    rw [hheard]
    exact .sync hdistinct
  cases hannounces with
  | quiet hview hout =>
    exact hkept (congrArg RoomView.users hview) fun m hm =>
      Message.absent_spares (Message.absent_of_quiet (hout k m hm))
  | connected hview hout =>
    refine hkept (congrArg RoomView.users hview) ?_
    rw [hout k]
    exact List.forall_mem_nil _
  | replies hreplies hview =>
    obtain ⟨flag, used, hview⟩ := hview
    exact hkept (congrArg RoomView.users hview) fun m hm =>
      Message.absent_spares (Message.absent_of_execution (hreplies.isExecution k m hm))
  | hintRefused socket message _ hview hout =>
    refine hkept (congrArg RoomView.users hview) ?_
    rw [hout k]
    exact spares_replicate (Message.absent_spares rfl) _
  | hintDelivered charge fullHint remaining _ hview hout =>
    refine hkept (congrArg RoomView.users hview) ?_
    rw [hout k]
    exact spares_replicate (Message.absent_spares rfl) _
  | hintAsked requester _ _ _ hout =>
    refine hsynced (heard_first (f := Shown.users) clock hcount (hout k) rfl ?_)
    exact spares_flatMap fun _ _ => Message.absent_spares rfl
  | hintAnswered requester _ _ hout =>
    refine hsynced (heard_first (f := Shown.users) clock hcount (hout k) rfl ?_)
    exact spares_flatMap fun _ _ => Message.absent_spares rfl
  | loaded detail after _ hafter hview hout =>
    refine hkept (congrArg RoomView.users hview) ?_
    rw [hout k]
    exact List.forall_mem_append.mpr ⟨spares_replicate (Message.absent_spares rfl) _,
      spares_flatMap fun m hm => Message.absent_spares (Message.absent_of_quiet (hafter m hm))⟩
  | testCaseAdded testCase hview hout =>
    refine hkept (congrArg RoomView.users hview) ?_
    rw [hout k]
    exact spares_replicate (Message.absent_spares rfl) _
  | joined socket user announced users fresh hanswers =>
    obtain ⟨hne, hout⟩ := hanswers.unheard hnot
    have hheard : heard clock v k g.out = v := by
      unfold heard
      rw [hout]
      rfl
    have hpending : ∀ user ∈ announced, Awaited k c' user.id := by
      rintro user rfl
      refine ⟨socket, c.shared.room.problemId, user, hne, ?_, rfl⟩
      rw [hby.after, hanswers.next]
      exact List.mem_append_right _ (List.mem_singleton_self _)
    have husers : g.state.room.users = users := congrArg RoomView.users hanswers.view
    rw [hheard, husers]
    exact hanswers.joins.presence hpending hv'
  | hydrated socket p announced hends => exact absurd hends.taken (hother socket p announced)
  | closed socket before _ _ hbefore hview hout =>
    have husers : g.state.room.users = c.shared.leave socket := congrArg RoomView.users hview
    have hin : k ∈ c.shared.joined.filter (· ≠ socket) := by
      have hjoined' : g.state.joined = c.shared.joined.filter (· ≠ socket) :=
        congrArg RoomView.joined hview
      exact hjoined' ▸ hjoined
    have hout' := hout k
    rw [count_of_mem_filter hcount hin] at hout'
    cases hdrops : c.shared.dropsRequest socket with
    | true =>
      refine hsynced ?_
      unfold heard
      rw [hout', hdrops, if_pos rfl, Shown.receiveAll_append]
      rfl
    | false =>
      rw [hdrops, if_neg Bool.false_ne_true, List.append_nil] at hout'
      rw [husers]
      exact presence_closed (hbefore k) hout' clock hv'
  | removed userId rotated hexpelled _ _ => rw [hexpels] at hexpelled; cases hexpelled

/-! ## Runs -/

section
variable {mode : RoomMode} {now : Time} {acts : List ServerAct}

theorem people_run (hreach : Reaches cfg mode now acts c out) : People c :=
  Machine.run_preserves_always (I := fun (c : ServerConf) (_ : List Effect) => People c)
    (fun _ _ _ _ _ _ _ hpeople hby => people_step hpeople hby) (initial_people mode now) hreach

/-- The copy shows the users up to those who are awaited. -/
theorem presence_shows (clock : ℕ → Time) (v : Shown) (hreach : Reaches cfg mode now acts c out)
    (hmeets : Meeting cfg (fun c t => SparesPresence k c t) mode now acts)
    (hjoined : k ∈ c.shared.joined) :
    Shows (Awaited k c) (heard clock v k out).users c.shared.room.users := by
  refine mirror_run (A := fun v c => Shows (Awaited k c) v.users c.shared.room.users)
    (I := fun c _ => People c) (P := SparesPresence k) (initial_people mode now)
    (fun _ _ _ _ _ _ _ hpeople _ hby => people_step hpeople hby) ?_ ?_ clock v hmeets hreach hjoined
  · intro c c' past out t g rest user announced users fresh hpeople _ hby _
    have hdistinct := (people_step hpeople hby).roster.distinct
    rw [hby.shared] at hdistinct ⊢
    exact .sync hdistinct
  · intro c c' past out t g rest v clock hpeople hcount hjoined hlive hA hP hby hnot
    have hbefore : k ∈ c.shared.joined := List.count_pos_iff.mp (by omega)
    obtain ⟨hexpels, hpresents⟩ := hP hbefore
    by_cases htaken : ∃ j p announced, t.taken = [.hydrating j p announced]
    · obtain ⟨j, p, announced, htaken⟩ := htaken
      cases t with
      | event e => cases htaken
      | task task o =>
        obtain rfl : task = .hydrating j p announced := List.singleton_inj.mp htaken
        refine (afterHydration_ends hby.fire).presence hpeople hcount hby ?_ clock hA
        rintro user rfl hne
        exact hpresents (j, user) rfl hne
    · exact (fire_announces hby.fire).presence hcount hjoined hby (people_step hpeople hby) hnot
        hexpels (fun j p announced heq => htaken ⟨j, p, announced, heq⟩) clock hA

end

/-- **Presence mirror.** A client shows the users of the room and no others whenever no join is under
way, in every run in which no seat is given up while the client is there, and every user who is
presented to it is in the room and connected at that time. -/
theorem presence_mirrors {cfg : Config} {mode : RoomMode} {now : Time} {acts : List ServerAct}
    {c : ServerConf} {out : List Effect} {k : SocketId} (clock : ℕ → Time) (state : ClientRoomState)
    (hreach : Reaches cfg mode now acts c out)
    (hmeets : Meeting cfg (fun c t => SparesPresence k c t) mode now acts)
    (hjoined : k ∈ c.shared.joined) : MirrorsPresence clock state k c out := by
  have hpeople := people_run hreach
  have hshows := presence_shows clock state.shown hreach hmeets hjoined
  have hheard : (heard clock state.shown k out).users =
      (clientState clock state (messagesTo k out)).users :=
    congrArg Shown.users (shown_clientState clock state (messagesTo k out)).symm
  rw [hheard] at hshows
  have hnone : (∀ task ∈ c.pool, task.family ≠ .join) → ∀ id, ¬ Awaited k c id := by
    rintro hidle id ⟨j, p, user, -, hm, -⟩
    exact hidle _ hm rfl
  exact ⟨fun hidle => hshows.mem_iff hpeople.roster.distinct (hnone hidle), fun hidle =>
    (hshows.length_le hpeople.roster.distinct (hnone hidle)).trans hpeople.roster.full⟩

/-- Another user comes and goes. -/
def exampleVisit : List ServerAct :=
  exampleJoin 0 .go ++ exampleJoin 1 .go ++ [.event (.disconnect 1)]

theorem presence_mirrors_example : ∃ c out,
    Reaches plainConfig .collaboration 0 exampleVisit c out ∧ 0 ∈ c.shared.joined ∧
    c.shared.room.users.map (·.connected) = [true, false] ∧
    MirrorsPresence id initialRoomState 0 c out := by
  obtain ⟨c, out, hreach, hjoined, husers⟩ : ∃ c out,
      Reaches plainConfig .collaboration 0 exampleVisit c out ∧ 0 ∈ c.shared.joined ∧
      c.shared.room.users.map (·.connected) = [true, false] :=
    ⟨_, _, rfl, by decide, rfl⟩
  have hmeets : Meeting plainConfig (fun c t => SparesPresence 0 c t) .collaboration 0
      exampleVisit := by
    unfold Meeting
    decide
  exact ⟨c, out, hreach, hjoined, husers,
    presence_mirrors id initialRoomState hreach hmeets hjoined⟩

/-- The grace period of that user passes. -/
def exampleAbsence : List ServerAct :=
  exampleVisit ++ [.event (.tick (5 * 60 * 1000)), .event (.timeout 0)]

/-- The seat is given up, and the client still shows the user. -/
theorem removed_user_shown : ¬ ∀ (acts : List ServerAct) (c : ServerConf) (out : List Effect)
    (k : SocketId), Reaches plainConfig .collaboration 0 acts c out → k ∈ c.shared.joined →
    MirrorsPresence id initialRoomState k c out := by
  intro hclaim
  obtain ⟨c, out, hreach, hjoined, hidle, hroom, hclient⟩ : ∃ c out,
      Reaches plainConfig .collaboration 0 exampleAbsence c out ∧ 0 ∈ c.shared.joined ∧ c.pool = [] ∧
      (c.shared.room.users.map fun u => u.toRoomUser) = [⟨1, js "guest", .peer, true⟩] ∧
      (clientState id initialRoomState (messagesTo 0 out)).users =
        [⟨1, js "guest", .peer, true⟩, ⟨3, js "guest", .peer, false⟩] :=
    ⟨_, _, rfl, by decide, rfl, rfl, rfl⟩
  have h := (hclaim _ c out 0 hreach hjoined).users (fun task hm => by rw [hidle] at hm; cases hm)
    ⟨3, js "guest", .peer, false⟩
  rw [hroom, hclient] at h
  have hsame := congrArg RoomUser.id (List.mem_singleton.mp
    (h.mp (List.mem_cons_of_mem _ (List.mem_singleton_self _))))
  cases hsame

end CodeShare
