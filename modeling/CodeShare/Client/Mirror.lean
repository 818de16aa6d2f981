import CodeShare.Foundations.Ledger
import CodeShare.Server.AnnouncementSteps

/-! # Clients as mirrors

Each join makes a client's copy that of the room. `mirror_run` turns what one segment does to a
client's copy and to the room into what holds along every run, for as long as the client stays.
-/

namespace CodeShare
open Tasks
set_option autoImplicit false

/-! ## Who is there -/

structure Attendance (s : Server) : Prop where
  distinct : s.joined.Nodup
  live : ∀ k ∈ s.joined, k ∈ s.live

variable {cfg : Config} {s : Server} {t : ServerTrigger} {g : Step} {k socket : SocketId}

theorem Attendance.of_view (h : Attendance s) (hview : (g.state.live, g.state.joined) = (s.live, s.joined)) :
    Attendance g.state := by
  obtain ⟨hlive, hjoined⟩ := Prod.mk.inj hview
  refine ⟨hjoined ▸ h.distinct, fun k hk => ?_⟩
  rw [hlive]
  exact h.live k (hjoined ▸ hk)

/-- Only an answered join brings a socket into the room. -/
theorem AnswersJoin.attendance {user : RoomUserInternal} {announced : Option RoomUser}
    {users : List RoomUserInternal} {fresh : ℕ} (h : Attendance s)
    (hanswers : AnswersJoin s t g socket user announced users fresh) : Attendance g.state := by
  have hlive : g.state.live = s.live := congrArg RoomView.live hanswers.view
  have hjoined : g.state.joined =
      if socket ∈ s.live ∧ socket ∉ s.joined then s.joined ++ [socket] else s.joined :=
    congrArg RoomView.joined hanswers.view
  split_ifs at hjoined with hin
  · refine ⟨?_, fun k hk => ?_⟩
    · rw [hjoined]
      exact nodup_concat h.distinct hin.2
    · rw [hlive]
      rw [hjoined] at hk
      exact forall_mem_concat h.live hin.1 k hk
  · exact h.of_view (Prod.ext hlive hjoined)

theorem Announces.attendance (h : Attendance s) (hannounces : Announces cfg s t g) :
    Attendance g.state := by
  have hkeeps : ∀ {v : RoomView}, g.state.roomView = v → (v.live, v.joined) = (s.live, s.joined) →
      Attendance g.state := by
    rintro v rfl hsame
    exact h.of_view hsame
  cases hannounces with
  | quiet hview => exact hkeeps hview rfl
  | connected hview =>
    have hlive : g.state.live = s.live ++ [s.nextSocket] := congrArg RoomView.live hview
    have hjoined : g.state.joined = s.joined := congrArg RoomView.joined hview
    refine ⟨hjoined ▸ h.distinct, fun k hk => ?_⟩
    rw [hlive]
    exact List.mem_append_left _ (h.live k (hjoined ▸ hk))
  | replies _ hview =>
    obtain ⟨_, _, hview⟩ := hview
    exact hkeeps hview rfl
  | hintRefused _ _ _ hview => exact hkeeps hview rfl
  | hintDelivered _ _ _ _ hview => exact hkeeps hview rfl
  | hintAsked _ _ _ hview => exact hkeeps hview rfl
  | hintAnswered _ _ hview => exact hkeeps hview rfl
  | loaded _ _ _ _ hview => exact hkeeps hview rfl
  | testCaseAdded _ hview => exact hkeeps hview rfl
  | joined _ _ _ _ _ hanswers => exact hanswers.attendance h
  | hydrated _ _ _ hends => exact hkeeps hends.view rfl
  | closed socket _ _ _ _ hview =>
    have hlive : g.state.live = s.live.filter (· ≠ socket) := congrArg RoomView.live hview
    have hjoined : g.state.joined = s.joined.filter (· ≠ socket) := congrArg RoomView.joined hview
    refine ⟨?_, fun k hk => ?_⟩
    · rw [hjoined]
      exact h.distinct.filter _
    · rw [hjoined] at hk
      rw [hlive]
      obtain ⟨hk, hne⟩ := List.mem_filter.mp hk
      exact List.mem_filter.mpr ⟨h.live k hk, hne⟩
  | removed _ _ _ hview => exact hkeeps hview rfl

theorem attendance_initial (mode : RoomMode) (now : Time) : Attendance (initialServer cfg mode now) :=
  ⟨List.nodup_nil, List.forall_mem_nil _⟩

theorem Attendance.step {c c' : ServerConf} {out : List Effect} {rest : List Task} (h : Attendance c.shared)
    (hby : (server cfg).StepBy c c' out t g rest) : Attendance c'.shared := by
  rw [hby.shared]
  exact (fire_announces hby.fire).attendance h

/-- A socket that is in the room afterwards was there before, or its join is answered. -/
theorem Announces.joined_before (hannounces : Announces cfg s t g) (hk : k ∈ g.state.joined) :
    k ∈ s.joined ∨ ∃ user announced users fresh, AnswersJoin s t g k user announced users fresh := by
  have hkeeps : ∀ {v : RoomView}, g.state.roomView = v → v.joined = s.joined → k ∈ s.joined := by
    rintro v rfl hsame
    exact hsame ▸ hk
  cases hannounces with
  | quiet hview => exact .inl (hkeeps hview rfl)
  | connected hview => exact .inl (hkeeps hview rfl)
  | replies _ hview =>
    obtain ⟨_, _, hview⟩ := hview
    exact .inl (hkeeps hview rfl)
  | hintRefused _ _ _ hview => exact .inl (hkeeps hview rfl)
  | hintDelivered _ _ _ _ hview => exact .inl (hkeeps hview rfl)
  | hintAsked _ _ _ hview => exact .inl (hkeeps hview rfl)
  | hintAnswered _ _ hview => exact .inl (hkeeps hview rfl)
  | loaded _ _ _ _ hview => exact .inl (hkeeps hview rfl)
  | testCaseAdded _ hview => exact .inl (hkeeps hview rfl)
  | joined socket user announced users fresh hanswers =>
    have hjoined : g.state.joined =
        if socket ∈ s.live ∧ socket ∉ s.joined then s.joined ++ [socket] else s.joined :=
      congrArg RoomView.joined hanswers.view
    rw [hjoined] at hk
    split_ifs at hk
    · rcases List.mem_append.mp hk with hk | hk
      · exact .inl hk
      · obtain rfl := List.mem_singleton.mp hk
        exact .inr ⟨user, announced, users, fresh, hanswers⟩
    · exact .inl hk
  | hydrated _ _ _ hends => exact .inl (hkeeps hends.view rfl)
  | closed socket _ _ _ _ hview =>
    have hjoined : g.state.joined = s.joined.filter (· ≠ socket) := congrArg RoomView.joined hview
    rw [hjoined] at hk
    exact .inl (List.mem_filter.mp hk).1
  | removed _ _ _ hview => exact .inl (hkeeps hview rfl)

theorem attendance_run {mode : RoomMode} {now : Time} {acts : List ServerAct} {c : ServerConf}
    {out : List Effect} (hreach : Reaches cfg mode now acts c out) : Attendance c.shared := by
  apply Machine.run_preserves_always (I := fun (c : ServerConf) (_ : List Effect) => Attendance c.shared)
    (fun _ _ _ _ _ _ _ h hby => h.step hby) (attendance_initial mode now) hreach

/-! ## New hydrations -/

theorem takeSeat_hydrating {payload : UserJoinPayload} {j : SocketId} {p : Option ProblemId}
    {announced : Option RoomUser}
    (hm : .hydrating j p announced ∈ (takeSeat s socket payload).next) :
    ∃ user users fresh, AnswersJoin s (.task (.joinLimiter socket payload) .allowed)
      (takeSeat s socket payload) j user announced users fresh := by
  cases hseats : s.room.seats payload with
  | true =>
    obtain ⟨user, announced', users, fresh, hanswers⟩ := takeSeat_answers socket hseats
    rw [hanswers.next, List.mem_singleton, Task.hydrating.injEq] at hm
    obtain ⟨rfl, -, rfl⟩ := hm
    exact ⟨user, users, fresh, hanswers⟩
  | false =>
    obtain ⟨hnew, hfull⟩ : reconnectingUser s.room payload.reconnectToken = none ∧
        s.room.isFull = true := by
      simpa [Room.seats] using hseats
    have hnext : (takeSeat s socket payload).next = [] := by
      unfold takeSeat
      rw [hnew]
      dsimp only
      rw [if_pos hfull]
      exact (disconnectSocket_continues _ socket).next
    rw [hnext] at hm
    cases hm

/-- A new hydration comes from an answered join of its socket. -/
theorem fire_hydrating {j : SocketId} {p : Option ProblemId} {announced : Option RoomUser}
    (h : (server cfg).fire s t = some g) (hm : .hydrating j p announced ∈ g.next) :
    ∃ user users fresh, AnswersJoin s t g j user announced users fresh := by
  have hfamily : Family.join = triggerFamily t := (fire_within h).next _ hm
  cases t with
  | event e => cases hfamily
  | task task o =>
    change resumeTask cfg s task o = some g at h
    cases task with
    | admitted socket event seen =>
      cases o <;> cases h
      unfold runHandler at hm ⊢
      split at hm
      · cases hm
      · rename_i hlive
        rw [if_neg hlive]
        cases event with
        | userJoin data =>
          dsimp only at hm ⊢
          rcases handleUserJoin_next s socket data with
            ⟨-, -, hnone⟩ | ⟨user, hregistered, hdata, huser, heq⟩
          · exact absurd hm (hnone j p announced)
          · rw [heq] at hm ⊢
            have hanswers := handleUserJoin_answers seen (not_not.mp hlive) hregistered hdata
              huser
            rw [hanswers.next, List.mem_singleton, Task.hydrating.injEq] at hm
            obtain ⟨rfl, -, rfl⟩ := hm
            exact ⟨user, s.room.users, s.fresh, hanswers⟩
        | _ => cases hfamily
    | joinLimiter socket payload =>
      change afterJoinLimiter s socket payload o = some g at h
      unfold afterJoinLimiter at h
      split at h <;> cases h
      · exact takeSeat_hydrating hm
      · simp [emitJoinRejected] at hm
      · simp at hm
    | hydrating socket p' announced' =>
      rw [afterHydration_next h] at hm
      cases hm
    | _ => cases hfamily

/-- A segment that answers a join does so. -/
theorem fire_answers (h : (server cfg).fire s t = some g) (hanswering : answering s t = some k) :
    ∃ user announced users fresh, AnswersJoin s t g k user announced users fresh := by
  unfold answering at hanswering
  split at hanswering
  · rename_i socket payload seen
    split_ifs at hanswering with hready
    cases hanswering
    obtain ⟨hlive, hregistered, huser⟩ := hready
    obtain ⟨user, huser⟩ := Option.isSome_iff_exists.mp huser
    have hg : handleUserJoin s k (some payload) = g := by
      change some (runHandler cfg s k seen (.userJoin (some payload))) = some g at h
      rw [← Option.some.inj h, runHandler, if_neg (not_not.mpr hlive)]
    have heq : handleUserJoin s k (some payload) = emitJoinedPayload (.of s) k user none := by
      unfold handleUserJoin Server.getRoom
      rw [if_pos hregistered]
      dsimp only
      rw [huser]
    rw [← hg, heq]
    exact ⟨user, none, _, _, handleUserJoin_answers seen hlive hregistered rfl huser⟩
  · rename_i socket payload
    split_ifs at hanswering with hseats
    cases hanswering
    cases h
    exact takeSeat_answers k hseats
  · cases hanswering

/-! ## What a client has heard -/

/-- A client's copy after all messages it was sent. -/
def heard (clock : ℕ → Time) (v : Shown) (k : SocketId) (out : List Effect) : Shown :=
  v.receiveAll clock (messagesTo k out)

theorem heard_append (clock : ℕ → Time) (v : Shown) (out out' : List Effect) :
    ∃ clock', heard clock v k (out ++ out') = heard clock' (heard clock v k out) k out' := by
  unfold heard
  rw [messagesTo_append, Shown.receiveAll_append]
  exact ⟨_, rfl⟩

/-- After its own join a client shows the room as it is. -/
theorem heard_join {user : RoomUserInternal} {announced : Option RoomUser}
    {users : List RoomUserInternal} {fresh : ℕ}
    (hanswers : AnswersJoin s t g k user announced users fresh) (hlive : k ∈ s.live)
    (clock : ℕ → Time) (v : Shown) : heard clock v k g.out = g.state.room.shown := by
  have hreaches : reaches s.live k k = 1 := if_pos ⟨rfl, hlive⟩
  unfold heard
  rw [hanswers.out k, hreaches, joinMessages, List.flatMap_cons, List.flatMap_singleton]
  rfl

/-- Messages to others do not reach the client. -/
theorem reaches_ne (h : socket ≠ k) (live : List SocketId) : reaches live socket k = 0 :=
  if_neg fun hboth => h hboth.1

/-- A client that does not join anew hears nothing of a join. -/
theorem AnswersJoin.unheard {user : RoomUserInternal} {announced : Option RoomUser}
    {users : List RoomUserInternal} {fresh : ℕ}
    (h : AnswersJoin s t g socket user announced users fresh)
    (hnot : ∀ user announced users fresh, ¬ AnswersJoin s t g k user announced users fresh) :
    socket ≠ k ∧ messagesTo k g.out = [] := by
  have hne : socket ≠ k := by
    rintro rfl
    exact hnot user announced users fresh h
  refine ⟨hne, ?_⟩
  rw [h.out k, reaches_ne hne]
  rfl

/-- A socket that stays in the room is there as often as before. -/
theorem count_of_mem_filter {joined : List SocketId} (hcount : joined.count k = 1)
    (hk : k ∈ joined.filter (· ≠ socket)) : (joined.filter (· ≠ socket)).count k = 1 := by
  rw [List.count_filter (p := (· ≠ socket)) (List.mem_filter.mp hk).2, hcount]

/-! ## One field of the copy -/

/-- The message leaves a part of the copy alone. -/
def Message.Spares {α : Type} (f : Shown → α) (m : Message) : Prop :=
  ∀ now v, f (v.receive now m) = f v

section
variable {α : Type} {f : Shown → α} {m : Message} {received : List Message} {v : Shown}

theorem spares_replicate (h : m.Spares f) (n : ℕ) : ∀ m' ∈ List.replicate n m, m'.Spares f := by
  intro m' hm'
  rwa [List.eq_of_mem_replicate hm']

/-- A message that some sockets receive. -/
theorem spares_flatMap {β : Type} {items : List β} {send : β → Message} {n : β → ℕ}
    (h : ∀ b ∈ items, (send b).Spares f) :
    ∀ m ∈ items.flatMap fun b => List.replicate (n b) (send b), m.Spares f := by
  intro m hm
  obtain ⟨b, hb, hm⟩ := List.mem_flatMap.mp hm
  exact spares_replicate (h b hb) _ m hm

/-- The end of a hydration that delivers nothing to the client. -/
theorem EndsHydration.spares {p : Option ProblemId} {announced : Option RoomUser}
    (h : EndsHydration cfg s t g socket p announced) (hdetail : ∀ detail, rehydrates t ≠ some (k, detail))
    (hpresents : ∀ user ∈ announced,
      (Message.userJoined user.id user.displayName user.role s.room.mode none none).Spares f) :
    ∀ m ∈ messagesTo k g.out, m.Spares f := by
  rw [h.out k]
  refine List.forall_mem_append.mpr ⟨fun m hm => ?_, spares_flatMap fun user huser =>
    hpresents user (Option.mem_toList.mp huser)⟩
  obtain ⟨⟨j, detail⟩, hdelivered, hm⟩ := List.mem_flatMap.mp hm
  have hj : j ≠ k := by
    rintro rfl
    exact hdetail detail (Option.mem_toList.mp hdelivered)
  rw [reaches_ne hj] at hm
  cases hm

theorem Shown.receiveAll_spares (clock : ℕ → Time) (h : ∀ m ∈ received, m.Spares f) :
    f (v.receiveAll clock received) = f v :=
  receiveAll_induction (p := fun w => f w = f v) rfl fun m hm now w hw => (h m hm now w).trans hw

/-- Neither the copy nor the room changes there. -/
theorem heard_kept (clock : ℕ → Time) (hv : f v = f s.room.shown)
    (hroom : f g.state.room.shown = f s.room.shown) (hout : ∀ m ∈ messagesTo k g.out, m.Spares f) :
    f (heard clock v k g.out) = f g.state.room.shown :=
  ((Shown.receiveAll_spares clock hout).trans hv).trans hroom.symm

/-- One message to the room, and others behind it that leave what it told. -/
theorem heard_behind (clock : ℕ → Time) (hcount : s.joined.count k = 1)
    (hout : messagesTo k g.out = List.replicate (s.joined.count k) m ++ received)
    (hm : f (v.receive (clock 0) m) = f g.state.room.shown)
    (hreceived : ∀ m ∈ received, ∀ now w, f w = f g.state.room.shown → f (w.receive now m) = f g.state.room.shown) :
    f (heard clock v k g.out) = f g.state.room.shown := by
  unfold heard
  rw [hout, hcount, List.replicate_one, List.singleton_append, Shown.receiveAll_cons]
  exact Shown.receiveAll_induction (p := fun w => f w = f g.state.room.shown) hm hreceived

theorem heard_first (clock : ℕ → Time) (hcount : s.joined.count k = 1)
    (hout : messagesTo k g.out = List.replicate (s.joined.count k) m ++ received)
    (hm : f (v.receive (clock 0) m) = f g.state.room.shown)
    (hreceived : ∀ m ∈ received, m.Spares f) : f (heard clock v k g.out) = f g.state.room.shown :=
  heard_behind clock hcount hout hm fun m hm now w hw => (hreceived m hm now w).trans hw

/-- A socket is closed: the others hear of its user, and of the room when that ends a request. -/
theorem heard_closed {before : List Message} (clock : ℕ → Time) (hcount : s.joined.count k = 1)
    (hjoined : k ∈ s.joined.filter (· ≠ socket)) (hv : f v = f s.room.shown)
    (hroom : s.dropsRequest socket = false → f g.state.room.shown = f s.room.shown)
    (hbefore : ∀ m ∈ before, m.Spares f) (hleft : ∀ userId, (Message.userLeft userId).Spares f)
    (hout : messagesTo k g.out = before ++
      ((s.leaver socket).toList.flatMap fun user =>
        List.replicate ((s.joined.filter (· ≠ socket)).count k) (.userLeft user.id)) ++
      if s.dropsRequest socket then
        List.replicate ((s.joined.filter (· ≠ socket)).count k) (.roomSync g.state.room.toSyncPayload)
      else []) :
    f (heard clock v k g.out) = f g.state.room.shown := by
  have hfirst : ∀ m ∈ before ++ ((s.leaver socket).toList.flatMap fun user =>
      List.replicate ((s.joined.filter (· ≠ socket)).count k) (.userLeft user.id)), m.Spares f :=
    List.forall_mem_append.mpr ⟨hbefore, spares_flatMap fun user _ => hleft user.id⟩
  unfold heard
  rw [hout, Shown.receiveAll_append]
  cases hdrops : s.dropsRequest socket with
  | true =>
    rw [if_pos rfl, count_of_mem_filter hcount hjoined]
    rfl
  | false =>
    rw [if_neg Bool.false_ne_true, Shown.receiveAll_nil, Shown.receiveAll_spares clock hfirst, hv,
      hroom hdrops]

end

/-! ## The run rule -/

section
variable {A : Shown → ServerConf → Prop} {I : ServerConf → List Effect → Prop}
  {P : ServerConf → ServerTrigger → Prop}

/-- **The mirror rule.** A relation between the copy of a client and the configuration holds from the
client's first answered join on, when every answered join of the client establishes it with a copy of
the room, and every other segment meeting the condition keeps it. `I` is an invariant of such runs. -/
theorem mirror_run_from
    (hkeeps : ∀ c c' past out t g rest, I c past → P c t → (server cfg).StepBy c c' out t g rest →
      I c' (past ++ out))
    (hjoin : ∀ c c' past out t g rest user announced users fresh, I c past → P c t →
      (server cfg).StepBy c c' out t g rest →
      AnswersJoin c.shared t g k user announced users fresh → A g.state.room.shown c')
    (hstep : ∀ c c' past out t g rest v clock, I c past → c.shared.joined.count k = 1 →
      k ∈ g.state.joined → k ∈ c.shared.live → A v c → P c t → (server cfg).StepBy c c' out t g rest →
      (∀ user announced users fresh, ¬ AnswersJoin c.shared t g k user announced users fresh) →
      A (heard clock v k g.out) c')
    {acts : List ServerAct} {c c' : ServerConf} {past out : List Effect} (clock : ℕ → Time) (v : Shown)
    (hI : I c past) (hattendance : Attendance c.shared)
    (hA : k ∈ c.shared.joined → A (heard clock v k past) c)
    (hmeets : (server cfg).Meets P c acts) (hrun : (server cfg).run c acts = some (c', out))
    (hjoined : k ∈ c'.shared.joined) : A (heard clock v k (past ++ out)) c' := by
  refine (Machine.run_preserves_from (I := fun (c : ServerConf) out => I c out ∧ Attendance c.shared ∧
    (k ∈ c.shared.joined → A (heard clock v k out) c)) ?_ ⟨hI, hattendance, hA⟩ hmeets
      hrun).2.2 hjoined
  rintro c c' past out t g rest ⟨hI, hattendance, hA⟩ hP hby
  have hannounces := fire_announces hby.fire
  have hattendance' : Attendance c'.shared := hattendance.step hby
  refine ⟨hkeeps c c' past out t g rest hI hP hby, hattendance', fun hk => ?_⟩
  have hk' : k ∈ g.state.joined := hby.shared ▸ hk
  obtain ⟨clock', hheard⟩ := heard_append (k := k) clock v past out
  rw [hheard, hby.out]
  by_cases hanswers : ∃ user announced users fresh,
      AnswersJoin c.shared t g k user announced users fresh
  · obtain ⟨user, announced, users, fresh, hanswers⟩ := hanswers
    have hlive : k ∈ c.shared.live := by
      have hsame : g.state.live = c.shared.live := congrArg RoomView.live hanswers.view
      rw [← hsame, ← hby.shared]
      exact hattendance'.live k hk
    rw [heard_join hanswers hlive]
    exact hjoin c c' past out t g rest user announced users fresh hI hP hby hanswers
  · have hbefore : k ∈ c.shared.joined := (hannounces.joined_before hk').resolve_right hanswers
    refine hstep c c' past out t g rest _ clock' hI ?_ hk' (hattendance.live k hbefore) (hA hbefore)
      hP hby ?_
    · exact List.count_eq_one_of_mem hattendance.distinct hbefore
    · exact fun user announced users fresh h => hanswers ⟨user, announced, users, fresh, h⟩

/-- The mirror rule for the runs of a room from its creation. -/
theorem mirror_run {mode : RoomMode} {now : Time} (hI : I (initial cfg mode now) [])
    (hkeeps : ∀ c c' past out t g rest, I c past → P c t → (server cfg).StepBy c c' out t g rest →
      I c' (past ++ out))
    (hjoin : ∀ c c' past out t g rest user announced users fresh, I c past → P c t →
      (server cfg).StepBy c c' out t g rest →
      AnswersJoin c.shared t g k user announced users fresh → A g.state.room.shown c')
    (hstep : ∀ c c' past out t g rest v clock, I c past → c.shared.joined.count k = 1 →
      k ∈ g.state.joined → k ∈ c.shared.live → A v c → P c t → (server cfg).StepBy c c' out t g rest →
      (∀ user announced users fresh, ¬ AnswersJoin c.shared t g k user announced users fresh) →
      A (heard clock v k g.out) c')
    {acts : List ServerAct} {c : ServerConf} {out : List Effect} (clock : ℕ → Time) (v : Shown)
    (hmeets : Meeting cfg P mode now acts) (hreach : Reaches cfg mode now acts c out)
    (hjoined : k ∈ c.shared.joined) : A (heard clock v k out) c :=
  mirror_run_from hkeeps hjoin hstep clock v hI (attendance_initial mode now)
    (fun hk => absurd hk List.not_mem_nil) hmeets hreach hjoined

end

end CodeShare
