import CodeShare.Client.Session
import CodeShare.Properties.HintBracket
import CodeShare.Properties.ReconnectTokens
import CodeShare.Properties.Seats

/-! # One seat for each connection of a tab

The server gives a seat to every join that it receives from a socket without one, also to a second join that was
under way with the first. A tab joins at most once over each of its connections, however often its handlers are
bound, so that no socket of a tab is issued a second token or bound to a second user.
-/

namespace CodeShare
open Tasks
set_option autoImplicit false

/-! ## Counting joins -/

def Task.joinsOver (k : SocketId) (task : Task) : Bool := task.join.any fun join => join.1 = k

/-- The event is a join over a socket that passes its schema. -/
def receivesJoin (k : SocketId) : ServerTrigger → Bool
  | .event (.receive socket (.userJoin (some _))) => socket = k
  | _ => false

section
variable {cfg : Config} {s : Server} {t : ServerTrigger} {g : Step} {k : SocketId}

/-- Nothing is issued while a join goes on. -/
theorem issue_of_join {task : Task} (h : (server cfg).fire s t = some g) (hm : task ∈ g.next)
    (hjoin : task.join.isSome = true) : issue s t = none := by
  refine issue_eq_none ?_
  cases hseating : seating t with
  | none => rfl
  | some join =>
    obtain ⟨socket, payload⟩ := join
    rw [seating_eq hseating] at h
    obtain rfl : takeSeat s socket payload = g := Option.some.inj h
    obtain ⟨p, announced, rfl⟩ := takeSeat_next hm
    cases hjoin

theorem handleUserJoin_next_length (s : Server) (socket : SocketId) (data : Option UserJoinPayload) :
    (handleUserJoin s socket data).next.length ≤ 1 := by
  unfold handleUserJoin
  split
  · simp [emitJoinRejected]
  · split
    · simp [emitJoinRejected]
    · split
      · rw [emitJoinedPayload_next]
        simp
      · simp

/-- A segment behind a join leaves at most one task. -/
theorem join_next_length {task : Task} (h : (server cfg).fire s t = some g) (hm : task ∈ g.next)
    (hjoin : task.join.isSome = true) : g.next.length ≤ 1 := by
  obtain ⟨⟨socket, payload⟩, hjoin⟩ := Option.isSome_iff_exists.mp hjoin
  rcases fire_joins h hm hjoin with rfl | ⟨first, hfirst, hjoin'⟩
  · have hevent : handleEvent cfg s (.receive socket (.userJoin (some payload))) = some g := h
    rcases handleEvent_next hevent with hnext | ⟨socket', event, -, rfl⟩
    · simp [hnext]
    · rcases authMiddleware_next s socket' event with hn | ⟨_, -, hn⟩ | ⟨_, -, -, -, hn⟩ <;> simp [hn]
  · cases t with
    | event e => cases hfirst
    | task first' o =>
      obtain rfl := List.mem_singleton.mp hfirst
      change resumeTask cfg s first o = some g at h
      cases first with
      | admitted socket' event seen =>
        cases o <;> cases h
        unfold runHandler at hm ⊢
        split at hm
        · cases hm
        · rename_i hlive
          rw [if_neg hlive]
          cases event with
          | userJoin data => exact handleUserJoin_next_length s socket' data
          | _ => cases hjoin'
      | joinLimiter socket' payload' =>
        change afterJoinLimiter s socket' payload' o = some g at h
        unfold afterJoinLimiter at h
        split at h <;> cases h
        · obtain ⟨p, announced, rfl⟩ := takeSeat_next hm
          cases hjoin
        · cases hm
        · cases hm
      | _ => cases hjoin'

/-- A join that is received goes on as one task, and ends with at most one token. -/
theorem fire_counts (k : SocketId) (h : (server cfg).fire s t = some g) :
    g.next.countP (Task.joinsOver k) + (issue s t).toList.countP (fun i => i.socket = k) ≤
      t.taken.countP (Task.joinsOver k) + (receivesJoin k t).toNat := by
  by_cases hgoes : g.next.countP (Task.joinsOver k) = 0
  · -- nothing goes on: a token is issued to the join that was taken
    rw [hgoes, Nat.zero_add]
    refine le_trans ?_ (Nat.le_add_right _ _)
    cases hissue : issue s t with
    | none => simp
    | some i =>
      have hseating : seating t ≠ none := fun hnone => by
        rw [issue_eq_none hnone] at hissue
        cases hissue
      obtain ⟨⟨socket, payload⟩, hseating⟩ := Option.ne_none_iff_exists'.mp hseating
      obtain rfl := seating_eq hseating
      have hsocket : i.socket = socket := by
        unfold issue at hissue
        dsimp only at hissue
        split at hissue
        · cases hissue
          rfl
        · split_ifs at hissue
          cases hissue
          rfl
      simp [Trigger.taken, Task.joinsOver, Task.join, hsocket, List.countP_cons]
  · obtain ⟨task, hm, hover⟩ := List.countP_pos_iff.mp (Nat.pos_of_ne_zero hgoes)
    obtain ⟨⟨socket, payload⟩, hjoin, hk⟩ : ∃ join, task.join = some join ∧ join.1 = k := by
      simpa [Task.joinsOver, Option.any_eq_true] using hover
    obtain rfl : socket = k := hk
    have hissome : task.join.isSome = true := by rw [hjoin]; rfl
    have hone : g.next.countP (Task.joinsOver socket) ≤ 1 :=
      List.countP_le_length.trans (join_next_length h hm hissome)
    rw [issue_of_join h hm hissome]
    refine le_trans (by simpa using hone) ?_
    rcases fire_joins h hm hjoin with rfl | ⟨first, hfirst, hjoin'⟩
    · simp [receivesJoin]
    · have hpos : 0 < t.taken.countP (Task.joinsOver socket) :=
        List.countP_pos_iff.mpr ⟨first, hfirst, by simp [Task.joinsOver, hjoin']⟩
      omega

end

/-! ## What a tab keeps -/

/-- Joins over a socket that are under way, and those that have got a token. -/
def joinsCounted (past : List SessionTurn) (c : SessionConf) (k : SocketId) : ℕ :=
  c.shared.uplink.countP (fun join => join.1 = k) + c.pool.countP (Task.joinsOver k) +
    (issues (serverPast past)).countP fun i => i.socket = k

/-- The sockets over which the tab has joined. -/
def Session.joinedOver (s : Session) : List SocketId := s.emitted.map Prod.fst

structure TabJoins (past : List SessionTurn) (c : SessionConf) : Prop where
  live : ∀ k ∈ c.shared.room.live, k < c.shared.room.nextSocket
  opened : ∀ k ∈ c.shared.opened, k < c.shared.room.nextSocket
  connected : ∀ k, c.shared.tab.socketId = some k → k ∈ c.shared.opened
  pending : ∀ k, c.shared.pending = some k →
    k ∈ c.shared.opened ∧ k ∉ c.shared.joinedOver ∧ c.shared.tab.socketId ≠ some k
  known : ∀ k ∈ c.shared.joinedOver, k ∈ c.shared.opened
  once : c.shared.joinedOver.Nodup
  /-- the marker remembers the join over the connection that is there -/
  marked : ∀ k, c.shared.tab.socketId = some k → k ∈ c.shared.joinedOver →
    c.shared.tab.joinMarker = some k
  counted : ∀ k, k ∈ c.shared.opened ∨ c.shared.room.nextSocket ≤ k →
    joinsCounted past c k ≤ c.shared.joinedOver.count k

variable {cfg : Config} {past : List SessionTurn} {c c' : SessionConf} {out : List Effect}
  {t : SessionTrigger} {rest : List Task}

/-- What a tab sends is sent over a connection without a join. -/
theorem TabJoins.unjoined (h : TabJoins past c) {e : TabEvent} {k : SocketId}
    (hsocket : c.shared.tab.socketId = some k ∨ ∃ browser, e = .connect browser k)
    (hconnect : ∀ browser k, e = .connect browser k → c.shared.pending = some k)
    (hunmarked : c.shared.tab.joinMarker ≠ some k) : k ∈ c.shared.opened ∧ k ∉ c.shared.joinedOver := by
  rcases hsocket with hsocket | ⟨browser, hevent⟩
  · exact ⟨h.connected k hsocket, fun hm => hunmarked (h.marked k hsocket hm)⟩
  · obtain ⟨hopened, hnot, -⟩ := h.pending k (hconnect browser k hevent)
    exact ⟨hopened, hnot⟩

/-- The room and what the server has done are the same. -/
structure ServerRests (past : List SessionTurn) (c c' : SessionConf) (turn : SessionTurn) : Prop where
  room : c'.shared.room = c.shared.room
  opened : c'.shared.opened = c.shared.opened
  pool : c'.pool.Perm c.pool
  past : serverPast (past ++ [turn]) = serverPast past

/-- An event of the tab, which may send a join. -/
theorem TabJoins.tab {turn : SessionTurn} (h : TabJoins past c) (hrests : ServerRests past c c' turn)
    {e : TabEvent} {sent : Option SentJoin}
    (htab : handleTab c.shared.tab e = some (c'.shared.tab, sent))
    (hconnect : ∀ browser k, e = .connect browser k → c.shared.pending = some k)
    (hpending : ∀ k, c'.shared.pending = some k →
      c.shared.pending = some k ∧ ∀ browser k', e ≠ .connect browser k')
    (huplink : c'.shared.uplink = c.shared.uplink ++ sent.toList)
    (hemitted : c'.shared.emitted = c.shared.emitted ++ sent.toList) : TabJoins (past ++ [turn]) c' := by
  have hover : c'.shared.joinedOver = c.shared.joinedOver ++ sent.toList.map Prod.fst := by
    unfold Session.joinedOver
    rw [hemitted, List.map_append]
  have hmarks := handleTab_marks htab
  have hsockets : ∀ k, c'.shared.tab.socketId = some k → k ∈ c.shared.opened := by
    intro k hk
    cases hmarks with
    | sends join hsocket hunmarked _ hafter _ =>
      obtain rfl := Option.some.inj (hafter.symm.trans hk)
      exact (h.unjoined hsocket hconnect hunmarked).1
    | silent hsocket =>
      rcases hsocket k hk with ⟨browser, hevent⟩ | ⟨hbefore, -⟩
      · exact (h.pending k (hconnect browser k hevent)).1
      · exact h.connected k hbefore
  refine ⟨?_, ?_, ?_, ?_, ?_, ?_, ?_, ?_⟩
  · rw [hrests.room]
    exact h.live
  · rw [hrests.room, hrests.opened]
    exact h.opened
  · rw [hrests.opened]
    exact hsockets
  · intro k hk
    obtain ⟨hbefore, hlocal⟩ := hpending k hk
    obtain ⟨hopened, hnot, hne⟩ := h.pending k hbefore
    rw [hrests.opened, hover]
    refine ⟨hopened, ?_, ?_⟩
    · cases hmarks with
      | sends join hsocket _ _ _ _ =>
        have hjoin : c.shared.tab.socketId = some join.1 :=
          hsocket.resolve_right fun ⟨browser, hevent⟩ => hlocal browser _ hevent
        rintro hm
        rcases List.mem_append.mp hm with hm | hm
        · exact hnot hm
        · obtain rfl : k = join.1 := by simpa using hm
          exact hne hjoin
      | silent _ => simpa using hnot
    · intro hsocket'
      cases hmarks with
      | sends join hsocket _ _ hafter _ =>
        have hjoin : c.shared.tab.socketId = some join.1 :=
          hsocket.resolve_right fun ⟨browser, hevent⟩ => hlocal browser _ hevent
        exact hne (hjoin.trans (hafter.symm.trans hsocket'))
      | silent hsocket =>
        rcases hsocket k hsocket' with ⟨browser, hevent⟩ | ⟨hsame, -⟩
        · exact hlocal browser k hevent
        · exact hne hsame
  · rw [hover, hrests.opened]
    refine List.forall_mem_append.mpr ⟨h.known, ?_⟩
    cases hmarks with
    | sends join hsocket hunmarked _ _ _ => simpa using (h.unjoined hsocket hconnect hunmarked).1
    | silent _ => simp
  · rw [hover]
    cases hmarks with
    | sends join hsocket hunmarked _ _ _ =>
      exact nodup_concat h.once (h.unjoined hsocket hconnect hunmarked).2
    | silent _ => simpa using h.once
  · intro k hk hm
    rw [hover] at hm
    cases hmarks with
    | sends join _ _ _ hafter hmarked =>
      obtain rfl := Option.some.inj (hafter.symm.trans hk)
      exact hmarked
    | silent hsocket =>
      have hm : k ∈ c.shared.joinedOver := by simpa using hm
      rcases hsocket k hk with ⟨browser, hevent⟩ | ⟨hsame, hkept⟩
      · exact absurd hm (h.pending k (hconnect browser k hevent)).2.1
      · exact hkept (h.marked k hsame hm)
  · intro k hk
    rw [hrests.opened, hrests.room] at hk
    have hcounted := h.counted k hk
    unfold joinsCounted at hcounted ⊢
    rw [hrests.past, hrests.pool.countP_eq, huplink, hover, List.countP_append, List.count_append]
    have hsent : sent.toList.countP (fun join => join.1 = k) = (sent.toList.map Prod.fst).count k := by
      rw [List.count, List.countP_map]
      rfl
    omega

/-- The tab does nothing about its joins, and some of them may be lost. -/
theorem TabJoins.fewer {turn : SessionTurn} (h : TabJoins past c) (hrests : ServerRests past c c' turn)
    (hsocket : c'.shared.tab.socketId = c.shared.tab.socketId)
    (hmarker : c'.shared.tab.joinMarker = c.shared.tab.joinMarker)
    (hpending : c'.shared.pending = c.shared.pending) (hemitted : c'.shared.emitted = c.shared.emitted)
    (huplink : c'.shared.uplink.Sublist c.shared.uplink) : TabJoins (past ++ [turn]) c' := by
  have hover : c'.shared.joinedOver = c.shared.joinedOver := congrArg (List.map Prod.fst) hemitted
  refine ⟨?_, ?_, ?_, ?_, ?_, ?_, ?_, ?_⟩
  · rw [hrests.room]
    exact h.live
  · rw [hrests.room, hrests.opened]
    exact h.opened
  · rw [hsocket, hrests.opened]
    exact h.connected
  · rw [hpending, hrests.opened, hover, hsocket]
    exact h.pending
  · rw [hover, hrests.opened]
    exact h.known
  · rw [hover]
    exact h.once
  · rw [hsocket, hover, hmarker]
    exact h.marked
  · rw [hrests.opened, hrests.room, hover]
    intro k hk
    have hcounted := h.counted k hk
    have hfewer := huplink.countP_le (p := fun join => decide (join.1 = k))
    unfold joinsCounted at hcounted ⊢
    rw [hrests.past, hrests.pool.countP_eq]
    omega

/-- What a segment of the server receives over a socket of the tab comes from the tab. -/
theorem ServerFires.received {t' : ServerTrigger} {s s₁ : Session} {g : Step} {k : SocketId}
    (h : ServerFires cfg s t t' s₁ g) (hlive : ∀ j ∈ s.room.live, j < s.room.nextSocket)
    (hk : k ∈ s.opened ∨ s.room.nextSocket ≤ k) :
    s₁.uplink.countP (fun join => join.1 = k) + (receivesJoin k t').toNat ≤
      s.uplink.countP fun join => join.1 = k := by
  cases h with
  | event e g hother hfire =>
    cases hreceives : receivesJoin k (.event e) with
    | false => simp
    | true =>
      unfold receivesJoin at hreceives
      split at hreceives
      · rename_i socket payload heq
        obtain rfl := Trigger.event.inj heq
        obtain rfl : socket = k := of_decide_eq_true hreceives
        have hevent : handleEvent cfg s.room (.receive socket (.userJoin (some payload))) = some g := hfire
        simp only [handleEvent, Option.ite_none_right_eq_some] at hevent
        rcases hk with hopened | hnew
        · simp [ServerEvent.joinsOver, hopened] at hother
        · exact absurd (hlive socket hevent.1) hnew.not_gt
      · cases hreceives
  | accept g hfire => simp [receivesJoin]
  | arrive i join g hunderway hfire =>
    obtain ⟨hi, rfl⟩ := List.getElem?_eq_some_iff.mp hunderway
    have hperm := (List.getElem_cons_eraseIdx_perm hi).countP_eq fun join => decide (join.1 = k)
    rw [List.countP_cons] at hperm
    have hreceived : ∀ data : Option UserJoinPayload,
        (receivesJoin k (.event (.receive s.uplink[i].1 (.userJoin data)))).toNat ≤
          if s.uplink[i].1 = k then 1 else 0 := by
      intro data
      cases data with
      | none => exact Nat.zero_le _
      | some data => by_cases hsame : s.uplink[i].1 = k <;> simp [receivesJoin, hsame]
    have hreceived := hreceived (userJoinSchema s.uplink[i].2)
    simp only [decide_eq_true_eq] at hperm
    dsimp only
    omega
  | task task o g hfire => simp [receivesJoin]

/-- A segment of the server. -/
theorem TabJoins.server (h : TabJoins past c) {t' : ServerTrigger} {s₁ : Session} {g : Step}
    (hfires : ServerFires cfg c.shared t t' s₁ g)
    (hby : (server cfg).StepBy (serverConf c) (serverConf c') out t' g rest)
    (hshared : c'.shared = (ofServer s₁ g).state)
    (hturn : serverTurn ⟨c, t, c', out⟩ = some ⟨serverConf c, t', serverConf c', out⟩) :
    TabJoins (past ++ [⟨c, t, c', out⟩]) c' := by
  have hroom : c'.shared.room = g.state := congrArg Session.room hshared
  have hlt := live_lt_step h.live hby.fire
  have hle := nextSocket_le hby.fire
  rw [← hroom] at hlt hle
  change c.shared.room.nextSocket ≤ c'.shared.room.nextSocket at hle
  have htab : c'.shared.tab = c.shared.tab := by rw [hshared]; cases hfires <;> rfl
  have hover : c'.shared.joinedOver = c.shared.joinedOver := by
    rw [hshared]
    cases hfires <;> rfl
  have hnew : c.shared.room.nextSocket ∉ c.shared.opened := fun hm => (h.opened _ hm).false
  have hopened : c'.shared.opened = c.shared.opened ∧ c'.shared.pending = c.shared.pending ∨
      c'.shared.opened = c.shared.opened ++ [c.shared.room.nextSocket] ∧
      c'.shared.pending = some c.shared.room.nextSocket ∧
      c.shared.room.nextSocket < c'.shared.room.nextSocket := by
    rw [hshared]
    cases hfires with
    | accept g hfire =>
      cases hfire
      exact .inr ⟨rfl, rfl, Nat.lt_succ_self _⟩
    | _ => exact .inl ⟨rfl, rfl⟩
  have hkept : ∀ k ∈ c.shared.opened, k ∈ c'.shared.opened := by
    intro k hk
    rcases hopened with ⟨hsame, -⟩ | ⟨hmore, -, -⟩
    · exact hsame ▸ hk
    · exact hmore ▸ List.mem_append_left _ hk
  refine ⟨hlt, ?_, ?_, ?_, ?_, ?_, ?_, ?_⟩
  · intro k hk
    rcases hopened with ⟨hsame, -⟩ | ⟨hmore, -, hmoved⟩
    · exact (h.opened k (hsame ▸ hk)).trans_le hle
    · rw [hmore] at hk
      exact forall_mem_concat (fun k hk => (h.opened k hk).trans_le hle) hmoved k hk
  · intro k hk
    exact hkept k (h.connected k (htab ▸ hk))
  · intro k hk
    rw [hover, htab]
    rcases hopened with ⟨-, hsame⟩ | ⟨hmore, hpending, -⟩
    · obtain ⟨hm, hrest⟩ := h.pending k (hsame ▸ hk)
      exact ⟨hkept k hm, hrest⟩
    · obtain rfl := Option.some.inj (hpending.symm.trans hk)
      refine ⟨hmore ▸ List.mem_append_right _ (List.mem_singleton_self _), ?_, ?_⟩
      · exact fun hm => hnew (h.known _ hm)
      · exact fun hsocket => hnew (h.connected _ hsocket)
  · rw [hover]
    exact fun k hk => hkept k (h.known k hk)
  · rw [hover]
    exact h.once
  · rw [hover, htab]
    exact h.marked
  · intro k hk
    have hk' : k ∈ c.shared.opened ∨ c.shared.room.nextSocket ≤ k := by
      rcases hk with hk | hk
      · rcases hopened with ⟨hsame, -⟩ | ⟨hmore, -, -⟩
        · exact .inl (hsame ▸ hk)
        · rcases List.mem_append.mp (hmore ▸ hk) with hk | hk
          · exact .inl hk
          · exact .inr (List.mem_singleton.mp hk).ge
      · exact .inr (hle.trans hk)
    have hcounted := h.counted k hk'
    have hreceived := hfires.received h.live hk'
    have hfire := fire_counts k hby.fire
    have hpool := hby.countP_after (Task.joinsOver k)
    have huplink : c'.shared.uplink = s₁.uplink := by rw [hshared]; rfl
    unfold joinsCounted at hcounted ⊢
    rw [hover, serverPast_concat, hturn, Option.toList_some, issues_concat, List.countP_append, huplink]
    change c'.pool.countP _ + _ = c.pool.countP _ + _ at hpool
    change _ + (issue c.shared.room t').toList.countP _ ≤ _ at hfire
    dsimp only [serverConf]
    omega

theorem tabJoins_step (h : TabJoins past c) {g : SessionStep} (hby : (session cfg).StepBy c c' out t g rest) :
    TabJoins (past ++ [⟨c, t, c', out⟩]) c' := by
  cases session_moves hby with
  | server t' s₁ g' hfires hby' hshared hturn => exact h.server hfires hby' hshared hturn
  | tab s₁ hfires hshared hpool hout hturn =>
    have hpast : serverPast (past ++ [⟨c, t, c', out⟩]) = serverPast past := by
      rw [serverPast_concat, hturn, Option.toList_none, List.append_nil]
    have hrests : ServerRests past c c' ⟨c, t, c', out⟩ := by
      refine ⟨?_, ?_, hpool, hpast⟩
      · rw [hshared, hfires.room]
      · rw [hshared]
        cases hfires <;> rfl
    cases hfires with
    | connected browser k tab' sent hpending htab =>
      have htab' : handleTab c.shared.tab (.connect browser k) = some (c'.shared.tab, sent) := by
        rw [hshared]
        exact htab
      refine h.tab hrests htab' ?_ ?_ (by rw [hshared]) (by rw [hshared])
      · intro browser' k' heq
        cases heq
        exact hpending
      · intro k' hk'
        rw [hshared] at hk'
        cases hk'
    | page e tab' sent hlocal htab =>
      have hnot : ∀ browser k, e ≠ .connect browser k := by
        rintro browser k rfl
        cases hlocal
      have htab' : handleTab c.shared.tab e = some (c'.shared.tab, sent) := by
        rw [hshared]
        exact htab
      refine h.tab hrests htab' ?_ ?_ (by rw [hshared]) (by rw [hshared])
      · exact fun browser k heq => absurd heq (hnot browser k)
      · intro k hk
        rw [hshared] at hk
        exact ⟨hk, hnot⟩
    | lost i join hunderway =>
      refine h.fewer hrests ?_ ?_ ?_ ?_ ?_ <;> rw [hshared]
      exact List.eraseIdx_sublist _ _
    | read browser now k m rest hunderway hsocket =>
      refine h.fewer hrests ?_ ?_ ?_ ?_ ?_ <;> rw [hshared] <;> dsimp only
      · unfold handleMessage
        split_ifs <;> rfl
      · unfold handleMessage
        split_ifs <;> rfl
    | dropped browser now k m rest hunderway hsocket =>
      refine h.fewer hrests ?_ ?_ ?_ ?_ ?_ <;> rw [hshared]

theorem initial_tabJoins (cfg : Config) (mode : RoomMode) (now : Time) (displayName : Option JsString) :
    TabJoins [] (initialSession cfg mode now displayName) where
  live := nofun
  opened := nofun
  connected := nofun
  pending := nofun
  known := nofun
  once := List.nodup_nil
  marked := nofun
  counted _ _ := Nat.le_refl _

/-! ## Runs -/

/-- The runs of a room and a page from their creation. -/
def SessionReaches (cfg : Config) (mode : RoomMode) (now : Time) (displayName : Option JsString)
    (acts : List SessionAct) (c : SessionConf) (out : List Effect) : Prop :=
  (session cfg).run (initialSession cfg mode now displayName) acts = some (c, out)

section
variable {mode : RoomMode} {now : Time} {displayName : Option JsString} {acts : List SessionAct}

theorem tabJoins_run (hreach : SessionReaches cfg mode now displayName acts c out) :
    TabJoins ((session cfg).history (initialSession cfg mode now displayName) acts) c :=
  Machine.run_history_preserves (P := fun _ _ _ => True) (I := fun past c => TabJoins past c)
    (fun _ _ _ _ _ _ _ h _ hby => tabJoins_step h hby) (initial_tabJoins cfg mode now displayName)
    (fun _ _ _ _ => trivial) hreach

end

/-- The ledger of the server along a session. -/
theorem sessionLedger_step {g : SessionStep} (h : TokenLedger (serverPast past) (serverConf c))
    (hby : (session cfg).StepBy c c' out t g rest) :
    TokenLedger (serverPast (past ++ [⟨c, t, c', out⟩])) (serverConf c') := by
  rw [serverPast_concat]
  cases session_moves hby with
  | server t' s₁ g' hfires hby' hshared hturn =>
    rw [hturn]
    exact ledger_step h hby'
  | tab s₁ hfires hshared hpool hout hturn =>
    have hroom : c'.shared.room = c.shared.room := by rw [hshared, hfires.room]
    rw [hturn, Option.toList_none, List.append_nil, serverConf, hroom]
    exact ⟨h.roster, h.ids, h.tokens, h.distinct, h.current, h.known, h.spent, h.once, h.yjs, h.apart, h.sent⟩

/-- A user with a socket was issued its token there. -/
theorem TokenLedger.issued_to {past : List ServerTurn} {c : ServerConf} {u : RoomUserInternal} {k : SocketId}
    (h : TokenLedger past c) (hu : u ∈ c.shared.room.users) (hk : u.socketId = some k) :
    ∃ i ∈ issues past, i.socket = k ∧ i.userId = u.id ∧ i.token = u.reconnectToken := by
  obtain ⟨i, hlast, htoken, hsocket⟩ := h.current u hu
  obtain ⟨hmem, hid⟩ := lastIssued_mem hlast
  rw [hk] at hsocket
  rcases hsocket with hnone | hsome
  · cases hnone
  · exact ⟨i, hmem, (Option.some.inj hsome).symm, hid, htoken⟩

/-- A socket to which no token was issued has no user. -/
theorem TokenLedger.unseated {past : List ServerTurn} {c : ServerConf} {k : SocketId} (h : TokenLedger past c)
    (hunanswered : ∀ i ∈ issues past, i.socket ≠ k) : c.shared.room.findBySocketId k = none := by
  cases hfound : c.shared.room.findBySocketId k with
  | none => rfl
  | some u =>
    have hu := List.find?_some hfound
    simp only [Bool.and_eq_true, decide_eq_true_eq] at hu
    obtain ⟨i, hi, hsocket, -⟩ := h.issued_to (List.mem_of_find?_eq_some hfound) hu.1
    exact absurd hsocket (hunanswered i hi)

theorem eq_of_countP_le_one {α : Type} {p : α → Bool} {items : List α} (h : items.countP p ≤ 1) {a b : α}
    (ha : a ∈ items) (hb : b ∈ items) (hpa : p a = true) (hpb : p b = true) : a = b := by
  rw [List.countP_eq_length_filter] at h
  have ha : a ∈ items.filter p := List.mem_filter.mpr ⟨ha, hpa⟩
  have hb : b ∈ items.filter p := List.mem_filter.mpr ⟨hb, hpb⟩
  generalize items.filter p = found at h ha hb
  cases found with
  | nil => cases ha
  | cons first others =>
    obtain rfl := List.eq_nil_of_length_eq_zero (by simpa using h)
    rw [List.mem_singleton] at ha hb
    rw [ha, hb]

/-- Members that are counted have the same key, and keys are not shared. -/
theorem countP_le_one_of_key {α κ : Type} {key : α → κ} {p : α → Bool} {items : List α}
    (hdistinct : (items.map key).Nodup)
    (hsame : ∀ a ∈ items, ∀ b ∈ items, p a = true → p b = true → key a = key b) : items.countP p ≤ 1 := by
  induction items with
  | nil => exact Nat.zero_le _
  | cons first items ih =>
    obtain ⟨hnot, hdistinct⟩ := List.nodup_cons.mp hdistinct
    cases hp : p first with
    | false =>
      rw [List.countP_cons_of_neg (by simp [hp])]
      exact ih hdistinct fun a ha b hb => hsame a (.tail _ ha) b (.tail _ hb)
    | true =>
      have hnone : items.countP p = 0 := by
        refine List.countP_eq_zero.mpr fun b hb hpb => hnot ?_
        rw [hsame first (.head _) b (.tail _ hb) hp hpb]
        exact List.mem_map_of_mem hb
      rw [List.countP_cons_of_pos hp, hnone]

/-- What the server gives to a socket of the tab. -/
structure OneSeat (issued : List Issue) (c : SessionConf) (k : SocketId) : Prop where
  issued : (issued.countP fun i => i.socket = k) ≤ 1
  seated : (c.shared.room.room.users.countP fun u => u.socketId = some k) ≤ 1
  /-- a join that waits at the rate limiter will still find its socket without a seat -/
  unseated : ∀ payload, .joinLimiter k payload ∈ c.pool → ∀ u ∈ c.shared.room.room.users, u.socketId ≠ some k

theorem TabJoins.oneSeat {k : SocketId} (h : TabJoins past c)
    (hledger : TokenLedger (serverPast past) (serverConf c)) (hk : k ∈ c.shared.opened) :
    OneSeat (issues (serverPast past)) c k := by
  have hcounted := h.counted k (.inl hk)
  have honce := List.nodup_iff_count_le_one.mp h.once k
  unfold joinsCounted at hcounted
  have hissued : ((issues (serverPast past)).countP fun i => i.socket = k) ≤ 1 := by omega
  refine ⟨hissued, ?_, ?_⟩
  · -- two users with the socket would have been issued the same token
    have hsame : ∀ u ∈ c.shared.room.room.users, ∀ v ∈ c.shared.room.room.users, u.socketId = some k →
        v.socketId = some k → u.id = v.id := by
      intro u hu v hv huk hvk
      obtain ⟨i, hi, hik, hid, -⟩ := hledger.issued_to hu huk
      obtain ⟨j, hj, hjk, hjd, -⟩ := hledger.issued_to hv hvk
      obtain rfl := eq_of_countP_le_one hissued hi hj (by simpa using hik) (by simpa using hjk)
      exact hid.symm.trans hjd
    refine countP_le_one_of_key hledger.roster.distinct fun u hu v hv huk hvk => ?_
    exact hsame u hu v hv (by simpa using huk) (by simpa using hvk)
  · intro payload hm u hu huk
    obtain ⟨i, hi, hik, -, -⟩ := hledger.issued_to hu huk
    have hpool : 0 < c.pool.countP (Task.joinsOver k) :=
      List.countP_pos_iff.mpr ⟨_, hm, by simp [Task.joinsOver, Task.join]⟩
    have hgot : 0 < (issues (serverPast past)).countP fun i => i.socket = k :=
      List.countP_pos_iff.mpr ⟨i, hi, by simpa using hik⟩
    omega

theorem initial_sessionLedger (cfg : Config) (mode : RoomMode) (now : Time) (displayName : Option JsString) :
    TokenLedger (serverPast []) (serverConf (initialSession cfg mode now displayName)) :=
  initial_ledger cfg mode now

theorem sessionLedger_run {mode : RoomMode} {now : Time} {displayName : Option JsString}
    {acts : List SessionAct} (hreach : SessionReaches cfg mode now displayName acts c out) :
    TokenLedger (serverPast ((session cfg).history (initialSession cfg mode now displayName) acts))
      (serverConf c) :=
  Machine.run_history_preserves (P := fun _ _ _ => True)
    (I := fun past c => TokenLedger (serverPast past) (serverConf c))
    (fun _ _ _ _ _ _ _ h _ hby => sessionLedger_step h hby)
    (initial_sessionLedger cfg mode now displayName) (fun _ _ _ _ => trivial) hreach

/-- **One seat for each connection.** In every run of the server and a tab, whatever else reaches the server,
the tab joins at most once over each of its sockets, and the server issues at most one token to it and binds at
most one user to it. -/
theorem tab_sockets_seat_one_user {cfg : Config} {mode : RoomMode} {now : Time}
    {displayName : Option JsString} {acts : List SessionAct} {c : SessionConf} {out : List Effect}
    (hreach : SessionReaches cfg mode now displayName acts c out) :
    c.shared.joinedOver.Nodup ∧ ∀ k ∈ c.shared.opened,
      OneSeat (issues (serverPast ((session cfg).history (initialSession cfg mode now displayName) acts))) c k :=
  ⟨(tabJoins_run hreach).once, fun _ hk => (tabJoins_run hreach).oneSeat (sessionLedger_run hreach) hk⟩

/-- Nothing throws. -/
def plainBrowser : Browser := ⟨fun _ => true, fun _ => true, true⟩

/-- A page is bound to its socket, which connects and joins; the handlers are bound a second time while the
join is under way. -/
def exampleSession : List SessionAct :=
  [.event (.page (.mount plainBrowser)), .event .accept, .event (.connected plainBrowser),
    .event (.page .unmount), .event (.page (.mount plainBrowser)), .event (.arrive 0), .resume 0 .go,
    .resume 0 .allowed, .resume 0 .go, .event (.read plainBrowser 0), .event (.read plainBrowser 0)]

theorem tab_sockets_seat_one_user_example : ∃ c out,
    SessionReaches plainConfig .collaboration 0 (some (js "guest")) exampleSession c out ∧
    c.shared.room.room.users.length = 1 ∧ c.shared.tab.storage.reconnectToken = some 2 ∧
    c.shared.joinedOver.Nodup ∧ ∀ k ∈ c.shared.opened,
      OneSeat (issues (serverPast ((session plainConfig).history
        (initialSession plainConfig .collaboration 0 (some (js "guest"))) exampleSession))) c k := by
  obtain ⟨c, out, hreach, husers, htoken⟩ : ∃ c out,
      SessionReaches plainConfig .collaboration 0 (some (js "guest")) exampleSession c out ∧
      c.shared.room.room.users.length = 1 ∧ c.shared.tab.storage.reconnectToken = some 2 :=
    ⟨_, _, rfl, rfl, rfl⟩
  exact ⟨c, out, hreach, husers, htoken, tab_sockets_seat_one_user hreach⟩

end CodeShare
