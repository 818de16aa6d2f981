import CodeShare.Properties.SessionContinuity

/-! # Coming back

A tab presents the token of the last answer that it received with its next join. Nobody else presents it, so that
the tab comes back as the user it was, however often its connection breaks.
-/

namespace CodeShare
open Tasks
set_option autoImplicit false

/-! ## The next join -/

/-- The tab sends the join when its last one has been answered, and this user is what it knows itself as. -/
structure SendsNext (turn : SessionTurn) (userId : UserId) (join : SentJoin) : Prop where
  answered : ∃ k, turn.before.shared.answered = some k ∧
    turn.before.shared.emitted.getLast?.map Prod.fst = some k
  current : turn.before.shared.tab.state.currentUserId = some userId
  sent : turn.after.shared.emitted = turn.before.shared.emitted ++ [join]

/-- The join has not been answered: it presents the last token of its user, and no other join presents it or
goes over the same socket. -/
structure Waits (past : List SessionTurn) (c : SessionConf) (join : SentJoin) (i : Issue) : Prop where
  mine : i ∈ issues (serverPast past) ∧ i.socket ∈ c.shared.opened
  presented : join.2.reconnectToken = some (.wellFormed i.token)
  last : lastIssued (issues (serverPast past)) i.userId = some i
  sent : ∀ other ∈ c.shared.uplink,
    other.2.reconnectToken = some (.wellFormed i.token) ∨ other.1 = join.1 → other = join
  goesOn : ∀ task ∈ c.pool, ∀ socket payload, task.join = some (socket, payload) →
    payload.reconnectToken = some (.wellFormed i.token) ∨ socket = join.1 →
    socket = join.1 ∧ userJoinSchema join.2 = some payload

/-- The user has lost its socket, or is no more. -/
def Away (s : Server) (userId : UserId) : Prop := ∀ u ∈ s.room.users, u.id = userId → u.connected = false

/-- A join waits until a token is issued to its socket or the tab sends another one. -/
def Returning (past : List SessionTurn) (c : SessionConf) : Prop :=
  ∀ sending ∈ past, ∀ userId join, SendsNext sending userId join →
    join ∈ c.shared.emitted ∧ (c.shared.emitted.getLast? = some join →
      (∀ i ∈ issues (serverPast past), i.socket ≠ join.1) →
      (∃ i, i.userId = userId ∧ Waits past c join i) ∧
      (Away sending.before.shared.room userId → Away c.shared.room userId))

variable {cfg : Config} {past : List SessionTurn} {c c' : SessionConf} {out : List Effect}
  {t : SessionTrigger} {rest : List Task} {userId : UserId} {join : SentJoin} {i : Issue}

/-- Nothing goes over a socket before the tab joins over it. -/
theorem TabJoins.unused (h : TabJoins past c) {k : SocketId} (hk : k ∈ c.shared.opened)
    (hnot : k ∉ c.shared.joinedOver) :
    (∀ other ∈ c.shared.uplink, other.1 ≠ k) ∧ (∀ task ∈ c.pool, task.joinsOver k = false) := by
  have hcounted := h.counted k (.inl hk)
  rw [List.count_eq_zero_of_not_mem hnot] at hcounted
  unfold joinsCounted at hcounted
  refine ⟨fun other hm heq => ?_, fun task hm => ?_⟩
  · have hpos : 0 < c.shared.uplink.countP fun other => other.1 = k :=
      List.countP_pos_iff.mpr ⟨other, hm, by simpa using heq⟩
    omega
  · cases hover : task.joinsOver k with
    | false => rfl
    | true =>
      have hpos : 0 < c.pool.countP (Task.joinsOver k) := List.countP_pos_iff.mpr ⟨task, hm, hover⟩
      omega

/-- A join that is under way has got no token. -/
theorem TabJoins.unanswered (h : TabJoins past c) {k : SocketId} (hk : k ∈ c.shared.joinedOver)
    (hunderway : (∃ other ∈ c.shared.uplink, other.1 = k) ∨ ∃ task ∈ c.pool, task.joinsOver k = true) :
    ∀ i ∈ issues (serverPast past), i.socket ≠ k := by
  intro i hi hsocket
  have hcounted := h.counted k (.inl (h.known k hk))
  have honce := List.nodup_iff_count_le_one.mp h.once k
  have hissued : 0 < (issues (serverPast past)).countP fun i => i.socket = k :=
    List.countP_pos_iff.mpr ⟨i, hi, by simpa using hsocket⟩
  unfold joinsCounted at hcounted
  rcases hunderway with ⟨other, hm, hother⟩ | ⟨task, hm, htask⟩
  · have hpos : 0 < c.shared.uplink.countP fun other => other.1 = k :=
      List.countP_pos_iff.mpr ⟨other, hm, by simpa using hother⟩
    omega
  · have hpos : 0 < c.pool.countP (Task.joinsOver k) := List.countP_pos_iff.mpr ⟨task, hm, htask⟩
    omega

/-! ## Sending -/

/-- The token of the answered join is presented by the next one, and by nobody else. -/
theorem Continuity.sends {turn : SessionTurn} (h : Continuity past c) (hjoins : TabJoins (past ++ [turn]) c')
    (hrests : ServerRests past c c' turn) (hbefore : turn.before = c) (hafter : turn.after = c')
    (hnext : SendsNext turn userId join)
    (hpresented : join.2.reconnectToken = c.shared.tab.storage.reconnectToken.map .wellFormed)
    (huplink : c'.shared.uplink = c.shared.uplink ++ [join]) :
    ∃ i, i.userId = userId ∧ Waits (past ++ [turn]) c' join i := by
  obtain ⟨k, hanswered, hlatest⟩ := hnext.answered
  rw [hbefore] at hanswered hlatest
  obtain ⟨last, hlast, rfl⟩ := Option.map_eq_some_iff.mp hlatest
  obtain ⟨i, hi, hsocket, hstored, hcurrent⟩ := h.answered _ hanswered
  obtain ⟨hlastIssued, hnot⟩ := h.latest last hlast i hi hsocket
  have hemitted : c'.shared.emitted = c.shared.emitted ++ [join] := by
    rw [← hafter, hnext.sent, hbefore]
  have hover : c'.shared.joinedOver = c.shared.joinedOver ++ [join.1] := by
    unfold Session.joinedOver
    rw [hemitted, List.map_append, List.map_singleton]
  have honce := hjoins.once
  rw [hover] at honce
  have hnew : join.1 ∉ c.shared.joinedOver := fun hm =>
    List.disjoint_of_nodup_append honce hm (List.mem_singleton_self _)
  have hopened : join.1 ∈ c.shared.opened := by
    rw [← hrests.opened]
    exact hjoins.known _ (hover ▸ List.mem_append_right _ (List.mem_singleton_self _))
  obtain ⟨hunsent, hunheard⟩ := h.joins.unused hopened hnew
  refine ⟨i, ?_, ⟨?_, ?_⟩, ?_, ?_, ?_, ?_⟩
  · have hboth := hnext.current
    rw [hbefore, hcurrent] at hboth
    exact Option.some.inj hboth
  · rw [hrests.past]
    exact hi
  · rw [hrests.opened, hsocket]
    exact h.joins.known _ (List.mem_map_of_mem (List.mem_of_getLast? hlast))
  · rw [hpresented, hstored, Option.map_some]
  · rw [hrests.past]
    exact hlastIssued
  · rw [huplink]
    intro other hm hcase
    rcases List.mem_append.mp hm with hm | hm
    · rcases hcase with hτ | hk
      · exact absurd (.inl ⟨other, hm, hτ⟩) hnot
      · exact absurd hk (hunsent other hm)
    · exact List.mem_singleton.mp hm
  · intro task hm socket payload hjoin hcase
    have hm := hrests.pool.mem_iff.mp hm
    rcases hcase with hτ | rfl
    · exact absurd (.inr ⟨task, hm, socket, payload, hjoin, hτ⟩) hnot
    · have hover := hunheard task hm
      simp [Task.joinsOver, hjoin] at hover

/-! ## Waiting -/

/-- Whoever is issued a token while the join waits is somebody else. -/
theorem Waits.issued_elsewhere (h : Waits past c join i) (hledger : TokenLedger (serverPast past) (serverConf c))
    {t' : ServerTrigger} {g : Step} (hby : (server cfg).StepBy (serverConf c) (serverConf c') out t' g rest)
    {j : Issue} (hother : j.socket ≠ join.1)
    (huser : (∃ existing, Accepted (serverConf c).shared t' j existing) ∨ Enrols (serverConf c).shared g j) :
    i.userId ≠ j.userId := by
  intro hsame
  rcases huser with ⟨existing, haccepted⟩ | henrols
  · -- whoever got `j` would have presented the token of `i`, which only this join does
    obtain ⟨i', hlast, htoken, -⟩ := hledger.current existing haccepted.mem
    rw [haccepted.id, ← hsame] at hlast
    obtain rfl := Option.some.inj (h.last.symm.trans hlast)
    obtain ⟨payload, rfl, hpresented⟩ := haccepted.trigger
    rw [← htoken] at hpresented
    exact hother (h.goesOn _ (hby.mem_of_taken (List.mem_singleton_self _)) _ _ rfl (.inl hpresented)).1
  · have hlt := hledger.ids i h.mine.1
    rw [hsame] at hlt
    exact absurd hlt henrols.fresh.not_gt

/-- Behind a segment of the server, the tasks that carry a join with the token or the socket still carry this one. -/
theorem Waits.goesOn_served (h : Waits past c join i) (hcontinuity : Continuity past c)
    (hopened : join.1 ∈ c.shared.opened) (hothers : OthersPresentSent past c.shared t)
    {t' : ServerTrigger} {s₁ : Session} {g : Step} (hfires : ServerFires cfg c.shared t t' s₁ g)
    (hby : (server cfg).StepBy (serverConf c) (serverConf c') out t' g rest) :
    ∀ task ∈ c'.pool, ∀ socket payload, task.join = some (socket, payload) →
      payload.reconnectToken = some (.wellFormed i.token) ∨ socket = join.1 →
      socket = join.1 ∧ userJoinSchema join.2 = some payload := by
  intro task hm socket payload hjoin hcase
  change task ∈ (serverConf c').pool at hm
  rcases hby.mem_after hm with hm | hm
  · exact h.goesOn task (hby.mem_of_rest hm) socket payload hjoin hcase
  · rcases fire_joins hby.fire hm hjoin with hreceived | ⟨task', hm', hjoin'⟩
    · rcases hfires.join_origin hreceived with rfl | ⟨other, hm', rfl, hschema⟩
      · -- the others do not present the token, and the socket is not theirs
        rcases hcase with hτ | rfl
        · have helsewhere := (hcontinuity.sent_elsewhere hothers rfl hτ).2 i h.mine.1 rfl
          exact absurd h.mine.2 helsewhere
        · cases hfires with
          | event e g hother hfire => simp [ServerEvent.joinsOver, hopened] at hother
      · rw [userJoinSchema_token hschema] at hcase
        obtain rfl := h.sent other hm' hcase
        exact ⟨rfl, hschema⟩
    · exact h.goesOn task' (hby.mem_of_taken hm') socket payload hjoin' hcase

/-- A segment of the server that does not answer the join. -/
theorem Waits.served (h : Waits past c join i) (hcontinuity : Continuity past c)
    (hopened : join.1 ∈ c.shared.opened) (hothers : OthersPresentSent past c.shared t)
    {t' : ServerTrigger} {s₁ : Session} {g : Step} (hfires : ServerFires cfg c.shared t t' s₁ g)
    (hby : (server cfg).StepBy (serverConf c) (serverConf c') out t' g rest)
    (hshared : c'.shared = (ofServer s₁ g).state)
    (hturn : serverTurn ⟨c, t, c', out⟩ = some ⟨serverConf c, t', serverConf c', out⟩)
    (hunanswered : ∀ j ∈ issues (serverPast (past ++ [⟨c, t, c', out⟩])), j.socket ≠ join.1) :
    Waits (past ++ [⟨c, t, c', out⟩]) c' join i ∧ (Away c.shared.room i.userId → Away c'.shared.room i.userId) := by
  have hissues : issues (serverPast (past ++ [⟨c, t, c', out⟩])) =
      issues (serverPast past) ++ (issue c.shared.room t').toList := by
    rw [serverPast_concat, hturn, Option.toList_some, issues_concat]
    rfl
  have hroom : c'.shared.room = g.state := congrArg Session.room hshared
  have hkept : ∀ k ∈ c.shared.opened, k ∈ c'.shared.opened := by
    rw [hshared]
    cases hfires with
    | accept g hfire => exact fun k hk => List.mem_append_left _ hk
    | _ => exact fun k hk => hk
  have huplink : ∀ other ∈ c'.shared.uplink, other ∈ c.shared.uplink := by
    rw [hshared]
    cases hfires with
    | arrive i join' g hunderway hfire => exact fun other hm => (List.eraseIdx_sublist _ _).subset hm
    | _ => exact fun other hm => hm
  have hstep := fire_tokens hcontinuity.ledger.roster.fresh hby.fire
  cases hstep with
  | kept hissue _ _ husers =>
    change issue c.shared.room t' = none at hissue
    rw [hissue, Option.toList_none, List.append_nil] at hissues
    refine ⟨⟨?_, h.presented, ?_, fun other hm => h.sent other (huplink other hm),
      h.goesOn_served hcontinuity hopened hothers hfires hby⟩, ?_⟩
    · rw [hissues]
      exact ⟨h.mine.1, hkept _ h.mine.2⟩
    · rw [hissues]
      exact h.last
    · intro haway u' hu' hid
      rw [hroom] at hu'
      obtain ⟨u, hu, hremains⟩ := husers u' hu'
      exact hremains.away (haway u hu (hremains.id ▸ hid))
  | issued j hissue _ _ husers huser =>
    change issue c.shared.room t' = some j at hissue
    rw [hissue, Option.toList_some] at hissues
    have hother : j.socket ≠ join.1 :=
      hunanswered j (hissues ▸ List.mem_append_right _ (List.mem_singleton_self _))
    have hne := h.issued_elsewhere hcontinuity.ledger hby hother huser
    refine ⟨⟨?_, h.presented, ?_, fun other hm => h.sent other (huplink other hm),
      h.goesOn_served hcontinuity hopened hothers hfires hby⟩, ?_⟩
    · rw [hissues]
      exact ⟨List.mem_append_left _ h.mine.1, hkept _ h.mine.2⟩
    · rw [hissues, lastIssued_append_of_ne hne]
      exact h.last
    · intro haway u' hu' hid
      rw [hroom] at hu'
      rcases husers u' hu' with hholds | ⟨-, hu'⟩
      · exact absurd (hid.symm.trans hholds.id) hne
      · exact haway u' hu' hid

/-- The server rests, and the joins that are under way are the same or fewer. -/
theorem Waits.rests {turn : SessionTurn} (h : Waits past c join i) (hrests : ServerRests past c c' turn)
    (huplink : c'.shared.uplink.Sublist c.shared.uplink) : Waits (past ++ [turn]) c' join i where
  mine := by rw [hrests.past, hrests.opened]; exact h.mine
  presented := h.presented
  last := by rw [hrests.past]; exact h.last
  sent other hm := h.sent other (huplink.subset hm)
  goesOn task hm := h.goesOn task (hrests.pool.mem_iff.mp hm)

/-! ## Every segment -/

/-- A segment of the tab sends a join, or takes something from the connection at most. -/
theorem TabFires.sends {s s₁ : Session} (h : TabFires s t s₁) :
    s₁.emitted = s.emitted ∧ s₁.uplink.Sublist s.uplink ∨
      ∃ join, s₁.emitted = s.emitted ++ [join] ∧ s₁.uplink = s.uplink ++ [join] ∧
        join.2.reconnectToken = s.tab.storage.reconnectToken.map .wellFormed := by
  cases h with
  | connected browser k tab' sent hpending htab =>
    cases handleTab_marks htab with
    | sends join _ _ hpresented _ _ => exact .inr ⟨join, rfl, rfl, hpresented⟩
    | silent _ => exact .inl ⟨List.append_nil _, by simp⟩
  | page e tab' sent hlocal htab =>
    cases handleTab_marks htab with
    | sends join _ _ hpresented _ _ => exact .inr ⟨join, rfl, rfl, hpresented⟩
    | silent _ => exact .inl ⟨List.append_nil _, by simp⟩
  | lost i join hunderway => exact .inl ⟨rfl, List.eraseIdx_sublist _ _⟩
  | read browser now k m rest hunderway hsocket => exact .inl ⟨rfl, .refl _⟩
  | dropped browser now k m rest hunderway hsocket => exact .inl ⟨rfl, .refl _⟩

/-- A segment of the server sends nothing. -/
theorem returning_served (h : Returning past c) (hcontinuity : Continuity past c)
    (hothers : OthersPresentSent past c.shared t) {t' : ServerTrigger} {s₁ : Session} {g : Step}
    (hfires : ServerFires cfg c.shared t t' s₁ g)
    (hby : (server cfg).StepBy (serverConf c) (serverConf c') out t' g rest)
    (hshared : c'.shared = (ofServer s₁ g).state)
    (hturn : serverTurn ⟨c, t, c', out⟩ = some ⟨serverConf c, t', serverConf c', out⟩) :
    Returning (past ++ [⟨c, t, c', out⟩]) c' := by
  have hemitted : c'.shared.emitted = c.shared.emitted := by rw [hshared]; cases hfires <;> rfl
  intro sending hm userId join hnext
  rcases List.mem_append.mp hm with hm | hm
  · obtain ⟨hsent, hwaits⟩ := h sending hm userId join hnext
    rw [hemitted]
    refine ⟨hsent, fun hlast hunanswered => ?_⟩
    have hbefore : ∀ i ∈ issues (serverPast past), i.socket ≠ join.1 := by
      intro i hi
      refine hunanswered i ?_
      rw [serverPast_concat, hturn, Option.toList_some, issues_concat]
      exact List.mem_append_left _ hi
    obtain ⟨⟨i, rfl, hi⟩, haway⟩ := hwaits hlast hbefore
    have hopened : join.1 ∈ c.shared.opened := hcontinuity.joins.known _ (List.mem_map_of_mem hsent)
    obtain ⟨hwaits', haway'⟩ := hi.served hcontinuity hopened hothers hfires hby hshared hturn hunanswered
    exact ⟨⟨i, rfl, hwaits'⟩, fun hsending => haway' (haway hsending)⟩
  · obtain rfl := List.mem_singleton.mp hm
    have hsame := hnext.sent
    dsimp only at hsame
    rw [hemitted] at hsame
    simp at hsame

/-- A segment of the tab sends the next join, or another one over another socket, or none. -/
theorem returning_tab (h : Returning past c) (hcontinuity : Continuity past c) {turn : SessionTurn}
    (hjoins : TabJoins (past ++ [turn]) c') (hrests : ServerRests past c c' turn) (hbefore : turn.before = c)
    (hafter : turn.after = c')
    (hsends : c'.shared.emitted = c.shared.emitted ∧ c'.shared.uplink.Sublist c.shared.uplink ∨
      ∃ join, c'.shared.emitted = c.shared.emitted ++ [join] ∧ c'.shared.uplink = c.shared.uplink ++ [join] ∧
        join.2.reconnectToken = c.shared.tab.storage.reconnectToken.map .wellFormed) :
    Returning (past ++ [turn]) c' := by
  intro sending hm userId join hnext
  rcases List.mem_append.mp hm with hm | hm
  · obtain ⟨hsent, hwaits⟩ := h sending hm userId join hnext
    rcases hsends with ⟨hemitted, huplink⟩ | ⟨other, hemitted, -, -⟩
    · rw [hemitted, hrests.past, hrests.room]
      refine ⟨hsent, fun hlast hunanswered => ?_⟩
      obtain ⟨⟨i, rfl, hi⟩, haway⟩ := hwaits hlast hunanswered
      exact ⟨⟨i, rfl, hi.rests hrests huplink⟩, haway⟩
    · rw [hemitted, List.getLast?_concat]
      refine ⟨List.mem_append_left _ hsent, fun hlast _ => ?_⟩
      -- the tab sends another join, over another socket
      obtain rfl := Option.some.inj hlast
      have honce := hjoins.once
      unfold Session.joinedOver at honce
      rw [hemitted, List.map_append] at honce
      exact (List.disjoint_of_nodup_append honce (List.mem_map_of_mem hsent) (by simp)).elim
  · obtain rfl := List.mem_singleton.mp hm
    have hsame := hnext.sent
    rw [hafter, hbefore] at hsame
    rw [hsame, hrests.room, hbefore]
    refine ⟨List.mem_append_right _ (List.mem_singleton_self _), fun _ _ => ⟨?_, id⟩⟩
    rcases hsends with ⟨hemitted, -⟩ | ⟨other, hemitted, huplink, hpresented⟩
    · rw [hemitted] at hsame
      simp at hsame
    · obtain rfl : other = join := by simpa using hemitted.symm.trans hsame
      exact hcontinuity.sends hjoins hrests hbefore hafter hnext hpresented huplink

theorem returning_step (h : Returning past c) (hcontinuity : Continuity past c)
    (hcontinuity' : Continuity (past ++ [⟨c, t, c', out⟩]) c') (hothers : OthersPresentSent past c.shared t)
    {g : SessionStep} (hby : (session cfg).StepBy c c' out t g rest) :
    Returning (past ++ [⟨c, t, c', out⟩]) c' := by
  cases session_moves hby with
  | server t' s₁ g' hfires hby' hshared hturn =>
    exact returning_served h hcontinuity hothers hfires hby' hshared hturn
  | tab s₁ hfires hshared hpool hout hturn =>
    have hrests : ServerRests past c c' ⟨c, t, c', out⟩ := by
      refine ⟨by rw [hshared, hfires.room], ?_, hpool, ?_⟩
      · rw [hshared]
        cases hfires <;> rfl
      · rw [serverPast_concat, hturn, Option.toList_none, List.append_nil]
    have hsends := hfires.sends
    rw [← hshared] at hsends
    exact returning_tab h hcontinuity hcontinuity'.joins hrests rfl rfl hsends

/-! ## The segments that answer -/

/-- What the segments do that answer the join: it is let through to the limiter, and behind it the user gets its
seat back, under the same name and with the same role. -/
structure TakesBack (userId : UserId) (socket : SocketId) (payload : UserJoinPayload) (turn : SessionTurn) :
    Prop where
  received : ∀ i join, turn.trigger = .event (.arrive i) → turn.before.shared.uplink[i]? = some join →
    join.1 = socket → .admitted socket (.userJoin (some payload)) none ∈ turn.after.pool
  handled : ∀ data seen, turn.trigger = .task (.admitted socket (.userJoin (some data)) seen) .go →
    socket ∈ turn.before.shared.room.live → turn.before.shared.room.registered = true →
    .joinLimiter socket payload ∈ turn.after.pool ∧ turn.out = [] ∧
      turn.after.shared.room = turn.before.shared.room
  seated : ∀ data, turn.trigger = .task (.joinLimiter socket data) .allowed →
    ∀ u ∈ turn.before.shared.room.room.users, u.id = userId → u.connected = false →
      turn.after.shared.room.room.users = turn.before.shared.room.reseat userId socket ∧
      (socket ∈ turn.before.shared.room.live →
        ∃ m, .deliver socket m ∈ turn.out ∧ m.seat = some (userId, turn.before.shared.room.fresh))

/-- A join with the token of a user who is away gives the seat back, and says so. -/
theorem takeSeat_reseats {s : Server} (socket : SocketId) {payload : UserJoinPayload} {u : RoomUserInternal}
    (h : reconnectingUser s.room payload.reconnectToken = some u) :
    (takeSeat s socket payload).state.room.users = s.reseat u.id socket ∧
      (socket ∈ s.live →
        ∃ m, .deliver socket m ∈ (takeSeat s socket payload).out ∧ m.seat = some (u.id, s.fresh)) := by
  have hseats : s.room.seats payload = true := by
    unfold Room.seats
    rw [h]
    rfl
  obtain ⟨user, announced, users, fresh, hanswers⟩ := takeSeat_answers socket hseats
  have husers : (takeSeat s socket payload).state.room.users = users := congrArg RoomView.users hanswers.view
  cases hanswers.joins with
  | again _ hseating _ => cases hseating
  | reconnect payload' existing user hseating hexisting huser =>
    cases hseating
    obtain rfl := Option.some.inj (h.symm.trans hexisting)
    subst huser
    refine ⟨husers, fun hlive => ⟨.userJoined u.id u.displayName u.role
      (takeSeat s socket payload).state.room.mode (some s.fresh)
      (some (takeSeat s socket payload).state.room.yjsToken), mem_messagesTo.mp ?_, rfl⟩⟩
    rw [hanswers.out socket, reaches, if_pos ⟨rfl, hlive⟩]
    exact List.mem_append_left _ (List.mem_singleton_self _)
  | add payload' hseating hnew _ =>
    cases hseating
    rw [h] at hnew
    cases hnew

/-- The segments that answer a join that waits. -/
theorem Waits.takesBack {turn : SessionTurn} {payload : UserJoinPayload} (h : Waits past turn.before join i)
    (hledger : TokenLedger (serverPast past) (serverConf turn.before))
    (hunanswered : ∀ j ∈ issues (serverPast past), j.socket ≠ join.1)
    (hschema : userJoinSchema join.2 = some payload) {g : SessionStep}
    (hby : (session cfg).StepBy turn.before turn.after turn.out turn.trigger g rest) :
    TakesBack i.userId join.1 payload turn where
  received := by
    intro position other htrigger hunderway hsocket
    obtain rfl := h.sent other (List.mem_of_getElem? hunderway) (.inr hsocket)
    have hfire := hby.fire
    rw [htrigger] at hfire
    change handleSession cfg turn.before.shared (.arrive position) = some g at hfire
    simp only [handleSession, hunderway, hschema, handleEvent] at hfire
    split_ifs at hfire with hlive
    · cases hfire
      rw [hby.after]
      exact List.mem_append_right _ (List.mem_singleton_self _)
    · cases hfire
  handled := by
    intro data seen htrigger hlive hregistered
    have hm : .admitted join.1 (.userJoin (some data)) seen ∈ turn.before.pool :=
      hby.mem_of_taken (by rw [htrigger]; exact List.mem_singleton_self _)
    have hdata := (h.goesOn _ hm join.1 data rfl (.inr rfl)).2
    obtain rfl := Option.some.inj (hschema.symm.trans hdata)
    have hfire := hby.fire
    rw [htrigger] at hfire
    change ((server cfg).fire turn.before.shared.room
      (.task (.admitted join.1 (.userJoin (some payload)) seen) .go)).map (ofServer turn.before.shared) = some g
        at hfire
    rw [fire_handle_join hlive hregistered (hledger.unseated hunanswered)] at hfire
    cases hfire
    refine ⟨?_, hby.out, by rw [hby.shared]; rfl⟩
    rw [hby.after]
    exact List.mem_append_right _ (List.mem_singleton_self _)
  seated := by
    intro data htrigger u hu hid haway
    have hm : .joinLimiter join.1 data ∈ turn.before.pool :=
      hby.mem_of_taken (by rw [htrigger]; exact List.mem_singleton_self _)
    have hdata := (h.goesOn _ hm join.1 data rfl (.inr rfl)).2
    obtain ⟨i', hlast, htoken, -⟩ := hledger.current u hu
    rw [hid, h.last] at hlast
    obtain rfl := Option.some.inj hlast
    have hpresented : data.reconnectToken = some (.wellFormed u.reconnectToken) := by
      rw [userJoinSchema_token hdata, h.presented, htoken]
    have hfound := hledger.reconnecting hu haway hpresented
    have hfire := hby.fire
    rw [htrigger] at hfire
    obtain rfl : ofServer turn.before.shared (takeSeat turn.before.shared.room join.1 data) = g :=
      Option.some.inj hfire
    obtain ⟨husers, hanswer⟩ := takeSeat_reseats join.1 hfound
    rw [hby.shared, hby.out, ← hid]
    exact ⟨husers, hanswer⟩

/-! ## Runs -/

theorem returning_run {mode : RoomMode} {now : Time} {displayName : Option JsString}
    {acts : List SessionAct} (hreach : SessionReaches cfg mode now displayName acts c out)
    (hothers : OthersHonest ((session cfg).history (initialSession cfg mode now displayName) acts))
    (hstores : ∀ browser now, .event (.read browser now) ∈ acts → browser.writes .reconnectToken = true) :
    Continuity ((session cfg).history (initialSession cfg mode now displayName) acts) c ∧
      Returning ((session cfg).history (initialSession cfg mode now displayName) acts) c := by
  refine Machine.run_history_preserves
    (P := fun past c t => OthersPresentSent past c.shared t ∧ StoresTokens t)
    (I := fun past c => Continuity past c ∧ Returning past c) ?_
    ⟨initial_continuity cfg mode now displayName, fun _ hm => absurd hm List.not_mem_nil⟩ ?_ hreach
  · intro past c c' out t g rest h hP hby
    have hnext := continuity_step h.1 hP.1 hP.2 hby
    exact ⟨hnext, returning_step h.2 h.1 hnext hP.1 hby⟩
  · intro past turn later hsplit
    refine ⟨hothers past turn later hsplit, fun browser now htrigger => hstores browser now ?_⟩
    exact Machine.event_of_history (hsplit ▸ List.mem_append_right _ List.mem_cons_self) htrigger

/-- The join over the socket has been sent and not been answered. -/
def UnderWay (c : SessionConf) (socket : SocketId) : Prop :=
  (∃ join ∈ c.shared.uplink, join.1 = socket) ∨ ∃ task ∈ c.pool, task.joinsOver socket = true

/-- **Coming back.** In every run of the server and a tab in which the others present only tokens that were sent
to them and the tab can store the tokens it receives: once its latest join has been answered, the tab holds the
token that its user has in the room. The next join that it sends gets to the limiter, and behind it takes the
seat of this user again if the user is away, which it still is if it was when the join was sent. -/
theorem session_continuity {cfg : Config} {mode : RoomMode} {now : Time} {displayName : Option JsString}
    {acts : List SessionAct} {c : SessionConf} {out : List Effect}
    (hreach : SessionReaches cfg mode now displayName acts c out)
    (hothers : OthersHonest ((session cfg).history (initialSession cfg mode now displayName) acts))
    (hstores : ∀ browser now, .event (.read browser now) ∈ acts → browser.writes .reconnectToken = true) :
    (∀ k, c.shared.answered = some k → c.shared.emitted.getLast?.map Prod.fst = some k →
      ∃ userId, c.shared.tab.state.currentUserId = some userId ∧ ∀ u ∈ c.shared.room.room.users,
        u.id = userId → c.shared.tab.storage.reconnectToken = some u.reconnectToken) ∧
    ∀ past turn later, (session cfg).history (initialSession cfg mode now displayName) acts = past ++ turn :: later →
      ∀ sending ∈ past, ∀ userId join payload, SendsNext sending userId join →
        userJoinSchema join.2 = some payload → turn.before.shared.emitted.getLast? = some join →
        UnderWay turn.before join.1 →
        TakesBack userId join.1 payload turn ∧
          (Away sending.before.shared.room userId → Away turn.before.shared.room userId) := by
  refine ⟨fun k hanswered hlatest => ?_, ?_⟩
  · have h := continuity_run hreach hothers hstores
    obtain ⟨join, hlast, rfl⟩ := Option.map_eq_some_iff.mp hlatest
    obtain ⟨i, hi, hsocket, hstored, hcurrent⟩ := h.answered _ hanswered
    refine ⟨i.userId, hcurrent, fun u hu hid => ?_⟩
    obtain ⟨i', hlastIssued, htoken, -⟩ := h.ledger.current u hu
    rw [hid, (h.latest join hlast i hi hsocket).1] at hlastIssued
    rw [hstored, Option.some.inj hlastIssued, htoken]
  · intro past turn later hsplit sending hm userId join payload hnext hschema hlast hunderway
    have hturn : turn ∈ (session cfg).history (initialSession cfg mode now displayName) acts := by
      rw [hsplit]
      exact List.mem_append_right _ List.mem_cons_self
    obtain ⟨g, rest, hby⟩ := Machine.history_by hturn
    obtain ⟨before, a, after, rfl, rfl, hrun, -, -⟩ := Machine.history_split hsplit
    have hothers' : OthersHonest ((session cfg).history (initialSession cfg mode now displayName) before) := by
      intro past' turn' later' hsplit'
      refine hothers past' turn' (later' ++ turn :: later) ?_
      rw [hsplit, hsplit', List.append_assoc, List.cons_append]
    obtain ⟨hcontinuity, hreturning⟩ := returning_run hrun hothers' fun browser now hread =>
      hstores browser now (List.mem_append_left _ hread)
    obtain ⟨hsent, hwaits⟩ := hreturning sending hm userId join hnext
    have hunanswered := hcontinuity.joins.unanswered (List.mem_map_of_mem hsent) hunderway
    obtain ⟨⟨i, rfl, hi⟩, haway⟩ := hwaits hlast hunanswered
    exact ⟨hi.takesBack hcontinuity.ledger hunanswered hschema hby, haway⟩

/-- The connection of the tab breaks, and the server notices before it accepts the next one. -/
def exampleBreak : List SessionAct :=
  exampleSession ++ [.event (.page .disconnect), .event (.server (.disconnect 0)), .event .accept]

/-- The tab is back, and its join gets to the limiter. -/
def exampleBack : List SessionAct :=
  exampleBreak ++ [.event (.connected plainBrowser), .event (.arrive 0), .resume 0 .go]

def nextJoin : UserJoinPayload := ⟨js "guest", some (.wellFormed 2)⟩

theorem session_continuity_example : ∃ c out past turn, ∃ sending ∈ past,
    SessionReaches plainConfig .collaboration 0 (some (js "guest")) (exampleBack ++ [.resume 0 .allowed]) c out ∧
    (session plainConfig).history (initialSession plainConfig .collaboration 0 (some (js "guest")))
      (exampleBack ++ [.resume 0 .allowed]) = past ++ [turn] ∧
    (sending.before.shared.room.room.users.map fun u => (u.id, u.connected)) = [(1, false)] ∧
    SendsNext sending 1 (1, nextJoin) ∧
    turn.trigger = .task (.joinLimiter 1 nextJoin) .allowed ∧
    (c.shared.room.room.users.map fun u => (u.id, u.connected, u.socketId)) = [(1, true, some 1)] ∧
    TakesBack 1 1 nextJoin turn ∧ Away turn.before.shared.room 1 := by
  obtain ⟨c₁, out₁, c₂, out₂, c₃, out₃, c, out₄, hbefore, hsend, hgoesOn, hseat, haway, hnext, hback, hlast,
      htask⟩ : ∃ c₁ out₁ c₂ out₂ c₃ out₃ c out₄,
      SessionReaches plainConfig .collaboration 0 (some (js "guest")) exampleBreak c₁ out₁ ∧
      (session plainConfig).step c₁ (.event (.connected plainBrowser)) = some (c₂, out₂) ∧
      (session plainConfig).run c₂ [.event (.arrive 0), .resume 0 .go] = some (c₃, out₃) ∧
      (session plainConfig).step c₃ (.resume 0 .allowed) = some (c, out₄) ∧
      (c₁.shared.room.room.users.map fun u => (u.id, u.connected)) = [(1, false)] ∧
      SendsNext ⟨c₁, .event (.connected plainBrowser), c₂, out₂⟩ 1 (1, nextJoin) ∧
      (c.shared.room.room.users.map fun u => (u.id, u.connected, u.socketId)) = [(1, true, some 1)] ∧
      c₃.shared.emitted.getLast? = some (1, nextJoin) ∧ c₃.pool = [.joinLimiter 1 nextJoin] :=
    ⟨_, _, _, _, _, _, _, _, rfl, rfl, rfl, rfl, rfl, ⟨⟨0, rfl, rfl⟩, rfl, rfl⟩, rfl, rfl, rfl⟩
  have htrigger : Machine.trigger c₃ (.resume 0 .allowed : SessionAct) =
      some (.task (.joinLimiter 1 nextJoin) .allowed) := by simp [Machine.trigger, htask]
  have hto := Machine.run_join (Machine.run_single hsend) hgoesOn
  have hbetween : SessionReaches plainConfig .collaboration 0 (some (js "guest")) exampleBack c₃ _ :=
    Machine.run_join hbefore hto
  have hreach := Machine.run_join hbetween (Machine.run_single hseat)
  have hsending : (session plainConfig).history
      (initialSession plainConfig .collaboration 0 (some (js "guest"))) exampleBack = _ :=
    Machine.history_at hbefore rfl hsend
  have hhistory : (session plainConfig).history (initialSession plainConfig .collaboration 0 (some (js "guest")))
      (exampleBack ++ [.resume 0 .allowed]) = _ := Machine.history_at hbetween htrigger hseat
  have hm : ⟨c₁, .event (.connected plainBrowser), c₂, out₂⟩ ∈ (session plainConfig).history
      (initialSession plainConfig .collaboration 0 (some (js "guest"))) exampleBack := by
    rw [hsending]
    exact List.mem_append_right _ List.mem_cons_self
  have hothers : OthersHonest ((session plainConfig).history
      (initialSession plainConfig .collaboration 0 (some (js "guest"))) (exampleBack ++ [.resume 0 .allowed])) := by
    intro past turn later hsplit socket payload τ hevent
    have hacts := Machine.event_of_history (hsplit ▸ List.mem_append_right _ List.mem_cons_self) hevent
    simp [exampleBack, exampleBreak, exampleSession] at hacts
  have hstores : ∀ browser now, .event (.read browser now) ∈ (exampleBack ++ [.resume 0 .allowed] : List SessionAct) →
      browser.writes .reconnectToken = true := by
    intro browser now hacts
    simp [exampleBack, exampleBreak, exampleSession] at hacts
    rw [hacts.1]
    rfl
  obtain ⟨htakes, hkept⟩ := (session_continuity hreach hothers hstores).2 _ _ _ hhistory _ hm 1 (1, nextJoin)
    nextJoin hnext rfl hlast (.inr ⟨.joinLimiter 1 nextJoin, by rw [htask]; exact List.mem_singleton_self _, rfl⟩)
  refine ⟨c, _, _, _, _, hm, hreach, hhistory, haway, hnext, rfl, hback, htakes, hkept ?_⟩
  intro u hu _
  have hm' : (u.id, u.connected) ∈ [(1, false)] := haway ▸ List.mem_map_of_mem hu
  exact (Prod.mk.inj (List.mem_singleton.mp hm')).2

end CodeShare
