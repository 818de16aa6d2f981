import CodeShare.Properties.TabSeats

/-! # The token of a tab

A tab stores the token of the last answer that it received. As long as the others present only what was sent to
them, nobody presents a token that the tab has got before its next join does.
-/

namespace CodeShare
open Tasks
set_option autoImplicit false

/-! ## What is under way -/

/-- A join that is under way presents the token. -/
def Carries (c : SessionConf) (τ : Token) : Prop :=
  (∃ join ∈ c.shared.uplink, join.2.reconnectToken = some (.wellFormed τ)) ∨
    ∃ task ∈ c.pool, ∃ socket payload, task.join = some (socket, payload) ∧
      payload.reconnectToken = some (.wellFormed τ)

/-- The others present only tokens that were sent to one of them. -/
def OthersPresentSent (past : List SessionTurn) (s : Session) (t : SessionTrigger) : Prop :=
  ∀ socket payload τ, t = .event (.server (.receive socket (.userJoin (some payload)))) →
    payload.reconnectToken = some (.wellFormed τ) →
    ∃ k m, k ∉ s.opened ∧ .deliver k m ∈ past.flatMap Turn.out ∧ τ ∈ m.tokens

/-- The tokens that the tab receives are stored. -/
def StoresTokens (t : SessionTrigger) : Prop :=
  ∀ browser now, t = .event (.read browser now) → browser.writes .reconnectToken = true

structure Continuity (past : List SessionTurn) (c : SessionConf) : Prop where
  joins : TabJoins past c
  ledger : TokenLedger (serverPast past) (serverConf c)
  outs : ∀ effect ∈ past.flatMap Turn.out, effect ∈ (serverPast past).flatMap Turn.out
  carried : ∀ τ, Carries c τ → τ < c.shared.room.fresh
  stored : ∀ τ, c.shared.tab.storage.reconnectToken = some τ → τ < c.shared.room.fresh
  /-- what answers on the way to the tab say was issued -/
  told : ∀ message ∈ c.shared.downlink, message.1 ∈ c.shared.opened ∧ ∀ seat, message.2.seat = some seat →
    ∃ i ∈ issues (serverPast past), i.socket = message.1 ∧ i.userId = seat.1 ∧ i.token = seat.2
  /-- a token that the last join of the tab has got is the last one of its user, and nobody presents it -/
  latest : ∀ join, c.shared.emitted.getLast? = some join → ∀ i ∈ issues (serverPast past),
    i.socket = join.1 →
      lastIssued (issues (serverPast past)) i.userId = some i ∧ ¬ Carries c i.token
  answered : ∀ k, c.shared.answered = some k → ∃ i ∈ issues (serverPast past), i.socket = k ∧
    c.shared.tab.storage.reconnectToken = some i.token ∧
    c.shared.tab.state.currentUserId = some i.userId

variable {cfg : Config} {past : List SessionTurn} {c c' : SessionConf} {out : List Effect}
  {t : SessionTrigger} {rest : List Task}

/-- A join of the tab that is new has got nothing. -/
theorem TabJoins.unissued {turn : SessionTurn} (h' : TabJoins (past ++ [turn]) c')
    (hrests : ServerRests past c c' turn) {join : SentJoin}
    (hemitted : c'.shared.emitted = c.shared.emitted ++ [join])
    (huplink : c'.shared.uplink = c.shared.uplink ++ [join]) :
    ∀ i ∈ issues (serverPast past), i.socket ≠ join.1 := by
  intro i hi hsocket
  have hover : join.1 ∈ c'.shared.joinedOver := by
    unfold Session.joinedOver
    rw [hemitted]
    simp
  have hcounted := h'.counted join.1 (.inl (h'.known _ hover))
  have honce := List.nodup_iff_count_le_one.mp h'.once join.1
  have hissued : 0 < (issues (serverPast past)).countP fun i => i.socket = join.1 :=
    List.countP_pos_iff.mpr ⟨i, hi, by simpa using hsocket⟩
  have hsent : 0 < c'.shared.uplink.countP fun other => other.1 = join.1 :=
    List.countP_pos_iff.mpr ⟨join, by rw [huplink]; simp, by simp⟩
  unfold joinsCounted at hcounted
  rw [hrests.past] at hcounted
  omega

/-- What follows from the joins and the ledger being kept, when the server rests. -/
theorem Continuity.tab {turn : SessionTurn} (h : Continuity past c) (hjoins : TabJoins (past ++ [turn]) c')
    (hledger : TokenLedger (serverPast (past ++ [turn])) (serverConf c'))
    (hrests : ServerRests past c c' turn) (hout : turn.out = []) {sent : Option SentJoin}
    (hpresented : ∀ join ∈ sent,
      join.2.reconnectToken = c.shared.tab.storage.reconnectToken.map .wellFormed)
    (huplink : c'.shared.uplink = c.shared.uplink ++ sent.toList)
    (hemitted : c'.shared.emitted = c.shared.emitted ++ sent.toList)
    (hdownlink : c'.shared.downlink = c.shared.downlink)
    (hanswered : c'.shared.answered = c.shared.answered)
    (hkeeps : KeepsSession c.shared.tab c'.shared.tab) : Continuity (past ++ [turn]) c' := by
  have hcarries : ∀ τ, Carries c' τ → Carries c τ ∨
      ∃ join ∈ sent, c.shared.tab.storage.reconnectToken = some τ := by
    rintro τ (⟨join, hm, hτ⟩ | ⟨task, hm, hrest⟩)
    · rw [huplink] at hm
      rcases List.mem_append.mp hm with hm | hm
      · exact .inl (.inl ⟨join, hm, hτ⟩)
      · have hsent : join ∈ sent := Option.mem_toList.mp hm
        rw [hpresented join hsent, Option.map_eq_some_iff] at hτ
        obtain ⟨τ', hstored, heq⟩ := hτ
        cases heq
        exact .inr ⟨join, hsent, hstored⟩
    · exact .inl (.inr ⟨task, hrests.pool.mem_iff.mp hm, hrest⟩)
  refine ⟨hjoins, hledger, ?_, ?_, ?_, ?_, ?_, ?_⟩
  · intro effect hm
    rw [List.flatMap_append, List.flatMap_singleton, hout, List.append_nil] at hm
    rw [hrests.past]
    exact h.outs effect hm
  · intro τ hτ
    rw [hrests.room]
    rcases hcarries τ hτ with hτ | ⟨-, -, hτ⟩
    · exact h.carried τ hτ
    · exact h.stored τ hτ
  · intro τ hτ
    rw [hkeeps.reconnectToken] at hτ
    rw [hrests.room]
    exact h.stored τ hτ
  · rw [hdownlink, hrests.opened, hrests.past]
    exact h.told
  · intro join hlast i hi hsocket
    rw [hrests.past] at hi ⊢
    cases sent with
    | some join' =>
      rw [hemitted, Option.toList_some, List.getLast?_concat] at hlast
      obtain rfl := Option.some.inj hlast
      exact absurd hsocket (hjoins.unissued hrests hemitted huplink i hi)
    | none =>
      rw [hemitted, Option.toList_none, List.append_nil] at hlast
      obtain ⟨hlastIssued, hnot⟩ := h.latest join hlast i hi hsocket
      refine ⟨hlastIssued, fun hcarried => ?_⟩
      rcases hcarries _ hcarried with hcarried | ⟨join', hnone, -⟩
      · exact hnot hcarried
      · cases hnone
  · rw [hanswered, hrests.past, hkeeps.reconnectToken, hkeeps.state]
    exact h.answered

/-! ## Segments of the server -/

theorem userJoinSchema_token {data payload : UserJoinPayload} (h : userJoinSchema data = some payload) :
    payload.reconnectToken = data.reconnectToken := by
  unfold userJoinSchema at h
  dsimp only at h
  split_ifs at h
  cases h
  rfl

/-- A join that is received comes from somebody else, or from the tab. -/
theorem ServerFires.join_origin {t' : ServerTrigger} {s s₁ : Session} {g : Step} {socket : SocketId}
    {payload : UserJoinPayload} (h : ServerFires cfg s t t' s₁ g)
    (ht' : t' = .event (.receive socket (.userJoin (some payload)))) :
    t = .event (.server (.receive socket (.userJoin (some payload)))) ∨
      ∃ join ∈ s.uplink, join.1 = socket ∧ userJoinSchema join.2 = some payload := by
  cases h with
  | event e g hother hfire =>
    rw [Trigger.event.inj ht']
    exact .inl rfl
  | accept g hfire => cases Trigger.event.inj ht'
  | arrive i join g hunderway hfire =>
    obtain ⟨hsocket, hevent⟩ := ServerEvent.receive.inj (Trigger.event.inj ht')
    exact .inr ⟨join, List.mem_of_getElem? hunderway, hsocket, ClientEvent.userJoin.inj hevent⟩
  | task task o g hfire => cases ht'

/-- A join that goes on was under way, or has been sent by somebody else. -/
theorem carries_after {t' : ServerTrigger} {s₁ : Session} {g : Step} {τ : Token}
    (hfires : ServerFires cfg c.shared t t' s₁ g)
    (hby : (server cfg).StepBy (serverConf c) (serverConf c') out t' g rest)
    (hshared : c'.shared = (ofServer s₁ g).state) (h : Carries c' τ) :
    Carries c τ ∨ ∃ socket payload, t = .event (.server (.receive socket (.userJoin (some payload)))) ∧
      payload.reconnectToken = some (.wellFormed τ) := by
  rcases h with ⟨join, hm, hτ⟩ | ⟨task, hm, socket, payload, hjoin, hτ⟩
  · refine .inl (.inl ⟨join, ?_, hτ⟩)
    rw [hshared] at hm
    cases hfires with
    | arrive i join' g hunderway hfire => exact (List.eraseIdx_sublist _ _).subset hm
    | _ => exact hm
  · change task ∈ (serverConf c').pool at hm
    rcases hby.mem_after hm with hm | hm
    · exact .inl (.inr ⟨task, hby.mem_of_rest hm, socket, payload, hjoin, hτ⟩)
    · rcases fire_joins hby.fire hm hjoin with hreceived | ⟨task', hm', hjoin'⟩
      · rcases hfires.join_origin hreceived with htrigger | ⟨join, hunderway, -, hschema⟩
        · exact .inr ⟨socket, payload, htrigger, hτ⟩
        · exact .inl (.inl ⟨join, hunderway, (userJoinSchema_token hschema).symm.trans hτ⟩)
      · exact .inl (.inr ⟨task', hby.mem_of_taken hm', socket, payload, hjoin', hτ⟩)

theorem Effect.toTab_eq_some {opened : List SocketId} {effect : Effect} {message : SocketId × Message}
    (h : effect.toTab opened = some message) :
    message.1 ∈ opened ∧ effect = .deliver message.1 message.2 := by
  cases effect with
  | deliver socket m =>
    simp only [Effect.toTab] at h
    split_ifs at h with hopened
    cases h
    exact ⟨hopened, rfl⟩
  | _ => cases h

/-- A token that somebody presents was sent to somebody, and if it was issued, then there. -/
theorem Continuity.sent_elsewhere (h : Continuity past c) (hothers : OthersPresentSent past c.shared t)
    {socket : SocketId} {payload : UserJoinPayload} {τ : Token}
    (htrigger : t = .event (.server (.receive socket (.userJoin (some payload)))))
    (hτ : payload.reconnectToken = some (.wellFormed τ)) :
    τ < c.shared.room.fresh ∧ ∀ i ∈ issues (serverPast past), i.token = τ → i.socket ∉ c.shared.opened := by
  obtain ⟨k, m, hk, hm, hτ⟩ := hothers socket payload τ htrigger hτ
  obtain ⟨hlt, hsocket⟩ := h.ledger.sent k m (h.outs _ hm) τ hτ
  refine ⟨hlt, fun i hi heq => ?_⟩
  rw [hsocket i hi heq]
  exact hk

theorem Continuity.server (h : Continuity past c) (hjoins : TabJoins (past ++ [⟨c, t, c', out⟩]) c')
    (hledger : TokenLedger (serverPast (past ++ [⟨c, t, c', out⟩])) (serverConf c'))
    (hothers : OthersPresentSent past c.shared t) {t' : ServerTrigger} {s₁ : Session} {g : Step}
    (hfires : ServerFires cfg c.shared t t' s₁ g)
    (hby : (server cfg).StepBy (serverConf c) (serverConf c') out t' g rest)
    (hshared : c'.shared = (ofServer s₁ g).state)
    (hturn : serverTurn ⟨c, t, c', out⟩ = some ⟨serverConf c, t', serverConf c', out⟩) :
    Continuity (past ++ [⟨c, t, c', out⟩]) c' := by
  have hpast : serverPast (past ++ [⟨c, t, c', out⟩]) =
      serverPast past ++ [⟨serverConf c, t', serverConf c', out⟩] := by
    rw [serverPast_concat, hturn]
    rfl
  have hissues : issues (serverPast (past ++ [⟨c, t, c', out⟩])) =
      issues (serverPast past) ++ (issue c.shared.room t').toList := by
    rw [hpast, issues_concat]
    rfl
  have hroom : c'.shared.room = g.state := congrArg Session.room hshared
  have htab : c'.shared.tab = c.shared.tab := by rw [hshared]; cases hfires <;> rfl
  have hemitted : c'.shared.emitted = c.shared.emitted := by rw [hshared]; cases hfires <;> rfl
  have hanswered : c'.shared.answered = c.shared.answered := by rw [hshared]; cases hfires <;> rfl
  have hstep := fire_tokens h.ledger.roster.fresh hby.fire
  have hfresh : c.shared.room.fresh ≤ c'.shared.room.fresh := by
    rw [hroom]
    cases hstep with
    | kept _ hfresh _ _ => exact hfresh
    | issued i _ hfresh _ _ _ => exact (hfresh.1.trans_lt hfresh.2).le
  have hcarries : ∀ τ, Carries c' τ → τ < c.shared.room.fresh := by
    intro τ hτ
    rcases carries_after hfires hby hshared hτ with hτ | ⟨socket, payload, htrigger, hτ⟩
    · exact h.carried τ hτ
    · exact (h.sent_elsewhere hothers htrigger hτ).1
  refine ⟨hjoins, hledger, ?_, ?_, ?_, ?_, ?_, ?_⟩
  · intro effect hm
    rw [List.flatMap_append, List.mem_append] at hm
    rw [hpast, List.flatMap_append, List.mem_append]
    exact hm.imp (h.outs effect) id
  · exact fun τ hτ => (hcarries τ hτ).trans_le hfresh
  · rw [htab]
    exact fun τ hτ => (h.stored τ hτ).trans_le hfresh
  · intro message hm
    have hdown : c'.shared.downlink = c.shared.downlink ++ g.out.filterMap (Effect.toTab s₁.opened) := by
      rw [hshared]
      cases hfires <;> rfl
    have hopened : c'.shared.opened = s₁.opened := by rw [hshared]; rfl
    have hkept : ∀ k ∈ c.shared.opened, k ∈ s₁.opened := by
      cases hfires with
      | accept g hfire => exact fun k hk => List.mem_append_left _ hk
      | _ => exact fun k hk => hk
    rw [hdown] at hm
    rw [hopened]
    rcases List.mem_append.mp hm with hm | hm
    · obtain ⟨hk, htold⟩ := h.told message hm
      refine ⟨hkept _ hk, fun seat hseat => ?_⟩
      obtain ⟨i, hi, hrest⟩ := htold seat hseat
      rw [hissues]
      exact ⟨i, List.mem_append_left _ hi, hrest⟩
    · obtain ⟨effect, heffect, htoTab⟩ := List.mem_filterMap.mp hm
      obtain ⟨hk, rfl⟩ := Effect.toTab_eq_some htoTab
      refine ⟨hk, fun seat hseat => ?_⟩
      obtain ⟨u, hu, hid, hsocket, htoken⟩ := fire_names hby.fire (mem_messagesTo.mpr heffect) hseat
      rw [← hroom] at hu
      obtain ⟨i, hi, hik, hiu, hiτ⟩ := hledger.issued_to hu hsocket
      exact ⟨i, hi, hik, hiu.trans hid, hiτ.trans htoken⟩
  · intro join hlast i hi hsocket
    rw [hemitted] at hlast
    rw [hissues] at hi ⊢
    have hknown : join.1 ∈ c.shared.opened :=
      h.joins.known _ (List.mem_map_of_mem (List.mem_of_getLast? hlast))
    cases hstep with
    | kept hissue _ _ _ =>
      change issue c.shared.room t' = none at hissue
      rw [hissue, Option.toList_none, List.append_nil] at hi ⊢
      obtain ⟨hlastIssued, hnot⟩ := h.latest join hlast i hi hsocket
      refine ⟨hlastIssued, fun hcarried => ?_⟩
      rcases carries_after hfires hby hshared hcarried with hcarried | ⟨socket, payload, htrigger, hτ⟩
      · exact hnot hcarried
      · exact (h.sent_elsewhere hothers htrigger hτ).2 i hi rfl (hsocket ▸ hknown)
    | issued j hissue hnew _ _ huser =>
      change issue c.shared.room t' = some j at hissue
      rw [hissue, Option.toList_some] at hi ⊢
      have hcarried_lt : ∀ τ, Carries c' τ → τ < j.token := fun τ hτ => (hcarries τ hτ).trans_le hnew.1
      rcases List.mem_append.mp hi with hi | hi
      · obtain ⟨hlastIssued, hnot⟩ := h.latest join hlast i hi hsocket
        have hne : i.userId ≠ j.userId := by
          intro hsame
          rcases huser with ⟨existing, haccepted⟩ | henrols
          · -- whoever got `j` would have presented the token of `i`
            obtain ⟨i', hlast', htoken, -⟩ := h.ledger.current existing haccepted.mem
            rw [haccepted.id, ← hsame] at hlast'
            obtain rfl := Option.some.inj (hlastIssued.symm.trans hlast')
            obtain ⟨payload, rfl, hpresented⟩ := haccepted.trigger
            rw [← htoken] at hpresented
            refine hnot (.inr ⟨.joinLimiter j.socket payload, ?_, j.socket, payload, rfl, hpresented⟩)
            exact hby.mem_of_taken (List.mem_singleton_self _)
          · have hlt := h.ledger.ids i hi
            rw [hsame] at hlt
            exact absurd hlt henrols.fresh.not_gt
        refine ⟨by rw [lastIssued_append_of_ne hne]; exact hlastIssued, fun hcarried => ?_⟩
        rcases carries_after hfires hby hshared hcarried with hcarried | ⟨socket, payload, htrigger, hτ⟩
        · exact hnot hcarried
        · exact (h.sent_elsewhere hothers htrigger hτ).2 i hi rfl (hsocket ▸ hknown)
      · obtain rfl := List.mem_singleton.mp hi
        exact ⟨lastIssued_append _ i, fun hcarried => (hcarried_lt _ hcarried).false⟩
  · intro k hk
    rw [hanswered] at hk
    obtain ⟨i, hi, hrest⟩ := h.answered k hk
    rw [hissues, htab]
    exact ⟨i, List.mem_append_left _ hi, hrest⟩

/-! ## Messages -/

section
variable {tab : Tab} {browser : Browser} {m : Message}

/-- An answer that is handled is stored. -/
theorem handleMessage_seat (now : Time) {seat : UserId × Token} (hbound : tab.bound = true) (hseat : m.seat = some seat)
    (hwrites : browser.writes .reconnectToken = true) :
    (handleMessage browser now tab m).storage.reconnectToken = some seat.2 ∧
      (handleMessage browser now tab m).state.currentUserId = some seat.1 := by
  unfold handleMessage
  rw [if_pos hbound]
  cases m with
  | userJoined userId displayName role mode reconnectToken yjsToken =>
    cases reconnectToken with
    | none => cases hseat
    | some τ =>
      cases hseat
      simp [storeTokens, storeSessionValue, hwrites, roomReducer]
  | _ => cases hseat

/-- Any other message leaves who the tab is. -/
theorem handleMessage_other (browser : Browser) (now : Time) (tab : Tab) (h : tab.bound = false ∨ m.seat = none) :
    (handleMessage browser now tab m).storage.reconnectToken = tab.storage.reconnectToken ∧
      (handleMessage browser now tab m).state.currentUserId = tab.state.currentUserId := by
  unfold handleMessage
  rcases h with hbound | hseat
  · rw [hbound]
    exact ⟨rfl, rfl⟩
  · split_ifs
    · cases m with
      | userJoined userId displayName role mode reconnectToken yjsToken =>
        cases reconnectToken with
        | none => simp [storeTokens, storeSessionValue, roomReducer]
        | some τ => cases hseat
      | _ => exact ⟨rfl, rfl⟩
    · exact ⟨rfl, rfl⟩

end

/-- Something is taken from the connection, and the tab may have learnt who it is. -/
theorem Continuity.taken {turn : SessionTurn} (h : Continuity past c) (hjoins : TabJoins (past ++ [turn]) c')
    (hledger : TokenLedger (serverPast (past ++ [turn])) (serverConf c'))
    (hrests : ServerRests past c c' turn) (hout : turn.out = [])
    (huplink : c'.shared.uplink.Sublist c.shared.uplink) (hemitted : c'.shared.emitted = c.shared.emitted)
    (hdownlink : c'.shared.downlink.Sublist c.shared.downlink)
    (hstored : ∀ τ, c'.shared.tab.storage.reconnectToken = some τ → τ < c.shared.room.fresh)
    (hanswered : ∀ k, c'.shared.answered = some k → ∃ i ∈ issues (serverPast past), i.socket = k ∧
      c'.shared.tab.storage.reconnectToken = some i.token ∧
      c'.shared.tab.state.currentUserId = some i.userId) : Continuity (past ++ [turn]) c' := by
  have hcarries : ∀ τ, Carries c' τ → Carries c τ := by
    rintro τ (⟨join, hm, hτ⟩ | ⟨task, hm, hrest⟩)
    · exact .inl ⟨join, huplink.subset hm, hτ⟩
    · exact .inr ⟨task, hrests.pool.mem_iff.mp hm, hrest⟩
  refine ⟨hjoins, hledger, ?_, ?_, ?_, ?_, ?_, ?_⟩
  · intro effect hm
    rw [List.flatMap_append, List.flatMap_singleton, hout, List.append_nil] at hm
    rw [hrests.past]
    exact h.outs effect hm
  · rw [hrests.room]
    exact fun τ hτ => h.carried τ (hcarries τ hτ)
  · rw [hrests.room]
    exact hstored
  · rw [hrests.opened, hrests.past]
    exact fun message hm => h.told message (hdownlink.subset hm)
  · rw [hemitted, hrests.past]
    intro join hlast i hi hsocket
    obtain ⟨hlastIssued, hnot⟩ := h.latest join hlast i hi hsocket
    exact ⟨hlastIssued, fun hcarried => hnot (hcarries _ hcarried)⟩
  · rw [hrests.past]
    exact hanswered

theorem continuity_step (h : Continuity past c) (hothers : OthersPresentSent past c.shared t)
    (hstores : StoresTokens t) {g : SessionStep} (hby : (session cfg).StepBy c c' out t g rest) :
    Continuity (past ++ [⟨c, t, c', out⟩]) c' := by
  have hjoins := tabJoins_step h.joins hby
  have hledger := sessionLedger_step h.ledger hby
  cases session_moves hby with
  | server t' s₁ g' hfires hby' hshared hturn =>
    exact h.server hjoins hledger hothers hfires hby' hshared hturn
  | tab s₁ hfires hshared hpool hout hturn =>
    have hrests : ServerRests past c c' ⟨c, t, c', out⟩ := by
      refine ⟨?_, ?_, hpool, ?_⟩
      · rw [hshared, hfires.room]
      · rw [hshared]
        cases hfires <;> rfl
      · rw [serverPast_concat, hturn, Option.toList_none, List.append_nil]
    cases hfires with
    | connected browser k tab' sent hpending htab =>
      have hpresented : ∀ join ∈ sent,
          join.2.reconnectToken = c.shared.tab.storage.reconnectToken.map .wellFormed := by
        rintro join rfl
        cases handleTab_marks htab
        assumption
      refine h.tab hjoins hledger hrests hout hpresented ?_ ?_ ?_ ?_ ?_ <;> rw [hshared]
      exact handleTab_keeps htab nofun
    | page e tab' sent hlocal htab =>
      have hpresented : ∀ join ∈ sent,
          join.2.reconnectToken = c.shared.tab.storage.reconnectToken.map .wellFormed := by
        rintro join rfl
        cases handleTab_marks htab
        assumption
      refine h.tab hjoins hledger hrests hout hpresented ?_ ?_ ?_ ?_ ?_ <;> rw [hshared]
      refine handleTab_keeps htab ?_
      rintro browser now m rfl
      cases hlocal
    | lost i join hunderway =>
      refine h.taken hjoins hledger hrests hout ?_ ?_ ?_ ?_ ?_ <;> rw [hshared]
      · exact List.eraseIdx_sublist _ _
      · exact h.stored
      · exact h.answered
    | read browser now k m rest hunderway hsocket =>
      have hm : (k, m) ∈ c.shared.downlink := by rw [hunderway]; exact List.mem_cons_self
      have hrest : rest.Sublist c.shared.downlink := by rw [hunderway]; exact List.sublist_cons_self _ _
      have hwrites : browser.writes .reconnectToken = true := hstores browser now rfl
      cases hseat : m.seat with
      | none =>
        obtain ⟨htoken, huser⟩ := handleMessage_other browser now c.shared.tab (.inr hseat)
        refine h.taken hjoins hledger hrests hout ?_ ?_ ?_ ?_ ?_ <;> rw [hshared]
        · exact hrest
        · rw [htoken]
          exact h.stored
        · rw [htoken, huser, hseat, Option.isSome_none, Bool.and_false]
          exact h.answered
      | some seat =>
        cases hbound : c.shared.tab.bound with
        | false =>
          obtain ⟨htoken, huser⟩ := handleMessage_other browser now c.shared.tab (m := m) (.inl hbound)
          refine h.taken hjoins hledger hrests hout ?_ ?_ ?_ ?_ ?_ <;> rw [hshared]
          · exact hrest
          · rw [htoken]
            exact h.stored
          · rw [htoken, huser, hbound, Bool.false_and]
            exact h.answered
        | true =>
          obtain ⟨i, hi, hik, hiu, hiτ⟩ := (h.told _ hm).2 seat hseat
          obtain ⟨htoken, huser⟩ := handleMessage_seat now hbound hseat hwrites
          refine h.taken hjoins hledger hrests hout ?_ ?_ ?_ ?_ ?_ <;> rw [hshared]
          · exact hrest
          · rw [htoken]
            intro τ hτ
            rw [← Option.some.inj hτ, ← hiτ]
            exact h.ledger.tokens i hi
          · rw [htoken, huser, hbound, hseat]
            intro k' hk'
            obtain rfl := Option.some.inj hk'
            exact ⟨i, hi, hik, by rw [hiτ], by rw [hiu]⟩
    | dropped browser now k m rest hunderway hsocket =>
      refine h.taken hjoins hledger hrests hout ?_ ?_ ?_ ?_ ?_ <;> rw [hshared]
      · rw [hunderway]
        exact List.sublist_cons_self _ _
      · exact h.stored
      · exact h.answered

theorem initial_continuity (cfg : Config) (mode : RoomMode) (now : Time) (displayName : Option JsString) :
    Continuity [] (initialSession cfg mode now displayName) where
  joins := initial_tabJoins cfg mode now displayName
  ledger := initial_sessionLedger cfg mode now displayName
  outs := nofun
  carried := by
    rintro τ (⟨join, hm, -⟩ | ⟨task, hm, -⟩)
    · cases hm
    · cases hm
  stored := nofun
  told := nofun
  latest := nofun
  answered := nofun

/-! ## Runs -/

/-- Every segment of a history meets the condition on the others. -/
def OthersHonest (history : List SessionTurn) : Prop :=
  ∀ past turn later, history = past ++ turn :: later →
    OthersPresentSent past turn.before.shared turn.trigger

theorem continuity_run {mode : RoomMode} {now : Time} {displayName : Option JsString}
    {acts : List SessionAct} (hreach : SessionReaches cfg mode now displayName acts c out)
    (hothers : OthersHonest ((session cfg).history (initialSession cfg mode now displayName) acts))
    (hstores : ∀ browser now, .event (.read browser now) ∈ acts → browser.writes .reconnectToken = true) :
    Continuity ((session cfg).history (initialSession cfg mode now displayName) acts) c := by
  refine Machine.run_history_preserves
    (P := fun past c t => OthersPresentSent past c.shared t ∧ StoresTokens t)
    (I := fun past c => Continuity past c) (fun _ _ _ _ _ _ _ h hP hby => continuity_step h hP.1 hP.2 hby)
    (initial_continuity cfg mode now displayName) ?_ hreach
  intro past turn later hsplit
  refine ⟨hothers past turn later hsplit, fun browser now htrigger => hstores browser now ?_⟩
  exact Machine.event_of_history (hsplit ▸ List.mem_append_right _ List.mem_cons_self) htrigger

end CodeShare
