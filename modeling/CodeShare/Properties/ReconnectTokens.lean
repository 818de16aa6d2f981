import CodeShare.Server.ReconnectToken
import CodeShare.Server.TokenSteps

/-! # Reconnect tokens

A token is sent to the socket it was issued for and to no other, it is the only way to take over a user
who is away, and it is good for one time. Whoever presents only tokens that it was sent therefore takes
over only users whom it brought into the room.
-/

namespace CodeShare
open Tasks
set_option autoImplicit false

/-- The tokens issued in a history, in order. -/
def issues (history : List ServerTurn) : List Issue :=
  history.filterMap fun turn => issue turn.before.shared turn.trigger

/-- The token that was most recently issued to a user. -/
def lastIssued (issued : List Issue) (userId : UserId) : Option Issue :=
  (issued.filter fun i => i.userId = userId).getLast?

/-- A socket becomes bound to a user who was there before. -/
structure Rebinds (turn : ServerTurn) (u : RoomUserInternal) (k : SocketId) : Prop where
  mem : u ∈ turn.before.shared.room.users
  elsewhere : u.socketId ≠ some k
  bound : ∃ u' ∈ turn.after.shared.room.users, u'.id = u.id ∧ u'.socketId = some k

/-- The sockets of a party present only tokens that have been sent to one of them. -/
def PresentsSent (party : SocketId → Prop) (history : List ServerTurn) : Prop :=
  ∀ past turn later, history = past ++ turn :: later → ∀ socket payload τ,
    turn.trigger = .event (.receive socket (.userJoin (some payload))) → party socket →
    payload.reconnectToken = some (.wellFormed τ) →
    ∃ k m, party k ∧ .deliver k m ∈ past.flatMap Turn.out ∧ τ ∈ m.tokens

/-- Tokens are private and good for one time. -/
structure PrivateTokens (history : List ServerTurn) : Prop where
  /-- A socket takes over a user only with the token most recently issued to that user, in a join that
  it has sent, while the user is away. -/
  binding : ∀ past turn later, history = past ++ turn :: later → ∀ u k, Rebinds turn u k →
    u.connected = false ∧ ∃ payload, turn.trigger = .task (.joinLimiter k payload) .allowed ∧
      payload.reconnectToken = some (.wellFormed u.reconnectToken) ∧
      (lastIssued (issues past) u.id).map (·.token) = some u.reconnectToken ∧
      ∃ earlier ∈ past, earlier.trigger = .event (.receive k (.userJoin (some payload)))
  /-- No token is accepted twice. -/
  once : ((issues history).filterMap (·.presented)).Nodup
  /-- A message with a token goes to a socket that is bound to the user of the token. -/
  sent : ∀ past turn later, history = past ++ turn :: later → ∀ k m, .deliver k m ∈ turn.out →
    ∀ i ∈ issues history, i.token ∈ m.tokens →
      ∃ u ∈ turn.after.shared.room.users, u.id = i.userId ∧ u.socketId = some k
  /-- A party that presents only what it was sent takes over only users of its own. -/
  own : ∀ party : SocketId → Prop, PresentsSent party history →
    ∀ past turn later, history = past ++ turn :: later → ∀ u k, Rebinds turn u k → party k →
      ∃ i ∈ issues past, i.userId = u.id ∧ i.presented = none ∧ party i.socket

/-! ## The ledger of tokens -/

@[simp] theorem issues_nil : issues [] = [] := rfl

theorem issues_append (past later : List ServerTurn) :
    issues (past ++ later) = issues past ++ issues later := List.filterMap_append

theorem issues_concat (past : List ServerTurn) (turn : ServerTurn) :
    issues (past ++ [turn]) = issues past ++ (issue turn.before.shared turn.trigger).toList := by
  rw [issues_append]
  unfold issues
  cases h : issue turn.before.shared turn.trigger <;> simp [h]

theorem lastIssued_append_of_ne {issued : List Issue} {i : Issue} {userId : UserId}
    (h : userId ≠ i.userId) : lastIssued (issued ++ [i]) userId = lastIssued issued userId := by
  unfold lastIssued
  rw [List.filter_append]
  simp [h.symm]

theorem lastIssued_append (issued : List Issue) (i : Issue) :
    lastIssued (issued ++ [i]) i.userId = some i := by
  unfold lastIssued
  rw [List.filter_append]
  simp

theorem lastIssued_mem {issued : List Issue} {i : Issue} {userId : UserId}
    (h : lastIssued issued userId = some i) : i ∈ issued ∧ i.userId = userId := by
  have hm := List.mem_of_getLast? h
  simpa using List.mem_filter.mp hm

/-- What has been issued so far, and what the room and the outputs have of it. -/
structure TokenLedger (past : List ServerTurn) (c : ServerConf) : Prop where
  roster : Roster c.shared.room.mode c.shared.room.users c.shared.fresh
  ids : ∀ i ∈ issues past, i.userId < c.shared.fresh
  tokens : ∀ i ∈ issues past, i.token < c.shared.fresh
  distinct : ((issues past).map (·.token)).Nodup
  current : ∀ u ∈ c.shared.room.users, ∃ i, lastIssued (issues past) u.id = some i ∧
    i.token = u.reconnectToken ∧ (u.socketId = none ∨ u.socketId = some i.socket)
  known : ∀ τ ∈ (issues past).filterMap (·.presented), τ ∈ (issues past).map (·.token)
  spent : ∀ τ ∈ (issues past).filterMap (·.presented), ∀ u ∈ c.shared.room.users,
    u.reconnectToken ≠ τ
  once : ((issues past).filterMap (·.presented)).Nodup
  yjs : c.shared.room.yjsToken < c.shared.fresh
  apart : c.shared.room.yjsToken ∉ (issues past).map (·.token)
  sent : ∀ k m, .deliver k m ∈ past.flatMap Turn.out → ∀ τ ∈ m.tokens, τ < c.shared.fresh ∧
    ∀ i ∈ issues past, i.token = τ → i.socket = k

variable {cfg : Config} {past : List ServerTurn} {c c' : ServerConf} {out : List Effect}
  {t : ServerTrigger} {g : Step} {rest : List Task} {u : RoomUserInternal}

namespace TokenLedger

theorem lastIssued_token (h : TokenLedger past c) (hu : u ∈ c.shared.room.users) :
    (lastIssued (issues past) u.id).map (·.token) = some u.reconnectToken := by
  obtain ⟨i, hlast, htoken, -⟩ := h.current u hu
  rw [hlast, Option.map_some, htoken]

theorem token_lt (h : TokenLedger past c) (hu : u ∈ c.shared.room.users) :
    u.reconnectToken < c.shared.fresh := by
  obtain ⟨i, hlast, htoken, -⟩ := h.current u hu
  exact htoken ▸ h.tokens i (lastIssued_mem hlast).1

/-- Users do not share tokens. -/
theorem eq_of_token (h : TokenLedger past c) {u' : RoomUserInternal} (hu : u ∈ c.shared.room.users)
    (hu' : u' ∈ c.shared.room.users) (heq : u.reconnectToken = u'.reconnectToken) : u = u' := by
  obtain ⟨i, hlast, htoken, -⟩ := h.current u hu
  obtain ⟨i', hlast', htoken', -⟩ := h.current u' hu'
  obtain ⟨hi, hid⟩ := lastIssued_mem hlast
  obtain ⟨hi', hid'⟩ := lastIssued_mem hlast'
  obtain rfl : i = i' :=
    List.inj_on_of_nodup_map h.distinct hi hi' (htoken.trans (heq.trans htoken'.symm))
  exact List.inj_on_of_nodup_map h.roster.distinct hu hu' (hid.symm.trans hid')

/-- The token of a user who is away finds this user. -/
theorem reconnecting (h : TokenLedger past c) (hu : u ∈ c.shared.room.users) (haway : u.connected = false)
    {token : Option PresentedToken} (htoken : token = some (.wellFormed u.reconnectToken)) :
    reconnectingUser c.shared.room token = some u := by
  rw [htoken]
  show c.shared.room.findByReconnectToken u.reconnectToken = some u
  cases hfound : c.shared.room.findByReconnectToken u.reconnectToken with
  | none =>
    have hno := List.find?_eq_none.mp hfound u hu
    rw [haway] at hno
    simp at hno
  | some w =>
    have hw := List.find?_some hfound
    simp only [Bool.and_eq_true, Bool.not_eq_true', decide_eq_true_eq] at hw
    rw [h.eq_of_token (List.mem_of_find?_eq_some hfound) hu hw.2]

/-- A token that has been presented was issued before. -/
theorem presented_lt (h : TokenLedger past c) {τ : Token} (hτ : τ ∈ (issues past).filterMap (·.presented)) :
    τ < c.shared.fresh := by
  obtain ⟨i, hi, rfl⟩ := List.mem_map.mp (h.known τ hτ)
  exact h.tokens i hi

/-- What is sent behind the segment, once it is known what is issued. -/
theorem sent_step (h : TokenLedger past c) (hby : (server cfg).StepBy c c' out t g rest)
    {issued : List Issue} (hissued : ∀ i ∈ issued, i ∈ issues past ∨ c.shared.fresh ≤ i.token)
    (hle : c.shared.fresh ≤ c'.shared.fresh) (htokens : ∀ i ∈ issued, i.token < c'.shared.fresh)
    (hdistinct : (issued.map (·.token)).Nodup)
    (hcurrent : ∀ u ∈ c'.shared.room.users, ∃ i, lastIssued issued u.id = some i ∧
      i.token = u.reconnectToken ∧ (u.socketId = none ∨ u.socketId = some i.socket))
    (hyjs : c'.shared.room.yjsToken < c'.shared.fresh)
    (hapart : c'.shared.room.yjsToken ∉ issued.map (·.token)) {k : SocketId} {m : Message}
    (hm : Effect.deliver k m ∈ (past ++ [(⟨c, t, c', out⟩ : ServerTurn)]).flatMap Turn.out)
    {τ : Token} (hτ : τ ∈ m.tokens) :
    τ < c'.shared.fresh ∧ ∀ i ∈ issued, i.token = τ → i.socket = k := by
  rw [List.flatMap_append, List.flatMap_singleton] at hm
  rcases List.mem_append.mp hm with hm | hm
  · obtain ⟨hlt, hsocket⟩ := h.sent k m hm τ hτ
    refine ⟨hlt.trans_le hle, fun i hi heq => ?_⟩
    rcases hissued i hi with hi | hnew
    · exact hsocket i hi heq
    · exact absurd (heq ▸ hlt) hnew.not_gt
  · change Effect.deliver k m ∈ out at hm
    rw [hby.out] at hm
    rcases fire_sends hby.fire k m (mem_messagesTo.mpr hm) τ hτ with rfl | ⟨u, hu, hk, rfl⟩
    · rw [← hby.shared]
      exact ⟨hyjs, fun i hi heq => absurd (heq ▸ List.mem_map_of_mem hi) hapart⟩
    · rw [← hby.shared] at hu
      obtain ⟨i, hlast, htoken, hbound⟩ := hcurrent u hu
      have hi := (lastIssued_mem hlast).1
      refine ⟨htoken ▸ htokens i hi, fun i' hi' heq => ?_⟩
      obtain rfl : i' = i := List.inj_on_of_nodup_map hdistinct hi' hi (heq.trans htoken.symm)
      rcases hbound with hnone | hsome
      · rw [hk] at hnone
        cases hnone
      · exact (Option.some.inj (hk.symm.trans hsome)).symm

/-- A segment without a new token. -/
theorem kept (h : TokenLedger past c) (hby : (server cfg).StepBy c c' out t g rest)
    (hissue : issue c.shared t = none) (hfresh : c.shared.fresh ≤ c'.shared.fresh)
    (hyjs : c'.shared.room.yjsToken = c.shared.room.yjsToken ∨
      c.shared.fresh ≤ c'.shared.room.yjsToken ∧ c'.shared.room.yjsToken < c'.shared.fresh)
    (husers : ∀ u' ∈ c'.shared.room.users, ∃ u ∈ c.shared.room.users, Remains u u') :
    TokenLedger (past ++ [⟨c, t, c', out⟩]) c' := by
  have hsame : issues (past ++ [⟨c, t, c', out⟩]) = issues past := by
    rw [issues_concat]
    dsimp only
    rw [hissue, Option.toList_none, List.append_nil]
  have htokens : ∀ i ∈ issues past, i.token < c'.shared.fresh :=
    fun i hi => (h.tokens i hi).trans_le hfresh
  have hcurrent : ∀ u' ∈ c'.shared.room.users, ∃ i, lastIssued (issues past) u'.id = some i ∧
      i.token = u'.reconnectToken ∧ (u'.socketId = none ∨ u'.socketId = some i.socket) := by
    intro u' hu'
    obtain ⟨u, hu, hremains⟩ := husers u' hu'
    obtain ⟨i, hlast, htoken, hbound⟩ := h.current u hu
    refine ⟨i, hremains.id ▸ hlast, htoken.trans hremains.token.symm, ?_⟩
    rcases hremains.socketId with hsame | hnone
    · rwa [hsame]
    · exact .inl hnone
  have hyjs' : c'.shared.room.yjsToken < c'.shared.fresh := by
    rcases hyjs with heq | hnew
    · exact heq ▸ h.yjs.trans_le hfresh
    · exact hnew.2
  have hapart : c'.shared.room.yjsToken ∉ (issues past).map (·.token) := by
    rcases hyjs with heq | hnew
    · exact heq ▸ h.apart
    · intro hm
      obtain ⟨i, hi, heq⟩ := List.mem_map.mp hm
      exact absurd (heq ▸ h.tokens i hi) hnew.1.not_gt
  have hroster : Roster c'.shared.room.mode c'.shared.room.users c'.shared.fresh := by
    rw [hby.shared]
    exact roster_step h.roster hby.fire
  refine ⟨hroster, ?_, ?_, ?_, ?_, ?_, ?_, ?_, hyjs', ?_, ?_⟩
  all_goals rw [hsame]
  · exact fun i hi => (h.ids i hi).trans_le hfresh
  · exact htokens
  · exact h.distinct
  · exact hcurrent
  · exact h.known
  · intro τ hτ u' hu'
    obtain ⟨u, hu, hremains⟩ := husers u' hu'
    rw [hremains.token]
    exact h.spent τ hτ u hu
  · exact h.once
  · exact hapart
  · intro k m hm τ hτ
    exact h.sent_step hby (fun i hi => .inl hi) hfresh htokens h.distinct hcurrent hyjs' hapart hm hτ

theorem presented_concat (issued : List Issue) (i : Issue) : (issued ++ [i]).filterMap (·.presented) =
    issued.filterMap (·.presented) ++ i.presented.toList := by
  rw [List.filterMap_append]
  cases hi : i.presented <;> simp [hi]

/-- The token that is accepted was that of a user who is there. -/
theorem exists_presenting {i : Issue} (huser : (∃ existing, Accepted c.shared t i existing) ∨ Enrols c.shared g i)
    {τ : Token} (hτ : τ ∈ i.presented.toList) :
    ∃ existing ∈ c.shared.room.users, existing.id = i.userId ∧ existing.reconnectToken = τ := by
  rcases huser with ⟨existing, haccepted⟩ | henrols
  · rw [haccepted.presented, Option.toList_some, List.mem_singleton] at hτ
    exact ⟨existing, haccepted.mem, haccepted.id, hτ.symm⟩
  · rw [henrols.presented] at hτ
    cases hτ

/-- A segment that issues a token. -/
theorem issued (h : TokenLedger past c) (hby : (server cfg).StepBy c c' out t g rest) {i : Issue}
    (hissue : issue c.shared t = some i)
    (hfresh : c.shared.fresh ≤ i.token ∧ i.token < c'.shared.fresh)
    (hyjs : c'.shared.room.yjsToken = c.shared.room.yjsToken)
    (husers : ∀ u' ∈ c'.shared.room.users,
      Holds i u' ∨ u'.id ≠ i.userId ∧ u' ∈ c.shared.room.users)
    (huser : (∃ existing, Accepted c.shared t i existing) ∨ Enrols c.shared g i) :
    TokenLedger (past ++ [⟨c, t, c', out⟩]) c' := by
  have hmore : issues (past ++ [⟨c, t, c', out⟩]) = issues past ++ [i] := by
    rw [issues_concat]
    dsimp only
    rw [hissue, Option.toList_some]
  have hle : c.shared.fresh ≤ c'.shared.fresh := (hfresh.1.trans_lt hfresh.2).le
  have htokens : ∀ i' ∈ issues past ++ [i], i'.token < c'.shared.fresh :=
    forall_mem_concat (fun i' hi' => (h.tokens i' hi').trans_le hle) hfresh.2
  have hdistinct : ((issues past ++ [i]).map (·.token)).Nodup := by
    rw [List.map_append]
    refine nodup_concat h.distinct fun hm => ?_
    obtain ⟨i', hi', heq⟩ := List.mem_map.mp hm
    exact absurd (heq.symm.trans_lt (h.tokens i' hi')) hfresh.1.not_gt
  have hcurrent : ∀ u' ∈ c'.shared.room.users, ∃ i', lastIssued (issues past ++ [i]) u'.id = some i' ∧
      i'.token = u'.reconnectToken ∧ (u'.socketId = none ∨ u'.socketId = some i'.socket) := by
    intro u' hu'
    rcases husers u' hu' with hholds | ⟨hne, hu⟩
    · exact ⟨i, hholds.id ▸ lastIssued_append _ i, hholds.token.symm, .inr hholds.socketId⟩
    · rw [lastIssued_append_of_ne hne]
      exact h.current u' hu
  have hyjs' : c'.shared.room.yjsToken < c'.shared.fresh := hyjs ▸ h.yjs.trans_le hle
  have hapart : c'.shared.room.yjsToken ∉ (issues past ++ [i]).map (·.token) := by
    rw [hyjs, List.map_append, List.mem_append, not_or]
    refine ⟨h.apart, fun hm => ?_⟩
    exact absurd ((List.mem_singleton.mp hm).symm.trans_lt h.yjs) hfresh.1.not_gt
  have hroster : Roster c'.shared.room.mode c'.shared.room.users c'.shared.fresh := by
    rw [hby.shared]
    exact roster_step h.roster hby.fire
  have hid : i.userId < c'.shared.fresh := by
    rcases huser with ⟨existing, haccepted⟩ | henrols
    · exact haccepted.id ▸ (h.roster.fresh existing haccepted.mem).trans_le hle
    · exact hby.shared ▸ henrols.lt
  have hnew : ∀ u' ∈ c'.shared.room.users, ∀ τ < c.shared.fresh, u'.reconnectToken = τ →
      u'.id ≠ i.userId ∧ u' ∈ c.shared.room.users := by
    intro u' hu' τ hτ heq
    refine (husers u' hu').resolve_left fun hholds => ?_
    exact absurd ((hholds.token.symm.trans heq).trans_lt hτ) hfresh.1.not_gt
  refine ⟨hroster, ?_, ?_, ?_, ?_, ?_, ?_, ?_, hyjs', ?_, ?_⟩
  all_goals rw [hmore]
  · exact forall_mem_concat (fun i' hi' => (h.ids i' hi').trans_le hle) hid
  · exact htokens
  · exact hdistinct
  · exact hcurrent
  · rw [presented_concat, List.map_append]
    refine List.forall_mem_append.mpr ⟨fun τ hτ => List.mem_append_left _ (h.known τ hτ), ?_⟩
    intro τ hτ
    obtain ⟨existing, hmem, -, rfl⟩ := exists_presenting huser hτ
    obtain ⟨i', hlast, htoken, -⟩ := h.current existing hmem
    refine List.mem_append_left _ ?_
    exact htoken ▸ List.mem_map_of_mem (lastIssued_mem hlast).1
  · rw [presented_concat]
    refine List.forall_mem_append.mpr ⟨fun τ hτ u' hu' heq => ?_, fun τ hτ u' hu' heq => ?_⟩
    · exact h.spent τ hτ u' (hnew u' hu' τ (h.presented_lt hτ) heq).2 heq
    · obtain ⟨existing, hmem, hid', rfl⟩ := exists_presenting huser hτ
      obtain ⟨hne, hu⟩ := hnew u' hu' _ (h.token_lt hmem) heq
      rw [h.eq_of_token hu hmem heq] at hne
      exact hne hid'
  · rw [presented_concat]
    refine List.nodup_append.mpr ⟨h.once, ?_, ?_⟩
    · cases i.presented with
      | none => exact List.nodup_nil
      | some τ => exact List.nodup_singleton τ
    · rintro τ hτ τ' hτ' rfl
      obtain ⟨existing, hmem, -, heq⟩ := exists_presenting huser hτ'
      exact h.spent τ hτ existing hmem heq
  · exact hapart
  · intro k m hm τ hτ
    refine h.sent_step hby ?_ hle htokens hdistinct hcurrent hyjs' hapart hm hτ
    exact forall_mem_concat (fun i' hi' => .inl hi') (.inr hfresh.1)

end TokenLedger

theorem ledger_step (h : TokenLedger past c) (hby : (server cfg).StepBy c c' out t g rest) :
    TokenLedger (past ++ [⟨c, t, c', out⟩]) c' := by
  have hstep := fire_tokens h.roster.fresh hby.fire
  have hshared := hby.shared
  cases hstep with
  | kept hissue hfresh hyjs husers =>
    rw [← hshared] at hfresh hyjs husers
    exact h.kept hby hissue hfresh hyjs husers
  | issued i hissue hfresh hyjs husers huser =>
    rw [← hshared] at hfresh hyjs husers
    exact h.issued hby hissue hfresh hyjs husers huser

theorem initial_ledger (cfg : Config) (mode : RoomMode) (now : Time) :
    TokenLedger [] (initial cfg mode now) where
  roster := initial_roster mode
  ids := nofun
  tokens := nofun
  distinct := List.nodup_nil
  current := nofun
  known := nofun
  spent := nofun
  once := List.nodup_nil
  yjs := Nat.zero_lt_one
  apart := List.not_mem_nil
  sent := nofun

/-! ## Where joins come from -/

/-- The join that a task goes on with. -/
def Task.join : Task → Option (SocketId × UserJoinPayload)
  | admitted socket (.userJoin payload) _ => payload.map fun payload => (socket, payload)
  | joinLimiter socket payload => some (socket, payload)
  | _ => none

/-- A join goes on from a task with the same join, or has just been received. -/
theorem fire_joins {s : Server} {task : Task} {socket : SocketId} {payload : UserJoinPayload}
    (h : (server cfg).fire s t = some g) (hm : task ∈ g.next)
    (hjoin : task.join = some (socket, payload)) :
    t = .event (.receive socket (.userJoin (some payload))) ∨
      ∃ task' ∈ t.taken, task'.join = some (socket, payload) := by
  have hfamily := (fire_within h).next task hm
  cases t with
  | event e =>
    rcases handleEvent_next h with hnext | ⟨socket', event, rfl, rfl⟩
    · rw [hnext] at hm
      cases hm
    · obtain ⟨seen, rfl⟩ : ∃ seen, task = .admitted socket' event seen := by
        rcases authMiddleware_next s socket' event with hn | ⟨_, -, hn⟩ | ⟨_, -, -, -, hn⟩
        · rw [hn] at hm
          cases hm
        · exact ⟨_, List.mem_singleton.mp (hn ▸ hm)⟩
        · exact ⟨_, List.mem_singleton.mp (hn ▸ hm)⟩
      cases event with
      | userJoin data =>
        obtain ⟨payload, rfl, heq⟩ := Option.map_eq_some_iff.mp hjoin
        cases heq
        exact .inl rfl
      | _ => cases hjoin
  | task first o =>
    refine .inr ⟨first, List.mem_singleton_self _, ?_⟩
    change resumeTask cfg s first o = some g at h
    cases task with
    | admitted socket' event seen =>
      cases first with
      | admitted _ event' _ => cases event' <;> cases hfamily
      | _ => cases hfamily
    | joinLimiter socket' payload' =>
      cases hjoin
      cases first with
      | admitted socket'' event seen =>
        cases o <;> cases h
        unfold runHandler at hm
        split at hm
        · cases hm
        · cases event with
          | userJoin data =>
            cases data with
            | none => simp [handleUserJoin, emitJoinRejected] at hm
            | some data =>
              dsimp only at hm
              unfold handleUserJoin at hm
              dsimp only at hm
              split at hm
              · cases hm
              · split at hm
                · rw [emitJoinedPayload_next, Segment.of_next, List.nil_append,
                    List.mem_singleton] at hm
                  cases hm
                · obtain ⟨rfl, rfl⟩ := Task.joinLimiter.inj (List.mem_singleton.mp hm)
                  rfl
          | _ => cases hfamily
      | joinLimiter socket'' payload'' =>
        change afterJoinLimiter s socket'' payload'' o = some g at h
        unfold afterJoinLimiter at h
        split at h <;> cases h
        · obtain ⟨p, announced, heq⟩ := takeSeat_next hm
          cases heq
        · cases hm
        · cases hm
      | hydrating socket'' p announced =>
        rw [afterHydration_next h] at hm
        cases hm
      | _ => cases hfamily
    | _ => cases hjoin

/-- Every join under way has been received from its socket. -/
def JoinsReceived (past : List ServerTurn) (c : ServerConf) : Prop :=
  ∀ task ∈ c.pool, ∀ socket payload, task.join = some (socket, payload) →
    ∃ earlier ∈ past, earlier.trigger = .event (.receive socket (.userJoin (some payload)))

theorem joinsReceived_step (h : JoinsReceived past c) (hby : (server cfg).StepBy c c' out t g rest) :
    JoinsReceived (past ++ [⟨c, t, c', out⟩]) c' := by
  have hold : ∀ task ∈ c.pool, ∀ socket payload, task.join = some (socket, payload) →
      ∃ earlier ∈ past ++ [(⟨c, t, c', out⟩ : ServerTurn)],
        earlier.trigger = .event (.receive socket (.userJoin (some payload))) := by
    intro task hm socket payload hjoin
    obtain ⟨earlier, hearlier, htrigger⟩ := h task hm socket payload hjoin
    exact ⟨earlier, List.mem_append_left _ hearlier, htrigger⟩
  intro task hm socket payload hjoin
  rcases hby.mem_after hm with hm | hm
  · exact hold task (hby.mem_of_rest hm) socket payload hjoin
  · rcases fire_joins hby.fire hm hjoin with htrigger | ⟨task', hm', hjoin'⟩
    · exact ⟨_, List.mem_append_right _ (List.mem_singleton_self _), htrigger⟩
    · exact hold task' (hby.mem_of_taken hm') socket payload hjoin'

/-! ## Parties -/

/-- What a party presents has been sent to it, and the tokens issued to it are for users whom it
brought into the room. -/
structure OwnSeats (party : SocketId → Prop) (past : List ServerTurn) (c : ServerConf) : Prop where
  ledger : TokenLedger past c
  presents : ∀ task ∈ c.pool, ∀ socket payload τ, task.join = some (socket, payload) → party socket →
    payload.reconnectToken = some (.wellFormed τ) →
    ∃ k m, party k ∧ .deliver k m ∈ past.flatMap Turn.out ∧ τ ∈ m.tokens
  seats : ∀ i ∈ issues past, party i.socket →
    ∃ j ∈ issues past, j.userId = i.userId ∧ j.presented = none ∧ party j.socket

/-- The token of a user who is taken over came to the party with the seat, which was its own before. -/
theorem OwnSeats.of_accepted {party : SocketId → Prop} {i : Issue} (h : OwnSeats party past c)
    (hby : (server cfg).StepBy c c' out t g rest) (haccepted : Accepted c.shared t i u)
    (hparty : party i.socket) :
    ∃ j ∈ issues past, j.userId = u.id ∧ j.presented = none ∧ party j.socket := by
  obtain ⟨payload, rfl, hτ⟩ := haccepted.trigger
  have hmem : Task.joinLimiter i.socket payload ∈ c.pool :=
    hby.mem_of_taken (List.mem_singleton_self _)
  obtain ⟨k, m, hk, hm, hτ'⟩ := h.presents _ hmem i.socket payload _ rfl hparty hτ
  obtain ⟨i₀, hlast, htoken, -⟩ := h.ledger.current u haccepted.mem
  obtain ⟨hi₀, hid₀⟩ := lastIssued_mem hlast
  have hsocket : i₀.socket = k := (h.ledger.sent k m hm _ hτ').2 i₀ hi₀ htoken
  obtain ⟨j, hj, hid, hrest⟩ := h.seats i₀ hi₀ (hsocket ▸ hk)
  exact ⟨j, hj, hid.trans hid₀, hrest⟩

theorem ownSeats_step {party : SocketId → Prop} (h : OwnSeats party past c)
    (hsent : ∀ socket payload τ, t = .event (.receive socket (.userJoin (some payload))) →
      party socket → payload.reconnectToken = some (.wellFormed τ) →
      ∃ k m, party k ∧ .deliver k m ∈ past.flatMap Turn.out ∧ τ ∈ m.tokens)
    (hby : (server cfg).StepBy c c' out t g rest) :
    OwnSeats party (past ++ [⟨c, t, c', out⟩]) c' := by
  refine ⟨ledger_step h.ledger hby, ?_, ?_⟩
  · intro task hm socket payload τ hjoin hparty hτ
    obtain ⟨k, m, hk, hm', hτ'⟩ :
        ∃ k m, party k ∧ .deliver k m ∈ past.flatMap Turn.out ∧ τ ∈ m.tokens := by
      rcases hby.mem_after hm with hm | hm
      · exact h.presents task (hby.mem_of_rest hm) socket payload τ hjoin hparty hτ
      · rcases fire_joins hby.fire hm hjoin with htrigger | ⟨task', hm', hjoin'⟩
        · exact hsent socket payload τ htrigger hparty hτ
        · exact h.presents task' (hby.mem_of_taken hm') socket payload τ hjoin' hparty hτ
    refine ⟨k, m, hk, ?_, hτ'⟩
    rw [List.flatMap_append]
    exact List.mem_append_left _ hm'
  · intro i hi hparty
    rw [issues_concat] at hi ⊢
    rcases List.mem_append.mp hi with hi | hi
    · obtain ⟨j, hj, hrest⟩ := h.seats i hi hparty
      exact ⟨j, List.mem_append_left _ hj, hrest⟩
    · have hissue : issue c.shared t = some i := Option.mem_toList.mp hi
      have hstep := fire_tokens h.ledger.roster.fresh hby.fire
      cases hstep with
      | kept hnone => rw [hissue] at hnone; cases hnone
      | issued i' hissue' _ _ _ huser =>
        obtain rfl : i = i' := Option.some.inj (hissue.symm.trans hissue')
        rcases huser with ⟨existing, haccepted⟩ | henrols
        · obtain ⟨j, hj, hid, hrest⟩ := h.of_accepted hby haccepted hparty
          exact ⟨j, List.mem_append_left _ hj, hid.trans haccepted.id, hrest⟩
        · exact ⟨i, List.mem_append_right _ hi, rfl, henrols.presented, hparty⟩

/-! ## Runs -/

/-- A socket that takes over a user is issued a token for the one that it presents. -/
theorem Rebinds.accepted {turn : ServerTurn} {k : SocketId} (h : Rebinds turn u k)
    (hledger : TokenLedger past turn.before)
    (hby : (server cfg).StepBy turn.before turn.after turn.out turn.trigger g rest) :
    ∃ i, issue turn.before.shared turn.trigger = some i ∧ i.socket = k ∧
      Accepted turn.before.shared turn.trigger i u := by
  obtain ⟨u', hu', hid, hsocket⟩ := h.bound
  rw [hby.shared] at hu'
  have hsame : ∀ w ∈ turn.before.shared.room.users, w.id = u.id → w = u := fun w hw hid =>
    List.inj_on_of_nodup_map hledger.roster.distinct hw h.mem hid
  have hstep := fire_tokens hledger.roster.fresh hby.fire
  cases hstep with
  | kept _ _ _ husers =>
    obtain ⟨w, hw, hremains⟩ := husers u' hu'
    obtain rfl := hsame w hw (hremains.id.symm.trans hid)
    rcases hremains.socketId with heq | hnone
    · exact absurd (heq.symm.trans hsocket) h.elsewhere
    · rw [hsocket] at hnone
      cases hnone
  | issued i hissue _ _ husers huser =>
    rcases husers u' hu' with hholds | ⟨-, hu⟩
    · have hk : i.socket = k := Option.some.inj (hholds.socketId.symm.trans hsocket)
      rcases huser with ⟨existing, haccepted⟩ | henrols
      · obtain rfl := hsame existing haccepted.mem
          (haccepted.id.trans (hholds.id.symm.trans hid))
        exact ⟨i, hissue, hk, haccepted⟩
      · have hlt := hledger.roster.fresh u h.mem
        have hle := henrols.fresh
        rw [← hholds.id, hid] at hle
        exact absurd hlt hle.not_gt
    · rw [hsame u' hu hid] at hsocket
      exact absurd hsocket h.elsewhere

section
variable {mode : RoomMode} {now : Time} {acts : List ServerAct}

theorem ledger_run (hreach : Reaches cfg mode now acts c out) :
    TokenLedger ((server cfg).history (initial cfg mode now) acts) c :=
  Machine.run_history_preserves (P := fun _ _ _ => True)
    (I := fun past c => TokenLedger past c)
    (fun _ _ _ _ _ _ _ h _ hby => ledger_step h hby) (initial_ledger cfg mode now)
    (fun _ _ _ _ => trivial) hreach

theorem joinsReceived_run (hreach : Reaches cfg mode now acts c out) :
    JoinsReceived ((server cfg).history (initial cfg mode now) acts) c :=
  Machine.run_history_preserves (P := fun _ _ _ => True)
    (I := fun past c => JoinsReceived past c)
    (fun _ _ _ _ _ _ _ h _ hby => joinsReceived_step h hby) nofun (fun _ _ _ _ => trivial) hreach

theorem ownSeats_run {party : SocketId → Prop} (hreach : Reaches cfg mode now acts c out)
    (hsent : PresentsSent party ((server cfg).history (initial cfg mode now) acts)) :
    OwnSeats party ((server cfg).history (initial cfg mode now) acts) c := by
  have hinit : OwnSeats party [] (initial cfg mode now) := ⟨initial_ledger cfg mode now, nofun, nofun⟩
  refine Machine.run_history_preserves (P := fun past _ t => ∀ socket payload τ,
    t = .event (.receive socket (.userJoin (some payload))) → party socket →
    payload.reconnectToken = some (.wellFormed τ) →
    ∃ k m, party k ∧ .deliver k m ∈ past.flatMap Turn.out ∧ τ ∈ m.tokens)
    (I := fun past c => OwnSeats party past c)
    (fun _ _ _ _ _ _ _ h hP hby => ownSeats_step h hP hby) hinit ?_ hreach
  intro before turn later hsplit socket payload τ htrigger hparty hτ
  exact hsent before turn later hsplit socket payload τ htrigger hparty hτ

/-- A segment of a history, with what holds before it. -/
theorem turn_of_split {turn : ServerTurn} {later : List ServerTurn}
    (hsplit : (server cfg).history (initial cfg mode now) acts = past ++ turn :: later) :
    ∃ before g rest, (server cfg).history (initial cfg mode now) before = past ∧
      Reaches cfg mode now before turn.before (past.flatMap Turn.out) ∧
      (server cfg).StepBy turn.before turn.after turn.out turn.trigger g rest := by
  obtain ⟨before, a, after, rfl, hhistory, hrun, htrigger, hstep⟩ := Machine.history_split hsplit
  obtain ⟨t, g, ht, hby⟩ := Machine.step_by hstep
  obtain rfl := Option.some.inj (htrigger.symm.trans ht)
  exact ⟨before, g, _, hhistory, hrun, hby⟩

/-- A token that is in a message has been issued by then, if it is issued at all. -/
theorem issued_before_sent {turn : ServerTurn} {later : List ServerTurn} {k : SocketId} {m : Message}
    {i : Issue}
    (hsplit : (server cfg).history (initial cfg mode now) acts = past ++ turn :: later)
    (hm : .deliver k m ∈ turn.out) (hi : i ∈ issues ((server cfg).history (initial cfg mode now) acts))
    (hτ : i.token ∈ m.tokens) : i ∈ issues (past ++ [turn]) := by
  rw [hsplit, ← List.singleton_append, ← List.append_assoc, issues_append] at hi
  refine (List.mem_append.mp hi).resolve_right fun hlater => ?_
  obtain ⟨turn', hturn', hissue⟩ := List.mem_filterMap.mp hlater
  obtain ⟨between, later', rfl⟩ := List.append_of_mem hturn'
  have hsplit' : (server cfg).history (initial cfg mode now) acts =
      (past ++ turn :: between) ++ turn' :: later' := by
    rw [hsplit, List.append_assoc, List.cons_append]
  obtain ⟨before, g, rest, hpast, hreach', hby⟩ := turn_of_split hsplit'
  have hledger := ledger_run hreach'
  rw [hpast] at hledger
  have hsent : Effect.deliver k m ∈ (past ++ turn :: between).flatMap Turn.out :=
    List.mem_flatMap.mpr ⟨turn, List.mem_append_right _ List.mem_cons_self, hm⟩
  have hlt := (hledger.sent k m hsent _ hτ).1
  have hstep := fire_tokens hledger.roster.fresh hby.fire
  cases hstep with
  | kept hnone => rw [hissue] at hnone; cases hnone
  | issued i' hissue' hfresh _ _ _ =>
    obtain rfl : i = i' := Option.some.inj (hissue.symm.trans hissue')
    exact absurd hlt hfresh.1.not_gt

/-- A presented text finds a user who is away, and is that of the token most recently issued to it. -/
theorem reconnectingUserText_run {text : Token → JsString} (hreach : Reaches cfg mode now acts c out)
    (hissued : ∀ u ∈ c.shared.room.users, IssuedText (text u.reconnectToken))
    (hdistinct : ∀ u ∈ c.shared.room.users, ∀ w ∈ c.shared.room.users,
      text u.reconnectToken = text w.reconnectToken → u.reconnectToken = w.reconnectToken)
    {token : JsString} (hfound : reconnectingUserText c.shared.room text (some token) = some u) :
    u.connected = false ∧
      (lastIssued (issues ((server cfg).history (initial cfg mode now) acts)) u.id).map
        (fun i => text i.token) = some token := by
  obtain ⟨presented, hpresents⟩ := exists_presents c.shared.room.users text hdistinct token
  rw [reconnectingUser_text hissued hpresents] at hfound
  obtain ⟨hmem, haway, hpresented⟩ := reconnectingUser_spec hfound
  obtain rfl := Option.some.inj hpresented
  cases hpresents with
  | wellFormed _ _ hτ =>
    have hlast := congrArg (Option.map text) ((ledger_run hreach).lastIssued_token hmem)
    rw [Option.map_map, Option.map_some, (hτ u hmem).mpr rfl] at hlast
    exact ⟨haway, hlast⟩

end

/-- **Reconnect tokens.** In every run tokens are private, good for one time and the only way to take
over a user; whoever presents only what it was sent takes over only users of its own. -/
theorem reconnect_tokens_private {cfg : Config} {mode : RoomMode} {now : Time} {acts : List ServerAct}
    {c : ServerConf} {out : List Effect} (hreach : Reaches cfg mode now acts c out) :
    PrivateTokens ((server cfg).history (initial cfg mode now) acts) := by
  refine ⟨?_, (ledger_run hreach).once, ?_, ?_⟩
  · intro past turn later hsplit u k hrebinds
    obtain ⟨before, g, rest, rfl, hreach', hby⟩ := turn_of_split hsplit
    have hledger := ledger_run hreach'
    obtain ⟨i, -, rfl, haccepted⟩ := hrebinds.accepted hledger hby
    obtain ⟨payload, htrigger, hpresented⟩ := haccepted.trigger
    have htaken : Task.joinLimiter i.socket payload ∈ turn.before.pool :=
      hby.mem_of_taken (htrigger ▸ List.mem_singleton_self _)
    exact ⟨haccepted.away, payload, htrigger, hpresented, hledger.lastIssued_token hrebinds.mem,
      joinsReceived_run hreach' _ htaken i.socket payload rfl⟩
  · intro past turn later hsplit k m hm i hi hτ
    obtain ⟨before, g, rest, rfl, hreach', hby⟩ := turn_of_split hsplit
    have hledger := ledger_step (ledger_run hreach') hby
    have hi' := issued_before_sent hsplit hm hi hτ
    rw [hby.out] at hm
    rcases fire_sends hby.fire k m (mem_messagesTo.mpr hm) _ hτ with heq | ⟨u, hu, hk, heq⟩
    · rw [← hby.shared] at heq
      exact absurd (heq ▸ List.mem_map_of_mem hi') hledger.apart
    · rw [← hby.shared] at hu
      obtain ⟨i', hlast, htoken, -⟩ := hledger.current u hu
      obtain ⟨hmem, hid⟩ := lastIssued_mem hlast
      obtain rfl : i' = i := List.inj_on_of_nodup_map hledger.distinct hmem hi' (htoken.trans heq)
      exact ⟨u, hu, hid.symm, hk⟩
  · intro party hsent past turn later hsplit u k hrebinds hparty
    obtain ⟨before, g, rest, rfl, hreach', hby⟩ := turn_of_split hsplit
    have hbefore : PresentsSent party ((server cfg).history (initial cfg mode now) before) := by
      intro past' turn' later' hsplit'
      refine hsent past' turn' (later' ++ turn :: later) ?_
      rw [hsplit, hsplit', List.append_assoc, List.cons_append]
    have hown := ownSeats_run hreach' hbefore
    obtain ⟨i, -, rfl, haccepted⟩ := hrebinds.accepted hown.ledger hby
    exact hown.of_accepted hby haccepted hparty

/-- A user leaves and comes back with another socket and the token that it was sent. -/
def exampleReturn : List ServerAct :=
  exampleJoin 0 .go ++ [.event (.disconnect 0), .event .connect,
    .event (.receive 1 (.userJoin (some ⟨js "guest", some (.wellFormed 2)⟩))), .resume 0 .go,
    .resume 0 .allowed, .resume 0 .go]

theorem reconnect_tokens_private_example : ∃ c out,
    Reaches plainConfig .collaboration 0 exampleReturn c out ∧
    issues ((server plainConfig).history (initial plainConfig .collaboration 0) exampleReturn) =
      [⟨1, 0, 2, none⟩, ⟨1, 1, 3, some 2⟩] ∧
    PrivateTokens ((server plainConfig).history (initial plainConfig .collaboration 0)
      exampleReturn) := by
  obtain ⟨c, out, hreach⟩ : ∃ c out, Reaches plainConfig .collaboration 0 exampleReturn c out :=
    ⟨_, _, rfl⟩
  exact ⟨c, out, hreach, rfl, reconnect_tokens_private hreach⟩

end CodeShare
