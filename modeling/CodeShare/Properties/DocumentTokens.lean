import CodeShare.Client.Mirror
import CodeShare.Properties.TabSeats

/-! # The token of the document

A tab connects to the document of its room with the token that it last stored. The server replaces this token when
it gives up a seat; whoever is in the room is told. A tab that has read what it was sent has the token of the room.
-/

namespace CodeShare
open Tasks
set_option autoImplicit false

/-! ## Tokens under way -/

/-- The token of the document in a message. -/
def Message.yjs : Message → Option Token
  | userJoined _ _ _ _ _ yjsToken => yjsToken
  | yjsTokenRotated yjsToken => some yjsToken
  | _ => none

/-- The tokens of the document that are on their way to a socket. -/
def documentTokensTo (k : SocketId) (downlink : List (SocketId × Message)) : List Token :=
  downlink.flatMap fun message => if message.1 = k then message.2.yjs.toList else []

/-- The token that the tab will have when it has read everything. -/
def Session.lastToken (s : Session) (k : SocketId) : Option Token :=
  (s.tab.storage.yjsToken.toList ++ documentTokensTo k s.downlink).getLast?

theorem documentTokensTo_append (k : SocketId) (downlink later : List (SocketId × Message)) :
    documentTokensTo k (downlink ++ later) =
      documentTokensTo k downlink ++ documentTokensTo k later := List.flatMap_append

/-- What a segment puts on the way to a socket of the tab. -/
theorem documentTokensTo_toTab {opened : List SocketId} {k : SocketId} (hk : k ∈ opened) (out : List Effect) :
    documentTokensTo k (out.filterMap (Effect.toTab opened)) =
      (messagesTo k out).flatMap fun m => m.yjs.toList := by
  induction out with
  | nil => rfl
  | cons effect out ih =>
    unfold documentTokensTo messagesTo at ih ⊢
    rw [List.filterMap_cons, List.filterMap_cons]
    cases effect with
    | deliver socket m =>
      by_cases hsocket : socket = k
      · subst hsocket
        simp [Effect.toTab, Effect.messageTo, hk, ih]
      · by_cases hopened : socket ∈ opened
        · simp [Effect.toTab, Effect.messageTo, hopened, hsocket, ih]
        · simp [Effect.toTab, Effect.messageTo, hopened, hsocket, ih]
    | _ => simpa [Effect.toTab, Effect.messageTo] using ih

theorem Message.yjs_of_tokens {m : Message} (h : m.tokens = []) : m.yjs = none := by
  cases m with
  | userJoined userId displayName role mode reconnectToken yjsToken =>
    cases yjsToken with
    | none => rfl
    | some τ => simp [Message.tokens] at h
  | yjsTokenRotated τ => simp [Message.tokens] at h
  | _ => rfl

theorem flatMap_yjs_of_tokens {received : List Message} (h : ∀ m ∈ received, m.tokens = []) :
    (received.flatMap fun m => m.yjs.toList) = [] := by
  refine List.flatMap_eq_nil_iff.mpr fun m hm => ?_
  rw [Message.yjs_of_tokens (h m hm), Option.toList_none]

/-! ## Segments of the server -/

section
variable {cfg : Config} {s : Server} {t : ServerTrigger} {g : Step} {k : SocketId}

/-- A socket that stays in the room is told every new token, and one that comes into the room the present one. -/
theorem fire_tells (h : (server cfg).fire s t = some g) (hattendance : Attendance s)
    (hattendance' : Attendance g.state) (hk : k ∈ g.state.joined) (stored : List Token)
    (hstored : k ∈ s.joined → stored.getLast? = some s.room.yjsToken) :
    (stored ++ (messagesTo k g.out).flatMap fun m => m.yjs.toList).getLast? =
      some g.state.room.yjsToken := by
  cases fire_tokenMessages h with
  | silent hyjs hjoined hout =>
    rw [flatMap_yjs_of_tokens (hout k), List.append_nil, hyjs]
    exact hstored (hjoined.subset hk)
  | joined socket user announced users fresh hanswers =>
    have hyjs : g.state.room.yjsToken = s.room.yjsToken := congrArg RoomView.yjsToken hanswers.view
    by_cases hsocket : socket = k
    · subst hsocket
      have hlive : socket ∈ s.live := by
        have hsame : g.state.live = s.live := congrArg RoomView.live hanswers.view
        exact hsame ▸ hattendance'.live socket hk
      have hreaches : reaches s.live socket socket = 1 := if_pos ⟨rfl, hlive⟩
      rw [hanswers.out socket, hreaches]
      simp [joinMessages, Message.yjs]
    · have hnone : messagesTo k g.out = [] := by
        rw [hanswers.out k, reaches_ne hsocket]
        rfl
      have hjoined : g.state.joined =
          if socket ∈ s.live ∧ socket ∉ s.joined then s.joined ++ [socket] else s.joined :=
        congrArg RoomView.joined hanswers.view
      have hbefore : k ∈ s.joined := by
        rw [hjoined] at hk
        split_ifs at hk
        · exact (List.mem_append.mp hk).resolve_right fun hm => hsocket (List.mem_singleton.mp hm).symm
        · exact hk
      rw [hnone, List.flatMap_nil, List.append_nil, hyjs]
      exact hstored hbefore
  | rotated hjoined hout =>
    rw [hout k, List.count_eq_one_of_mem hattendance.distinct (hjoined ▸ hk)]
    simp [Message.yjs]

end

/-! ## What a tab has -/

variable {cfg : Config} {past : List SessionTurn} {c c' : SessionConf} {out : List Effect}
  {t : SessionTrigger} {rest : List Task}

structure DocumentToken (past : List SessionTurn) (c : SessionConf) : Prop where
  joins : TabJoins past c
  attendance : Attendance c.shared.room
  /-- who is in the room has joined -/
  present : ∀ k ∈ c.shared.opened, k ∈ c.shared.room.joined → k ∈ c.shared.joinedOver
  current : ∀ k, c.shared.tab.socketId = some k → k ∈ c.shared.room.joined →
    c.shared.lastToken k = some c.shared.room.room.yjsToken

/-- The handlers are bound when messages arrive, and the tokens are stored. -/
def Listens (s : Session) : SessionTrigger → Prop
  | .event (.read browser _) => s.tab.bound = true ∧ browser.writes .yjsToken = true
  | _ => True

instance (s : Session) : ∀ t : SessionTrigger, Decidable (Listens s t)
  | .event (.read _ _) => inferInstanceAs (Decidable (_ ∧ _))
  | .event (.server _) | .event .accept | .event (.connected _) | .event (.page _) | .event (.arrive _)
  | .event (.lose _) | .task _ _ => isTrue trivial

/-- A join whose answer brings its socket into the room was under way. -/
theorem AnswersJoin.joinsOver {s : Server} {t : ServerTrigger} {g : Step} {k : SocketId}
    {user : RoomUserInternal} {announced : Option RoomUser} {users : List RoomUserInternal} {fresh : ℕ}
    (h : AnswersJoin s t g k user announced users fresh) : 0 < t.taken.countP (Task.joinsOver k) := by
  have hanswering := h.answering
  unfold CodeShare.answering at hanswering
  split at hanswering
  · split_ifs at hanswering
    obtain rfl := Option.some.inj hanswering
    simp [Trigger.taken, Task.joinsOver, Task.join]
  · split_ifs at hanswering
    obtain rfl := Option.some.inj hanswering
    simp [Trigger.taken, Task.joinsOver, Task.join]
  · cases hanswering

theorem DocumentToken.server (h : DocumentToken past c) (hjoins : TabJoins (past ++ [⟨c, t, c', out⟩]) c')
    {t' : ServerTrigger} {s₁ : Session} {g : Step} (hfires : ServerFires cfg c.shared t t' s₁ g)
    (hby : (server cfg).StepBy (serverConf c) (serverConf c') out t' g rest)
    (hshared : c'.shared = (ofServer s₁ g).state) : DocumentToken (past ++ [⟨c, t, c', out⟩]) c' := by
  have hroom : c'.shared.room = g.state := congrArg Session.room hshared
  have htab : c'.shared.tab = c.shared.tab := by rw [hshared]; cases hfires <;> rfl
  have hover : c'.shared.joinedOver = c.shared.joinedOver := by
    rw [hshared]
    cases hfires <;> rfl
  have hattendance : Attendance g.state := (fire_announces hby.fire).attendance h.attendance
  have hopened : c'.shared.opened = s₁.opened := by rw [hshared]; rfl
  have hkept : ∀ k ∈ c.shared.opened, k ∈ s₁.opened := by
    cases hfires with
    | accept g hfire => exact fun k hk => List.mem_append_left _ hk
    | _ => exact fun k hk => hk
  have hnew : ∀ k ∈ s₁.opened, k ∈ c.shared.opened ∨ c.shared.room.nextSocket ≤ k := by
    cases hfires with
    | accept g hfire =>
      exact forall_mem_concat (fun k hk => .inl hk) (.inr (Nat.le_refl _))
    | _ => exact fun k hk => .inl hk
  refine ⟨hjoins, hroom ▸ hattendance, ?_, ?_⟩
  · intro k hk hjoined
    rw [hover]
    rw [hroom] at hjoined
    rw [hopened] at hk
    rcases (fire_announces hby.fire).joined_before hjoined with hbefore | ⟨user, announced, users, fresh, hanswers⟩
    · rcases hnew k hk with hk | hk
      · exact h.present k hk hbefore
      · exact absurd (h.joins.live k (h.attendance.live k hbefore)) hk.not_gt
    · -- the join that is answered is one of those that the tab has sent
      have htaken := hanswers.joinsOver
      have hpool := hby.before.countP_eq (Task.joinsOver k)
      have hcounted := h.joins.counted k (hnew k hk)
      rw [List.countP_append] at hpool
      change _ = c.pool.countP _ at hpool
      unfold joinsCounted at hcounted
      exact List.count_pos_iff.mp (by omega)
  · intro k hk hjoined
    rw [htab] at hk
    rw [hroom] at hjoined
    have hopen := h.joins.connected k hk
    have hdown : c'.shared.downlink = c.shared.downlink ++ g.out.filterMap (Effect.toTab s₁.opened) := by
      rw [hshared]
      cases hfires <;> rfl
    unfold Session.lastToken
    rw [htab, hdown, documentTokensTo_append, documentTokensTo_toTab (hkept k hopen), ← List.append_assoc, hroom]
    exact fire_tells hby.fire h.attendance hattendance hjoined _ fun hbefore => h.current k hk hbefore

/-- An event of the tab other than a message. -/
theorem DocumentToken.tab (h : DocumentToken past c) {e : TabEvent} {tab' : Tab} {sent : Option SentJoin}
    {k : SocketId} (htab : handleTab c.shared.tab e = some (tab', sent))
    (hconnect : ∀ browser j, e = .connect browser j → c.shared.pending = some j)
    (hreceive : ∀ browser now m, e ≠ .receive browser now m) (hk : tab'.socketId = some k)
    (hjoined : k ∈ c.shared.room.joined) :
    (tab'.storage.yjsToken.toList ++ documentTokensTo k c.shared.downlink).getLast? =
      some c.shared.room.room.yjsToken := by
  have hbefore : c.shared.tab.socketId = some k := by
    have hnew : ∀ browser, e ≠ .connect browser k := by
      intro browser hevent
      obtain ⟨hopened, hnot, -⟩ := h.joins.pending k (hconnect browser k hevent)
      exact hnot (h.present k hopened hjoined)
    cases handleTab_marks htab with
    | sends join hsocket _ _ hafter _ =>
      obtain rfl := Option.some.inj (hafter.symm.trans hk)
      exact hsocket.resolve_right fun ⟨browser, hevent⟩ => hnew browser hevent
    | silent hsocket =>
      exact ((hsocket k hk).resolve_left fun ⟨browser, hevent⟩ => hnew browser hevent).1
  rw [(handleTab_keeps htab hreceive).yjsToken]
  exact h.current k hbefore hjoined

/-- A message that is read is stored when it has a token. -/
theorem handleMessage_yjs {tab : Tab} {browser : Browser} (hbound : tab.bound = true)
    (hwrites : browser.writes .yjsToken = true) (now : Time) (m : Message) (later : List Token) :
    ((handleMessage browser now tab m).storage.yjsToken.toList ++ later).getLast? =
      (tab.storage.yjsToken.toList ++ (m.yjs.toList ++ later)).getLast? := by
  have hstored : (handleMessage browser now tab m).storage.yjsToken = m.yjs.or tab.storage.yjsToken := by
    unfold handleMessage
    rw [if_pos hbound]
    cases m <;> simp [storeTokens, storeSessionValue, hwrites, Message.yjs]
  rw [hstored]
  cases m.yjs with
  | none => simp
  | some τ => exact (List.getLast?_append_of_ne_nil _ (List.cons_ne_nil τ later)).symm

theorem documentToken_step (h : DocumentToken past c) (hlistens : Listens c.shared t) {g : SessionStep}
    (hby : (session cfg).StepBy c c' out t g rest) : DocumentToken (past ++ [⟨c, t, c', out⟩]) c' := by
  have hjoins := tabJoins_step h.joins hby
  cases session_moves hby with
  | server t' s₁ g' hfires hby' hshared hturn => exact h.server hjoins hfires hby' hshared
  | tab s₁ hfires hshared hpool hout hturn =>
    have hroom : c'.shared.room = c.shared.room := by rw [hshared, hfires.room]
    have hopened : c'.shared.opened = c.shared.opened := by
      rw [hshared]
      cases hfires <;> rfl
    have hover : ∀ k ∈ c.shared.joinedOver, k ∈ c'.shared.joinedOver := by
      unfold Session.joinedOver
      rw [hshared]
      intro k hk
      cases hfires <;> first | exact hk | simp [List.map_append, hk]
    refine ⟨hjoins, hroom ▸ h.attendance, ?_, ?_⟩
    · rw [hopened, hroom]
      exact fun k hk hjoined => hover k (h.present k hk hjoined)
    · intro k hk hjoined
      rw [hroom] at hjoined ⊢
      unfold Session.lastToken
      cases hfires with
      | connected browser j tab' sent hpending htab =>
        rw [hshared] at hk ⊢
        refine h.tab htab ?_ nofun hk hjoined
        rintro browser' j' hevent
        cases hevent
        exact hpending
      | page e tab' sent hlocal htab =>
        rw [hshared] at hk ⊢
        refine h.tab htab ?_ ?_ hk hjoined
        · rintro browser j rfl
          cases hlocal
        · rintro browser now m rfl
          cases hlocal
      | lost i join hunderway =>
        rw [hshared] at hk ⊢
        exact h.current k hk hjoined
      | read browser now j m rest hunderway hsocket =>
        obtain ⟨hbound, hwrites⟩ := hlistens
        have hk' : c.shared.tab.socketId = some k := by
          rw [hshared] at hk
          unfold handleMessage at hk
          rw [if_pos hbound] at hk
          exact hk
        obtain rfl : j = k := Option.some.inj (hsocket.symm.trans hk')
        have hcurrent := h.current j hk' hjoined
        unfold Session.lastToken documentTokensTo at hcurrent
        rw [hunderway, List.flatMap_cons, if_pos rfl] at hcurrent
        rw [hshared]
        exact (handleMessage_yjs hbound hwrites now m _).trans hcurrent
      | dropped browser now j m rest hunderway hsocket =>
        rw [hshared] at hk ⊢
        have hne : j ≠ k := by
          rintro rfl
          exact hsocket hk
        have hcurrent := h.current k hk hjoined
        unfold Session.lastToken documentTokensTo at hcurrent
        rw [hunderway, List.flatMap_cons, if_neg hne, List.nil_append] at hcurrent
        exact hcurrent

theorem initial_documentToken (cfg : Config) (mode : RoomMode) (now : Time) (displayName : Option JsString) :
    DocumentToken [] (initialSession cfg mode now displayName) where
  joins := initial_tabJoins cfg mode now displayName
  attendance := attendance_initial mode now
  present := nofun
  current := nofun

/-- **The token of the document.** In every run of the server and a tab whose handlers are bound when messages
arrive and store what they get: while the socket of the tab is in the room and no message to it is under way, the
stored token is the one that the room has now. -/
theorem stored_token_current {cfg : Config} {mode : RoomMode} {now : Time} {displayName : Option JsString}
    {acts : List SessionAct} {c : SessionConf} {out : List Effect} {k : SocketId}
    (hreach : SessionReaches cfg mode now displayName acts c out)
    (hlistens : (session cfg).Meets (fun c t => Listens c.shared t)
      (initialSession cfg mode now displayName) acts)
    (hk : c.shared.tab.socketId = some k) (hjoined : k ∈ c.shared.room.joined)
    (hread : ∀ message ∈ c.shared.downlink, message.1 ≠ k) :
    c.shared.tab.storage.yjsToken = some c.shared.room.room.yjsToken := by
  have h : DocumentToken ((session cfg).history (initialSession cfg mode now displayName) acts) c := by
    refine Machine.run_history_preserves (P := fun _ c t => Listens c.shared t)
      (I := fun past c => DocumentToken past c) (fun _ _ _ _ _ _ _ h hP hby => documentToken_step h hP hby)
      (initial_documentToken cfg mode now displayName) ?_ hreach
    intro past turn later hsplit
    exact (Machine.meets_iff_history hreach).mp hlistens turn
      (hsplit ▸ List.mem_append_right _ List.mem_cons_self)
  have hnone : documentTokensTo k c.shared.downlink = [] := by
    refine List.flatMap_eq_nil_iff.mpr fun message hm => ?_
    rw [if_neg (hread message hm)]
  have hcurrent := h.current k hk hjoined
  unfold Session.lastToken at hcurrent
  rw [hnone, List.append_nil] at hcurrent
  cases hstored : c.shared.tab.storage.yjsToken with
  | none =>
    rw [hstored] at hcurrent
    cases hcurrent
  | some τ =>
    rw [hstored] at hcurrent
    exact hcurrent

/-- Somebody else joins, leaves, and loses the seat when the grace period ends. -/
def exampleRotation : List SessionAct :=
  exampleSession ++ [.event (.server .connect),
    .event (.server (.receive 1 (.userJoin (some ⟨js "friend", none⟩)))), .resume 0 .go, .resume 0 .allowed,
    .resume 0 .go, .event (.server (.disconnect 1)), .event (.server (.tick (5 * 60 * 1000))),
    .event (.server (.timeout 0)), .event (.read plainBrowser 0), .event (.read plainBrowser 0),
    .event (.read plainBrowser 0)]

theorem stored_token_current_example : ∃ c out,
    SessionReaches plainConfig .collaboration 0 (some (js "guest")) exampleRotation c out ∧
    c.shared.room.room.yjsToken = 5 ∧
    c.shared.tab.storage.yjsToken = some c.shared.room.room.yjsToken := by
  obtain ⟨c, out, hreach, hyjs, hsocket, hjoined, hdownlink⟩ : ∃ c out,
      SessionReaches plainConfig .collaboration 0 (some (js "guest")) exampleRotation c out ∧
      c.shared.room.room.yjsToken = 5 ∧ c.shared.tab.socketId = some 0 ∧ c.shared.room.joined = [0] ∧
      c.shared.downlink = [] := ⟨_, _, rfl, rfl, rfl, rfl, rfl⟩
  have hlistens : (session plainConfig).Meets (fun c t => Listens c.shared t)
      (initialSession plainConfig .collaboration 0 (some (js "guest"))) exampleRotation := by
    decide
  refine ⟨c, out, hreach, hyjs, stored_token_current hreach hlistens hsocket ?_ ?_⟩
  · rw [hjoined]
    exact List.mem_singleton_self _
  · rw [hdownlink]
    exact List.forall_mem_nil _

end CodeShare
