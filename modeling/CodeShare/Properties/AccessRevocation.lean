import CodeShare.Server.Site
import CodeShare.Server.TokenSteps

/-! # Access behind a removal

When a user is removed the room gets a new token. Whoever knows only older ones gets no connection into the
document any more; nothing happens to the connections that are already there. Access ends with the removal
exactly for a party whose connections to the document are finished by then.
-/

namespace CodeShare
open Tasks
set_option autoImplicit false

/-- The Yjs tokens in a message. -/
def Message.yjsTokens : Message → List Token
  | userJoined _ _ _ _ _ yjsToken => yjsToken.toList
  | yjsTokenRotated yjsToken => [yjsToken]
  | _ => []

/-- Somebody with sockets and websocket connections. -/
structure Party where
  socket : SocketId → Prop
  conn : Ws.ConnId → Prop

section
variable {Document Awareness Payload : Type} (cfg : SiteConfig Document Awareness Payload) (party : Party)

/-- One of the connections of the room's document. -/
def Site.Connected (s : Site Document Awareness) (conn : Ws.ConnId) : Prop :=
  ∃ d, s.yjs.findSharedDoc cfg.roomCode = some d ∧ (s.yjs.heap d).has conn = true

/-- The connection that a segment is about. -/
def siteConn : SiteTrigger cfg → Option Ws.ConnId
  | .event (.inr e) =>
    match e with
    | .connection conn _ | .message conn _ _ | .closing conn | .close conn | .sendFailed conn
    | .pingFailed conn | .revalidate conn => some conn
    | .createRoom _ _ | .rotateToken _ _ | .destroyRoom _ | .shutdown => none
  | .task (.inr task) _ => some task.conn
  | _ => none

/-- The Yjs tokens that a socket is sent. -/
def tokensTo (k : SocketId) (out : List (SiteEffect Payload)) : List Token :=
  (messagesTo k (out.filterMap Sum.getLeft?)).flatMap Message.yjsTokens

/-- The user is removed at the end of its grace period, and the room gets another token. -/
structure Removal (turn : SiteTurn cfg) (userId : UserId) : Prop where
  timeout : ∃ timer ∈ turn.before.shared.room.timers, timer.kind = .grace userId ∧
    turn.trigger = .event (.inl (.timeout timer.id))
  removed : userId ∈ turn.before.shared.room.room.users.map (·.id) ∧
    userId ∉ turn.after.shared.room.room.users.map (·.id)
  rotated : turn.after.shared.room.room.yjsToken ≠ turn.before.shared.room.room.yjsToken

/-- Tokens cannot be guessed: the party presents one that has been sent to a socket of its own. -/
def PresentsKnown (history : List (SiteTurn cfg)) : Prop :=
  ∀ past turn later, history = past ++ turn :: later → ∀ conn request τ,
    turn.trigger = .event (.inr (.connection conn request)) → party.conn conn →
    Ws.extractToken request.url = some (cfg.tokenText τ) →
    ∃ k, party.socket k ∧ τ ∈ tokensTo k (past.flatMap Turn.out)

/-- The party is sent only tokens that have been issued before the given one. -/
def KnowsOlder (history : List (SiteTurn cfg)) (rotated : Token) : Prop :=
  ∀ k, party.socket k → ∀ τ ∈ tokensTo k (history.flatMap Turn.out), τ < rotated

/-- The connection is not one of the document, and if it was it is closed and none of its messages
waits. -/
structure Finished (c : SiteConf cfg) (conn : Ws.ConnId) : Prop where
  absent : ¬ c.shared.Connected cfg conn
  closed : ∀ d, c.shared.yjs.findSharedDoc cfg.roomCode = some d → c.shared.yjs.joined conn = some d →
    (c.shared.yjs.sockets conn).readyState = .closed ∧
      ∀ size message, .inr (.validateMessage conn size message) ∉ c.pool

/-- No connection of the party is in the document, and no segment of one of them changes it. -/
structure Revoked (turn : SiteTurn cfg) : Prop where
  before : ∀ conn, party.conn conn → ¬ turn.before.shared.Connected cfg conn
  after : ∀ conn, party.conn conn → ¬ turn.after.shared.Connected cfg conn
  unchanged : ∀ conn, party.conn conn → siteConn cfg turn.trigger = some conn →
    ∀ d, turn.before.shared.yjs.findSharedDoc cfg.roomCode = some d →
      (turn.after.shared.yjs.heap d).document = (turn.before.shared.yjs.heap d).document

/-! ## The link between the servers -/

/-- What holds of both servers along every run. -/
structure Linked (c : SiteConf cfg) : Prop where
  numbered : Ws.Numbered c.shared.yjs
  roster : Roster c.shared.room.room.mode c.shared.room.room.users c.shared.room.fresh
  known : KnownBy cfg c.shared.yjs c.shared.room

variable {cfg party} {c c' : SiteConf cfg} {out : List (SiteEffect Payload)} {t : SiteTrigger cfg}
  {g : SiteStep cfg} {rest : List (SiteTask cfg)}

theorem initial_linked (mode : RoomMode) (now : Time) : Linked cfg (initialSite cfg mode now) where
  numbered := (Ws.initial_numbered cfg.yjs).keeps
    ⟨rfl, rfl, List.Sublist.refl _, fun _ _ h => h, fun _ h => h, fun d (_ : none ≠ some d) => rfl⟩
  roster := initial_roster mode
  known := by
    intro text htext
    have hfirst : Ws.tokenOf (initialSite cfg mode now).shared.yjs cfg.roomCode =
        some (cfg.tokenText 0) := by
      simp [Ws.tokenOf, initialSite, Ws.createRoom, Ws.initialYjs]
    exact (Option.some.inj (hfirst.symm.trans htext)).symm

/-- The tokens of this room do not change with what happens to the Yjs server. -/
theorem fire_tokenOf {s : Ws.YjsServer Document Awareness} {t : Ws.YjsTrigger cfg.yjs}
    {y : Ws.YjsStep cfg.yjs} (h : (Ws.yjsServer cfg.yjs).fire s t = some y)
    (hhappens : ∀ e, t = .event e → happens cfg s e) :
    Ws.tokenOf y.state cfg.roomCode = Ws.tokenOf s cfg.roomCode := by
  rcases Ws.fire_rooms cfg.yjs h with hsame | ⟨roomCode, yjsToken, rfl, rfl⟩ |
    ⟨roomCode, yjsToken, rfl, rfl⟩ | ⟨roomCode, rfl, rfl⟩
  · unfold Ws.tokenOf
    rw [hsame]
  · exact Ws.tokenOf_createRoom (hhappens _ rfl) yjsToken
  · rw [Segment.of_state, Ws.tokenOf_rotateToken]
    have hne : roomCode ≠ cfg.roomCode := hhappens _ rfl
    simp [hne]
  · rw [Ws.tokenOf_destroyRoom, if_neg (hhappens _ rfl)]

theorem linked_step (h : Linked cfg c) (hby : (site cfg).StepBy c c' out t g rest) : Linked cfg c' := by
  have hroom : ∀ (t' : ServerTrigger) (g' : Step), (server cfg.room).fire c.shared.room t' = some g' →
      c'.shared = (ofRoom cfg c.shared g').state → Linked cfg c' := by
    intro t' g' hfire hshared
    have hyjs : c'.shared.yjs = (follow cfg c.shared.yjs c.shared.room g'.state).state := by rw [hshared]; rfl
    have hserver : c'.shared.room = g'.state := by rw [hshared]; rfl
    refine ⟨?_, ?_, ?_⟩
    · rw [hyjs]
      exact h.numbered.keeps (follow_keeps _ _ _)
    · rw [hserver]
      exact roster_step h.roster hfire
    · rw [hyjs, hserver]
      exact follow_knownBy h.known g'.state
  have hyjs : ∀ (t' : Ws.YjsTrigger cfg.yjs) (y : Ws.YjsStep cfg.yjs),
      (Ws.yjsServer cfg.yjs).fire c.shared.yjs t' = some y →
      (∀ e, t' = .event e → happens cfg c.shared.yjs e) →
      c'.shared = (ofYjs cfg c.shared y).state → Linked cfg c' := by
    intro t' y hfire hhappens hshared
    have hyjs : c'.shared.yjs = y.state := by rw [hshared]; rfl
    have hserver : c'.shared.room = c.shared.room := by rw [hshared]; rfl
    refine ⟨?_, ?_, ?_⟩
    · rw [hyjs]
      exact h.numbered.step cfg.yjs hfire
    · rw [hserver]
      exact h.roster
    · rw [hyjs, hserver]
      intro text htext
      rw [fire_tokenOf hfire hhappens] at htext
      exact h.known text htext
  cases site_fires hby.fire with
  | roomEvent e g' hfire => exact hroom _ g' hfire hby.shared
  | roomTask task o g' hfire => exact hroom _ g' hfire hby.shared
  | yjsEvent e y hhappens hfire =>
    refine hyjs _ y hfire (fun e' he' => ?_) hby.shared
    cases he'
    exact hhappens
  | yjsTask task o y hfire => exact hyjs _ y hfire nofun hby.shared

/-! ## What the party can present -/

/-- The party presents only tokens older than the given one. -/
def PresentsOlder (party : Party) (rotated : Token) (t : SiteTrigger cfg) : Prop :=
  ∀ conn request, t = .event (.inr (.connection conn request)) → party.conn conn →
    ∀ τ, Ws.extractToken request.url = some (cfg.tokenText τ) → τ < rotated

/-- And no other one waits with a connection of it. -/
def WaitsOlder (party : Party) (rotated : Token) (c : SiteConf cfg) : Prop :=
  ∀ opened, .inr (.validateConnection opened) ∈ c.pool → party.conn opened.conn →
    ∀ τ, Ws.extractToken opened.request.url = some (cfg.tokenText τ) → τ < rotated

/-- A task of the Yjs server comes from a segment of it. -/
theorem pending_yjs {task : Ws.YjsTask cfg.yjs.toLowerCase Payload}
    (hby : (site cfg).StepBy c c' out t g rest) (hm : .inr task ∈ c'.pool) : .inr task ∈ c.pool ∨
      ∃ e y, t = .event (.inr e) ∧ (Ws.yjsServer cfg.yjs).fire c.shared.yjs (.event e) = some y ∧
        happens cfg c.shared.yjs e ∧ task ∈ y.next := by
  rcases hby.mem_after hm with hrest | hnew
  · exact .inl (hby.mem_of_rest hrest)
  have hroom : ∀ g' : Step, Sum.inr task ∉ (ofRoom cfg c.shared g').next := by
    intro g' hmem
    rcases List.mem_append.mp hmem with hmem | hmem
    · obtain ⟨_, -, heq⟩ := List.mem_map.mp hmem
      cases heq
    · rw [follow_next] at hmem
      cases hmem
  cases site_fires hby.fire with
  | roomEvent e g' _ => exact absurd hnew (hroom g')
  | roomTask task' o g' _ => exact absurd hnew (hroom g')
  | yjsEvent e y hhappens hfire =>
    obtain ⟨task', htask', heq⟩ := List.mem_map.mp hnew
    cases heq
    exact .inr ⟨e, y, rfl, hfire, hhappens, htask'⟩
  | yjsTask task' o y hfire =>
    obtain ⟨task'', htask'', -⟩ := List.mem_map.mp hnew
    exfalso
    cases Ws.fire_next cfg.yjs hfire with
    | none hnext =>
      rw [hnext] at htask''
      cases htask''
    | connection _ ht _ => cases ht
    | message _ _ _ ht _ => cases ht
    | access _ ht _ => cases ht

theorem waitsOlder_step {rotated : Token} (h : WaitsOlder party rotated c)
    (holder : PresentsOlder party rotated t) (hby : (site cfg).StepBy c c' out t g rest) :
    WaitsOlder party rotated c' := by
  intro opened hm hconn τ hτ
  rcases pending_yjs hby hm with hold | ⟨e, y, rfl, hfire, -, hnew⟩
  · exact h opened hold hconn τ hτ
  · cases Ws.fire_next cfg.yjs hfire with
    | none hnext =>
      rw [hnext] at hnew
      cases hnew
    | connection opened' ht hg =>
      rw [hg] at hnew
      cases List.mem_singleton.mp hnew
      cases ht
      exact holder opened.conn opened.request rfl hconn τ hτ
    | message _ _ _ _ hg =>
      rw [hg] at hnew
      cases List.mem_singleton.mp hnew
    | access _ _ hg =>
      rw [hg] at hnew
      cases List.mem_singleton.mp hnew

/-- The room has a token that is not older. -/
structure Renewed (rotated : Token) (c : SiteConf cfg) : Prop where
  current : rotated ≤ c.shared.room.room.yjsToken
  fresh : rotated < c.shared.room.fresh

/-- A token that a segment changes is a new one. -/
theorem fire_yjsToken {s : Server} {t : ServerTrigger} {g : Step}
    (hroster : Roster s.room.mode s.room.users s.fresh) (h : (server cfg.room).fire s t = some g) :
    s.fresh ≤ g.state.fresh ∧ (g.state.room.yjsToken = s.room.yjsToken ∨
      s.fresh ≤ g.state.room.yjsToken ∧ g.state.room.yjsToken < g.state.fresh) := by
  cases fire_tokens hroster.fresh h with
  | kept _ hfresh hyjs _ => exact ⟨hfresh, hyjs⟩
  | issued i _ hfresh hyjs _ _ => exact ⟨(hfresh.1.trans_lt hfresh.2).le, .inl hyjs⟩

/-- What a segment does to the room's token. -/
theorem site_yjsToken (h : Linked cfg c) (hby : (site cfg).StepBy c c' out t g rest) :
    c.shared.room.fresh ≤ c'.shared.room.fresh ∧
      (c'.shared.room.room.yjsToken = c.shared.room.room.yjsToken ∨
        c.shared.room.fresh ≤ c'.shared.room.room.yjsToken ∧
          c'.shared.room.room.yjsToken < c'.shared.room.fresh) := by
  rw [hby.shared]
  cases site_fires hby.fire with
  | roomEvent e g' hfire => exact fire_yjsToken h.roster hfire
  | roomTask task o g' hfire => exact fire_yjsToken h.roster hfire
  | yjsEvent e y _ _ => exact ⟨Nat.le_refl _, .inl rfl⟩
  | yjsTask task o y _ => exact ⟨Nat.le_refl _, .inl rfl⟩

theorem renewed_step {rotated : Token} (hlinked : Linked cfg c) (h : Renewed rotated c)
    (hby : (site cfg).StepBy c c' out t g rest) : Renewed rotated c' := by
  obtain ⟨hfresh, hsame | hnew⟩ := site_yjsToken hlinked hby
  · exact ⟨hsame ▸ h.current, h.fresh.trans_le hfresh⟩
  · exact ⟨h.fresh.le.trans hnew.1, h.fresh.trans_le hfresh⟩

/-! ## Who is in the document -/

/-- The Yjs server's part of a segment of the site. -/
inductive SiteMembership (c c' : SiteConf cfg) (t : SiteTrigger cfg) : Prop where
  | keeps (written : Option Ws.DocId)
      (hwritten : ∀ d, written = some d → ∃ conn size message,
        t = .task (.inr (.validateMessage conn size message)) (.inr .allowed) ∧
          c.shared.yjs.joined conn = some d)
      (h : Ws.Keeps written c.shared.yjs c'.shared.yjs)
  | joins (opened : Ws.Opened cfg.yjs.toLowerCase) (d : Ws.DocId) (yjsToken : JsString)
      (ht : t = .task (.inr (.validateConnection opened)) (.inr .allowed) ∧
          .inr (.validateConnection opened) ∈ c.pool ∨
        t = .event (.inr (.connection opened.conn opened.request)))
      (hroom : c.shared.yjs.getRoom cfg.yjs opened.roomName = some yjsToken)
      (htoken : Ws.extractToken opened.request.url = some yjsToken)
      (h : Ws.Joins cfg.yjs c.shared.yjs c'.shared.yjs opened d)

theorem appliedMessage_task {t : Ws.YjsTrigger cfg.yjs} {conn : Ws.ConnId} {message : Ws.Message Payload}
    (h : Ws.appliedMessage cfg.yjs t = some (conn, message)) :
    ∃ size, t = .task (.validateMessage conn size message) .allowed := by
  unfold Ws.appliedMessage at h
  split at h
  · split_ifs at h
    cases h
    exact ⟨_, rfl⟩
  · cases h

theorem site_membership (hby : (site cfg).StepBy c c' out t g rest) : SiteMembership c c' t := by
  have hshared := hby.shared
  cases site_fires hby.fire with
  | roomEvent e g' hfire =>
    refine .keeps none nofun ?_
    rw [hshared]
    exact follow_keeps _ _ _
  | roomTask task o g' hfire =>
    refine .keeps none nofun ?_
    rw [hshared]
    exact follow_keeps _ _ _
  | yjsEvent e y hhappens hfire =>
    have hyjs : c'.shared.yjs = y.state := by rw [hshared]; rfl
    cases Ws.fire_membership cfg.yjs hfire with
    | keeps written hwritten h =>
      refine .keeps written (fun d hd => ?_) (hyjs ▸ h)
      obtain ⟨conn, message, happlied, -⟩ := hwritten d hd
      obtain ⟨size, heq⟩ := appliedMessage_task happlied
      cases heq
    | joins opened d yjsToken ht hroom htoken h =>
      refine .joins opened d yjsToken (.inr ?_) hroom htoken (hyjs ▸ h)
      rcases ht with heq | heq <;> cases heq
      rfl
  | yjsTask task o y hfire =>
    have hyjs : c'.shared.yjs = y.state := by rw [hshared]; rfl
    have hmem : .inr task ∈ c.pool := hby.mem_of_taken (List.mem_singleton_self _)
    cases Ws.fire_membership cfg.yjs hfire with
    | keeps written hwritten h =>
      refine .keeps written (fun d hd => ?_) (hyjs ▸ h)
      obtain ⟨conn, message, happlied, hjoined⟩ := hwritten d hd
      obtain ⟨size, heq⟩ := appliedMessage_task happlied
      cases heq
      exact ⟨conn, size, message, rfl, hjoined⟩
    | joins opened d yjsToken ht hroom htoken h =>
      refine .joins opened d yjsToken (.inl ?_) hroom htoken (hyjs ▸ h)
      rcases ht with heq | heq <;> cases heq
      exact ⟨rfl, hmem⟩

/-- A message starts to wait when it arrives, from a websocket that is not closed. -/
theorem pending_message (hby : (site cfg).StepBy c c' out t g rest) {conn : Ws.ConnId} {size : ℕ}
    {message : Ws.Message Payload} (hm : .inr (.validateMessage conn size message) ∈ c'.pool) :
    .inr (.validateMessage conn size message) ∈ c.pool ∨
      t = .event (.inr (.message conn size message)) ∧
        (c.shared.yjs.sockets conn).readyState ≠ .closed := by
  rcases pending_yjs hby hm with hold | ⟨e, y, rfl, hfire, hhappens, hnew⟩
  · exact .inl hold
  · right
    cases Ws.fire_next cfg.yjs hfire with
    | none hnext =>
      rw [hnext] at hnew
      cases hnew
    | connection _ _ hg =>
      rw [hg] at hnew
      cases List.mem_singleton.mp hnew
    | message conn' size' message' ht hg =>
      rw [hg] at hnew
      cases List.mem_singleton.mp hnew
      cases ht
      exact ⟨rfl, hhappens⟩
    | access _ _ hg =>
      rw [hg] at hnew
      cases List.mem_singleton.mp hnew

/-- A connection of the party does not get into the document. -/
theorem joins_elsewhere {rotated : Token} (hlinked : Linked cfg c) (hrenewed : Renewed rotated c)
    (hwaits : WaitsOlder party rotated c) (holder : PresentsOlder party rotated t)
    {opened : Ws.Opened cfg.yjs.toLowerCase} {yjsToken : JsString}
    (ht : t = .task (.inr (.validateConnection opened)) (.inr .allowed) ∧
        .inr (.validateConnection opened) ∈ c.pool ∨
      t = .event (.inr (.connection opened.conn opened.request)))
    (hroom : c.shared.yjs.getRoom cfg.yjs opened.roomName = some yjsToken)
    (htoken : Ws.extractToken opened.request.url = some yjsToken) (hname : opened.roomName = cfg.roomCode) :
    ¬ party.conn opened.conn := by
  intro hconn
  have hcurrent : yjsToken = cfg.tokenText c.shared.room.room.yjsToken := by
    apply hlinked.known
    rw [hname] at hroom
    unfold Ws.YjsServer.getRoom at hroom
    rwa [cfg.normalized] at hroom
  rw [hcurrent] at htoken
  have hlt : c.shared.room.room.yjsToken < rotated := by
    rcases ht with ⟨-, hm⟩ | ht
    · exact hwaits opened hm hconn _ htoken
    · exact holder opened.conn opened.request ht hconn _ htoken
  exact absurd hlt hrenewed.current.not_gt

/-- The document of the room was there before, unless somebody has just joined it. -/
theorem document_before (hlinked : Linked cfg c) (hlinked' : Linked cfg c') {d : Ws.DocId}
    (hdocs : ∀ d', (cfg.roomCode, d') ∈ c'.shared.yjs.docs → (cfg.roomCode, d') ∈ c.shared.yjs.docs)
    (hd : c'.shared.yjs.findSharedDoc cfg.roomCode = some d) :
    c.shared.yjs.findSharedDoc cfg.roomCode = some d :=
  hlinked.numbered.find_iff.mpr (hdocs d (hlinked'.numbered.find_iff.mp hd))

/-- No message of a finished connection starts to wait. -/
theorem Finished.idle (hby : (site cfg).StepBy c c' out t g rest) {conn : Ws.ConnId}
    (h : Finished cfg c conn) {d : Ws.DocId} (hd : c.shared.yjs.findSharedDoc cfg.roomCode = some d)
    (hjoined : c.shared.yjs.joined conn = some d) (size : ℕ) (message : Ws.Message Payload) :
    .inr (.validateMessage conn size message) ∉ c'.pool := by
  intro hm
  obtain ⟨hclosed, hidle⟩ := h.closed d hd hjoined
  rcases pending_message hby hm with hold | ⟨-, hopen⟩
  · exact hidle size message hold
  · exact hopen hclosed

/-- Nothing that only removes connections lets a finished one start again. -/
theorem Finished.keeps (hlinked : Linked cfg c) (hlinked' : Linked cfg c')
    (hby : (site cfg).StepBy c c' out t g rest) {written : Option Ws.DocId}
    (hkeeps : Ws.Keeps written c.shared.yjs c'.shared.yjs) {conn : Ws.ConnId} (h : Finished cfg c conn) :
    Finished cfg c' conn := by
  have hbefore : ∀ {d}, c'.shared.yjs.findSharedDoc cfg.roomCode = some d →
      c.shared.yjs.findSharedDoc cfg.roomCode = some d :=
    document_before hlinked hlinked' fun d' hm => hkeeps.docs.subset hm
  refine ⟨?_, fun d hd hjoined => ?_⟩
  · rintro ⟨d, hd, hhas⟩
    exact h.absent ⟨d, hbefore hd, hkeeps.conns d conn hhas⟩
  · rw [hkeeps.joined] at hjoined
    have hfinished := h.closed d (hbefore hd) hjoined
    exact ⟨hkeeps.closed conn hfinished.1, h.idle hby (hbefore hd) hjoined⟩

/-- A finished connection of the party stays finished. -/
theorem finished_step {rotated : Token} (hlinked : Linked cfg c) (hrenewed : Renewed rotated c)
    (hwaits : WaitsOlder party rotated c) (holder : PresentsOlder party rotated t)
    (hby : (site cfg).StepBy c c' out t g rest) {conn : Ws.ConnId} (hconn : party.conn conn)
    (h : Finished cfg c conn) : Finished cfg c' conn := by
  have hlinked' := linked_step hlinked hby
  cases site_membership hby with
  | keeps written _ hkeeps => exact h.keeps hlinked hlinked' hby hkeeps
  | joins opened d yjsToken ht hroom htoken hjoins =>
    have hnew : opened.roomName = cfg.roomCode → opened.conn ≠ conn := by
      rintro hname rfl
      exact joins_elsewhere hlinked hrenewed hwaits holder ht hroom htoken hname hconn
    -- the document of the room, when it is the one that is joined, and when it is another
    have hthis : ∀ {d'}, c'.shared.yjs.findSharedDoc cfg.roomCode = some d' → d' = d →
        opened.conn ≠ conn := by
      rintro d' hd' rfl
      apply hnew
      have hpair : (opened.roomName, d') = (cfg.roomCode, d') :=
        List.inj_on_of_nodup_map hlinked'.numbered.numbers hjoins.named
          (hlinked'.numbered.find_iff.mp hd') rfl
      exact (Prod.mk.inj hpair).1
    have hbefore : ∀ {d'}, c'.shared.yjs.findSharedDoc cfg.roomCode = some d' →
        c.shared.yjs.findSharedDoc cfg.roomCode = some d' ∨ d' = c.shared.yjs.nextDoc ∧ d' = d := by
      intro d' hd'
      have hm := hlinked'.numbered.find_iff.mp hd'
      rcases hjoins.docs with ⟨hsame, -⟩ | ⟨hmade, -, hdocs, -⟩
      · exact .inl (hlinked.numbered.find_iff.mpr (hsame ▸ hm))
      · rw [hdocs] at hm
        rcases List.mem_append.mp hm with hm | hm
        · exact .inl (hlinked.numbered.find_iff.mpr hm)
        · obtain ⟨-, hd⟩ := Prod.mk.inj (List.mem_singleton.mp hm)
          exact .inr ⟨hd.trans hmade, hd⟩
    refine ⟨?_, fun d' hd' hjoined => ?_⟩
    · rintro ⟨d', hd', hhas⟩
      have hold : (c.shared.yjs.heap d').has conn = true := by
        rcases hjoins.conns d' conn hhas with hold | ⟨hd, heq⟩
        · exact hold
        · exact absurd heq.symm (hthis hd' hd)
      rcases hbefore hd' with hd | ⟨hd, -⟩
      · exact h.absent ⟨d', hd, hold⟩
      · rw [hlinked.numbered.unmade d' conn hd.ge] at hold
        cases hold
    · rw [hjoins.joined] at hjoined
      have hne : conn ≠ opened.conn := by
        rintro rfl
        rw [Function.update_self] at hjoined
        exact hthis hd' (Option.some.inj hjoined).symm rfl
      rw [Function.update_of_ne hne] at hjoined
      rcases hbefore hd' with hd | ⟨hd, -⟩
      · have hfinished := h.closed d' hd hjoined
        exact ⟨hjoins.closed conn hfinished.1, h.idle hby hd hjoined⟩
      · exact absurd hd (hlinked.numbered.joined conn d' hjoined).ne

/-! ## The removal -/

/-- The step of a removal is one of the room's server. -/
theorem Removal.keeps {turn : SiteTurn cfg} {userId : UserId} (h : Removal cfg turn userId)
    {g : SiteStep cfg} {rest : List (SiteTask cfg)}
    (hby : (site cfg).StepBy turn.before turn.after turn.out turn.trigger g rest) :
    ∃ written, Ws.Keeps written turn.before.shared.yjs turn.after.shared.yjs := by
  obtain ⟨timer, -, -, ht⟩ := h.timeout
  cases site_membership hby with
  | keeps written _ hkeeps => exact ⟨written, hkeeps⟩
  | joins _ _ _ htrigger _ _ _ =>
    rw [ht] at htrigger
    rcases htrigger with ⟨heq, -⟩ | heq <;> cases heq

/-- It gives the room a token that has not been issued before. -/
theorem Removal.renewed {turn : SiteTurn cfg} {userId : UserId} (h : Removal cfg turn userId)
    (hlinked : Linked cfg turn.before) {g : SiteStep cfg} {rest : List (SiteTask cfg)}
    (hby : (site cfg).StepBy turn.before turn.after turn.out turn.trigger g rest) :
    Renewed turn.after.shared.room.room.yjsToken turn.after := by
  obtain ⟨-, hsame | hnew⟩ := site_yjsToken hlinked hby
  · exact absurd hsame h.rotated
  · exact ⟨Nat.le_refl _, hnew.2⟩

/-- What holds behind the removal for a party whose connections were finished by then. -/
structure Ended (party : Party) (rotated : Token) (c : SiteConf cfg) : Prop where
  linked : Linked cfg c
  renewed : Renewed rotated c
  waits : WaitsOlder party rotated c
  finished : ∀ conn, party.conn conn → Finished cfg c conn

theorem ended_step {rotated : Token} (h : Ended party rotated c) (holder : PresentsOlder party rotated t)
    (hby : (site cfg).StepBy c c' out t g rest) : Ended party rotated c' where
  linked := linked_step h.linked hby
  renewed := renewed_step h.linked h.renewed hby
  waits := waitsOlder_step h.waits holder hby
  finished conn hconn := finished_step h.linked h.renewed h.waits holder hby hconn (h.finished conn hconn)

theorem ended_revoked {rotated : Token} {turn : SiteTurn cfg} (h : Ended party rotated turn.before)
    (holder : PresentsOlder party rotated turn.trigger) {g : SiteStep cfg} {rest : List (SiteTask cfg)}
    (hby : (site cfg).StepBy turn.before turn.after turn.out turn.trigger g rest) :
    Revoked cfg party turn where
  before conn hconn := (h.finished conn hconn).absent
  after conn hconn := ((ended_step h holder hby).finished conn hconn).absent
  unchanged conn hconn hsite d hd := by
    cases site_membership hby with
    | keeps written hwritten hkeeps =>
      apply hkeeps.document
      intro hd'
      obtain ⟨conn', size, message, ht, hjoined⟩ := hwritten d hd'
      rw [ht] at hsite hby
      obtain rfl : conn' = conn := Option.some.inj hsite
      have hwaiting := hby.mem_of_taken (List.mem_singleton_self _)
      exact ((h.finished conn' hconn).closed d hd hjoined).2 size message hwaiting
    | joins _ _ _ _ _ _ hjoins =>
      apply hjoins.document
      exact (h.linked.numbered.docs _ (h.linked.numbered.find_iff.mp hd)).ne

theorem tokensTo_append (k : SocketId) (out out' : List (SiteEffect Payload)) :
    tokensTo k (out ++ out') = tokensTo k out ++ tokensTo k out' := by
  simp only [tokensTo, List.filterMap_append, messagesTo_append, List.flatMap_append]

/-- What the party knows is what it can present. -/
theorem presentsOlder_of_known {rotated : Token} {history : List (SiteTurn cfg)}
    (hknown : PresentsKnown cfg party history) (holder : KnowsOlder cfg party history rotated)
    {turn : SiteTurn cfg} (hm : turn ∈ history) : PresentsOlder party rotated turn.trigger := by
  intro conn request ht hconn τ hτ
  obtain ⟨past, later, hsplit⟩ := List.append_of_mem hm
  obtain ⟨k, hsocket, hsent⟩ := hknown past turn later hsplit conn request τ ht hconn hτ
  refine holder k hsocket τ ?_
  rw [hsplit, List.flatMap_append, tokensTo_append]
  exact List.mem_append_left _ hsent

end

/-- **Access ends with the removal** for a party whose connections to the document are finished by then:
whatever it opens with older tokens, none of its connections gets into the document and none changes it. -/
theorem removal_revokes {Document Awareness Payload : Type} {cfg : SiteConfig Document Awareness Payload}
    {party : Party} {mode : RoomMode} {now : Time} {acts : List (SiteAct Payload)} {c : SiteConf cfg}
    {out : List (SiteEffect Payload)} (hrun : (site cfg).run (initialSite cfg mode now) acts = some (c, out))
    {past later : List (SiteTurn cfg)} {turn : SiteTurn cfg} {userId : UserId}
    (hsplit : (site cfg).history (initialSite cfg mode now) acts = past ++ turn :: later)
    (hremoval : Removal cfg turn userId)
    (hknown : PresentsKnown cfg party (past ++ turn :: later))
    (holder : KnowsOlder cfg party (past ++ turn :: later) turn.after.shared.room.room.yjsToken)
    (hfinished : ∀ conn, party.conn conn → Finished cfg turn.before conn) :
    (∀ conn, party.conn conn → ¬ turn.after.shared.Connected cfg conn) ∧
      ∀ turn' ∈ later, Revoked cfg party turn' := by
  have hpresents : ∀ turn' ∈ (site cfg).history (initialSite cfg mode now) acts,
      PresentsOlder party turn.after.shared.room.room.yjsToken turn'.trigger := by
    intro turn' hm
    rw [hsplit] at hm
    exact presentsOlder_of_known hknown holder hm
  have hmeets := (Machine.meets_iff_history (P := fun _ t =>
    PresentsOlder party turn.after.shared.room.room.yjsToken t) hrun).mpr hpresents
  have hturn : turn ∈ (site cfg).history (initialSite cfg mode now) acts := by
    rw [hsplit]
    exact List.mem_append_right _ List.mem_cons_self
  -- both servers, and what waits at them, up to the removal
  have hbefore := Machine.always_of_meets (I := fun c => Linked cfg c ∧
      WaitsOlder party turn.after.shared.room.room.yjsToken c)
    (fun c c' out t g rest h ht hby => ⟨linked_step h.1 hby, waitsOlder_step h.2 ht hby⟩)
    ⟨initial_linked mode now, fun _ hm => by cases hm⟩ hmeets
  obtain ⟨⟨hlinked, -⟩, hlinked', hwaits⟩ := hbefore.of_mem hturn
  obtain ⟨g, rest, hby⟩ := Machine.history_by hturn
  obtain ⟨written, hkeeps⟩ := hremoval.keeps hby
  have hended : Ended party turn.after.shared.room.room.yjsToken turn.after :=
    ⟨hlinked', hremoval.renewed hlinked hby, hwaits, fun conn hconn =>
      (hfinished conn hconn).keeps hlinked hlinked' hby hkeeps⟩
  refine ⟨fun conn hconn => (hended.finished conn hconn).absent, fun turn' hm => ?_⟩
  -- the rest of the run starts with it
  obtain ⟨first, a, after, rfl, hpast, hfirst, htrigger, hstep⟩ := Machine.history_split hsplit
  have hlater : (site cfg).history turn.after after = later := by
    rw [Machine.history_at hfirst htrigger hstep, hpast] at hsplit
    exact (List.cons.inj (List.append_cancel_left hsplit)).2
  obtain ⟨-, hafter⟩ := Machine.meets_append hmeets hfirst
  have halways := Machine.always_of_meets
    (I := Ended party turn.after.shared.room.room.yjsToken)
    (fun c c' out t g rest h ht hby => ended_step h ht hby) hended (hafter.2 _ _ hstep)
  rw [← hlater] at hm
  obtain ⟨g', rest', hby'⟩ := Machine.history_by hm
  refine ended_revoked (halways.of_mem hm).1 (hpresents turn' ?_) hby'
  rw [hsplit, ← hlater]
  exact List.mem_append_right _ (List.mem_cons_of_mem _ hm)

/-! ## A user that leaves, with its connection open and with it closed -/

section
variable {Document Awareness Payload : Type} {cfg : SiteConfig Document Awareness Payload}

/-- The token with which a websocket connection arrives. -/
def presented : SiteTrigger cfg → Option JsString
  | .event (.inr (.connection _ request)) => Ws.extractToken request.url
  | _ => none

/-- The party presents nothing but a token that it has been told first. -/
theorem presentsKnown_of_told {party : Party} {first others : List (SiteTurn cfg)} {k : SocketId}
    (hsocket : party.socket k) {τ : Token} (htold : τ ∈ tokensTo k (first.flatMap Turn.out))
    (hfirst : ∀ turn ∈ first, presented turn.trigger = none)
    (hothers : ∀ turn ∈ first ++ others, ∀ text ∈ presented turn.trigger, text = cfg.tokenText τ) :
    PresentsKnown cfg party (first ++ others) := by
  intro past turn later hsplit conn request τ' ht _ hτ'
  have hpresented : presented turn.trigger = some (cfg.tokenText τ') := by
    rw [ht]
    exact hτ'
  have hm : turn ∈ first ++ others := by
    rw [hsplit]
    exact List.mem_append_right _ List.mem_cons_self
  have hsame : τ' = τ := cfg.distinct (hothers turn hm _ hpresented)
  refine ⟨k, hsocket, ?_⟩
  rcases List.append_eq_append_iff.mp hsplit with ⟨more, rfl, -⟩ | ⟨more, rfl, hmore⟩
  · rw [List.flatMap_append, tokensTo_append, hsame]
    exact List.mem_append_left _ htold
  · cases more with
    | nil =>
      rw [List.append_nil] at htold
      rwa [hsame]
    | cons turn' more =>
      obtain ⟨rfl, -⟩ := List.cons.inj hmore
      rw [hfirst turn (List.mem_append_right _ List.mem_cons_self)] at hpresented
      cases hpresented

end

/-- A room whose tokens are a, aa, aaa and so on. -/
def exampleSite : SiteConfig ℕ (List Ws.ClientId) ℕ where
  room := plainConfig
  yjs := Ws.plainYjsConfig
  roomCode := js "abc-xyz"
  normalized := by decide
  tokenText τ := List.replicate (τ + 1) 97
  distinct τ τ' h := by simpa using congrArg List.length h

/-- The user of the first socket, with two connections. -/
def exampleParty : Party := ⟨(· = 0), (· < 2)⟩

def inRoom : ServerAct → SiteAct ℕ
  | .event e => .event (.inl e)
  | .resume position outcome => .resume position (.inl outcome)

def firstToken (conn : Ws.ConnId) : SiteAct ℕ :=
  .event (.inr (.connection conn ⟨some (js "/ws/yjs/abc-xyz?token=a"), none⟩))

/-- Two users join. -/
def exampleMeeting : List (SiteAct ℕ) := (exampleJoin 0 .go ++ exampleJoin 1 .go).map inRoom

/-- One of them opens the document and leaves the room. -/
def exampleStay (closing : List (SiteAct ℕ)) : List (SiteAct ℕ) :=
  firstToken 0 :: closing ++ [.event (.disconnect 0), .event (.tick (5 * 60 * 1000))].map inRoom

/-- Its grace period passes. -/
def exampleEnd : SiteAct ℕ := inRoom (.event (.timeout 0))

def exampleStart : SiteConf exampleSite := initialSite exampleSite .collaboration 0

def exampleHistory (stay others : List (SiteAct ℕ)) : List (SiteTurn exampleSite) :=
  (site exampleSite).history exampleStart (exampleMeeting ++ stay ++ exampleEnd :: others)

/-- What the party is told is the first token, before it presents it. -/
theorem example_known {stay others : List (SiteAct ℕ)} {c : SiteConf exampleSite}
    {out : List (SiteEffect ℕ)} (hrun : (site exampleSite).run exampleStart
      (exampleMeeting ++ stay ++ exampleEnd :: others) = some (c, out))
    (hpresented : ∀ turn ∈ exampleHistory stay others, ∀ text ∈ presented turn.trigger,
      text = exampleSite.tokenText 0) :
    PresentsKnown exampleSite exampleParty (exampleHistory stay others) := by
  rw [List.append_assoc] at hrun
  obtain ⟨c₁, out₁, _, hmeeting, -, -⟩ := Machine.run_append hrun
  have hsplit : exampleHistory stay others = (site exampleSite).history exampleStart exampleMeeting ++
      (site exampleSite).history c₁ (stay ++ exampleEnd :: others) := by
    rw [exampleHistory, List.append_assoc, Machine.history_append hmeeting]
  rw [hsplit] at hpresented ⊢
  have htold : 0 ∈ tokensTo 0 (((site exampleSite).history exampleStart exampleMeeting).flatMap
      Turn.out) := by decide +kernel
  have hquiet : ∀ turn ∈ (site exampleSite).history exampleStart exampleMeeting,
      presented turn.trigger = none := by decide +kernel
  exact presentsKnown_of_told (k := 0) rfl htold hquiet hpresented

/-- What can be seen of a configuration. -/
structure SiteFacts where
  timers : List (TimerKind × TimerId)
  users : List UserId
  yjsToken : Token
  waiting : ℕ
  doc : Option Ws.DocId
  joined : List (Option Ws.DocId)
  readyState : List Ws.ReadyState
  conns : List Ws.ConnId
  document : ℕ
  deriving DecidableEq

def siteFacts (c : SiteConf exampleSite) : SiteFacts where
  timers := c.shared.room.timers.map fun timer => (timer.kind, timer.id)
  users := c.shared.room.room.users.map (·.id)
  yjsToken := c.shared.room.room.yjsToken
  waiting := c.pool.length
  doc := c.shared.yjs.findSharedDoc exampleSite.roomCode
  joined := (List.range 2).map c.shared.yjs.joined
  readyState := (List.range 2).map fun conn => (c.shared.yjs.sockets conn).readyState
  conns := (c.shared.yjs.heap 0).conns.map Prod.fst
  document := (c.shared.yjs.heap 0).document

/-- Before and behind the removal, and at the end of the run. -/
def examplePoints (stay others : List (SiteAct ℕ)) : Option (List SiteFacts) :=
  ((site exampleSite).run exampleStart (exampleMeeting ++ stay)).bind fun r₁ =>
    ((site exampleSite).step r₁.1 exampleEnd).bind fun r₂ =>
      ((site exampleSite).run r₂.1 others).map fun r₃ =>
        [siteFacts r₁.1, siteFacts r₂.1, siteFacts r₃.1]

theorem example_points {stay others : List (SiteAct ℕ)} {a₁ a₂ a₃ : SiteFacts}
    (h : examplePoints stay others = some [a₁, a₂, a₃]) :
    ∃ c₁ c₂ c₃ out₂ out₃ out, (siteFacts c₁ = a₁ ∧ siteFacts c₂ = a₂ ∧ siteFacts c₃ = a₃) ∧
      (site exampleSite).run c₂ others = some (c₃, out₃) ∧
      (site exampleSite).run exampleStart (exampleMeeting ++ stay ++ exampleEnd :: others) = some (c₃, out) ∧
      exampleHistory stay others = (site exampleSite).history exampleStart (exampleMeeting ++ stay) ++
        ⟨c₁, .event (.inl (.timeout 0)), c₂, out₂⟩ :: (site exampleSite).history c₂ others := by
  obtain ⟨⟨c₁, out₁⟩, hfirst, h⟩ := Option.bind_eq_some_iff.mp h
  obtain ⟨⟨c₂, out₂⟩, hstep, h⟩ := Option.bind_eq_some_iff.mp h
  obtain ⟨⟨c₃, out₃⟩, hlater, hfacts⟩ := Option.map_eq_some_iff.mp h
  refine ⟨c₁, c₂, c₃, out₂, out₃, out₁ ++ (out₂ ++ out₃), by simpa using hfacts, hlater, ?_, ?_⟩
  · apply Machine.run_join hfirst
    rw [Machine.run, hstep]
    dsimp only
    rw [hlater]
  · rw [exampleHistory]
    exact Machine.history_at hfirst rfl hstep

/-- The user of the first socket is removed. -/
theorem example_removal {c₁ c₂ : SiteConf exampleSite} {a₁ a₂ : SiteFacts}
    (h₁ : siteFacts c₁ = a₁) (h₂ : siteFacts c₂ = a₂) (htimer : (.grace 1, 0) ∈ a₁.timers)
    (hremoved : 1 ∈ a₁.users ∧ 1 ∉ a₂.users) (hrotated : a₂.yjsToken ≠ a₁.yjsToken)
    (out : List (SiteEffect ℕ)) :
    Removal exampleSite ⟨c₁, .event (.inl (.timeout 0)), c₂, out⟩ 1 := by
  subst h₁ h₂
  obtain ⟨timer, hm, heq⟩ := List.mem_map.mp htimer
  obtain ⟨hkind, hid⟩ := Prod.mk.inj heq
  exact ⟨⟨timer, hm, hkind, by rw [hid]⟩, hremoved, hrotated⟩

/-- The connection is closed when the user leaves, and another one is turned away. -/
def closedStay : List (SiteAct ℕ) := exampleStay [.event (.inr (.close 0))]

theorem removal_revokes_example : ∃ c out past turn later,
    (site exampleSite).run exampleStart (exampleMeeting ++ closedStay ++ [exampleEnd, firstToken 1]) =
      some (c, out) ∧
    exampleHistory closedStay [firstToken 1] = past ++ turn :: later ∧
    Removal exampleSite turn 1 ∧ later.length = 1 ∧
    ∀ turn' ∈ later, Revoked exampleSite exampleParty turn' := by
  have hfacts : examplePoints closedStay [firstToken 1] = some
      [⟨[(.grace 1, 0)], [1, 3], 0, 0, some 0, [some 0, none], [.closed, .connecting], [], 0⟩,
        ⟨[], [3], 5, 0, some 0, [some 0, none], [.closed, .connecting], [], 0⟩,
        ⟨[], [3], 5, 0, some 0, [some 0, none], [.closed, .closing], [], 0⟩] := by
    decide +kernel
  have hpresented : ∀ turn ∈ exampleHistory closedStay [firstToken 1], ∀ text ∈ presented turn.trigger,
      text = exampleSite.tokenText 0 := by decide +kernel
  have htold : ∀ τ ∈ tokensTo 0 ((exampleHistory closedStay [firstToken 1]).flatMap Turn.out), τ < 5 := by
    decide +kernel
  obtain ⟨c₁, c₂, c₃, out₂, out₃, out, ⟨h₁, h₂, -⟩, hlater, hrun, hsplit⟩ := example_points hfacts
  have hknown := example_known hrun hpresented
  have hrotated : c₂.shared.room.room.yjsToken = 5 := congrArg SiteFacts.yjsToken h₂
  have hpool : c₁.pool = [] := List.length_eq_zero_iff.mp (congrArg SiteFacts.waiting h₁)
  have hremoval := example_removal h₁ h₂ (by decide) (by decide) (by decide) out₂
  have holder : KnowsOlder exampleSite exampleParty (exampleHistory closedStay [firstToken 1])
      c₂.shared.room.room.yjsToken := by
    rintro k rfl τ hτ
    rw [hrotated]
    exact htold τ hτ
  have habsent : ∀ conn, ¬ c₁.shared.Connected exampleSite conn := by
    rintro conn ⟨d, hd, hhas⟩
    obtain rfl : 0 = d := Option.some.inj ((congrArg SiteFacts.doc h₁).symm.trans hd)
    have hempty : (c₁.shared.yjs.heap 0).conns.map Prod.fst = [] := congrArg SiteFacts.conns h₁
    rw [List.map_eq_nil_iff] at hempty
    simp [Ws.WSSharedDoc.has, hempty] at hhas
  have hfinished : ∀ conn, exampleParty.conn conn → Finished exampleSite c₁ conn := by
    intro conn hconn
    refine ⟨habsent conn, fun d _ hd => ?_⟩
    have htwo : ∀ n : ℕ, n < 2 → n = 0 ∨ n = 1 := by omega
    obtain rfl | rfl := htwo conn hconn
    · have hclosed := (List.cons.inj (congrArg SiteFacts.readyState h₁)).1
      refine ⟨hclosed, fun _ _ hm => ?_⟩
      rw [hpool] at hm
      cases hm
    · have hnone := (List.cons.inj (List.cons.inj (congrArg SiteFacts.joined h₁)).2).1
      cases hnone.symm.trans hd
  rw [hsplit] at hknown holder
  refine ⟨c₃, out, _, _, _, hrun, hsplit, hremoval, ?_, ?_⟩
  · obtain ⟨c', out', out'', hs, -, -⟩ := Machine.run_cons hlater
    rw [Machine.history_cons rfl hs]
    rfl
  · exact (removal_revokes hrun hsplit hremoval hknown holder hfinished).2

/-- The connection stays open, and its next message changes the document. -/
def openStay : List (SiteAct ℕ) := exampleStay []

def laterMessage : List (SiteAct ℕ) :=
  [.event (.inr (.message 0 20 (.syncUpdate 1))), .resume 0 (.inr .allowed)]

theorem removed_user_writes : ∃ c out past turn later,
    (site exampleSite).run exampleStart (exampleMeeting ++ openStay ++ exampleEnd :: laterMessage) =
      some (c, out) ∧
    exampleHistory openStay laterMessage = past ++ turn :: later ∧ Removal exampleSite turn 1 ∧
    PresentsKnown exampleSite exampleParty (past ++ turn :: later) ∧
    KnowsOlder exampleSite exampleParty (past ++ turn :: later) turn.after.shared.room.room.yjsToken ∧
    turn.after.shared.Connected exampleSite 0 ∧ (turn.after.shared.yjs.heap 0).document = 0 ∧
    (c.shared.yjs.heap 0).document = 1 ∧ ∃ turn' ∈ later, ¬ Revoked exampleSite exampleParty turn' := by
  have hfacts : examplePoints openStay laterMessage = some
      [⟨[(.grace 1, 0)], [1, 3], 0, 0, some 0, [some 0, none], [.open, .connecting], [0], 0⟩,
        ⟨[], [3], 5, 0, some 0, [some 0, none], [.open, .connecting], [0], 0⟩,
        ⟨[], [3], 5, 0, some 0, [some 0, none], [.open, .connecting], [0], 1⟩] := by
    decide +kernel
  have hpresented : ∀ turn ∈ exampleHistory openStay laterMessage, ∀ text ∈ presented turn.trigger,
      text = exampleSite.tokenText 0 := by decide +kernel
  have htold : ∀ τ ∈ tokensTo 0 ((exampleHistory openStay laterMessage).flatMap Turn.out), τ < 5 := by
    decide +kernel
  obtain ⟨c₁, c₂, c₃, out₂, out₃, out, ⟨h₁, h₂, h₃⟩, hlater, hrun, hsplit⟩ := example_points hfacts
  have hknown := example_known hrun hpresented
  have hrotated : c₂.shared.room.room.yjsToken = 5 := congrArg SiteFacts.yjsToken h₂
  have hremoval := example_removal h₁ h₂ (by decide) (by decide) (by decide) out₂
  have holder : KnowsOlder exampleSite exampleParty (exampleHistory openStay laterMessage)
      c₂.shared.room.room.yjsToken := by
    rintro k rfl τ hτ
    rw [hrotated]
    exact htold τ hτ
  have hconnected : c₂.shared.Connected exampleSite 0 := by
    have hconns : (c₂.shared.yjs.heap 0).conns.map Prod.fst = [0] := congrArg SiteFacts.conns h₂
    have hm : 0 ∈ (c₂.shared.yjs.heap 0).conns.map Prod.fst := by
      rw [hconns]
      exact List.mem_singleton_self _
    obtain ⟨x, hx, hconn⟩ := List.mem_map.mp hm
    exact ⟨0, congrArg SiteFacts.doc h₂, List.any_eq_true.mpr ⟨x, hx, decide_eq_true hconn⟩⟩
  rw [hsplit] at hknown holder
  refine ⟨c₃, out, _, _, _, hrun, hsplit, hremoval, hknown, holder, hconnected,
    congrArg SiteFacts.document h₂, congrArg SiteFacts.document h₃, ?_⟩
  obtain ⟨c', out', out'', hs, -, -⟩ := Machine.run_cons hlater
  rw [laterMessage, Machine.history_cons rfl hs]
  exact ⟨_, List.mem_cons_self, fun h => h.before 0 Nat.zero_lt_two hconnected⟩

end CodeShare
