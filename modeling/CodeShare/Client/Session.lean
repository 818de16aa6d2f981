import CodeShare.Client.RoomSocketBindings
import CodeShare.Server.TokenMessages

/-! # A tab and the server

One tab of a browser, the server, and what is under way between them. Whatever else reaches the server comes
from somewhere else: other tabs are there as arbitrary events. Connections break at any time, and what is under
way over them may be lost.
-/

namespace CodeShare
open Tasks
set_option autoImplicit false

structure Session where
  room : Server
  tab : Tab
  /-- the sockets of the tab -/
  opened : List SocketId
  /-- a connection that the server has accepted, and the tab does not know of -/
  pending : Option SocketId
  /-- the joins of the tab that are under way -/
  uplink : List SentJoin
  /-- the messages to the sockets of the tab that are under way -/
  downlink : List (SocketId × Message)
  /-- all joins that the tab has sent; no code sees it -/
  emitted : List SentJoin
  /-- the socket over which the tab last received a reconnect token; no code sees it -/
  answered : Option SocketId

inductive SessionEvent where
  /-- anything but a join over a socket of the tab -/
  | server (e : ServerEvent)
  /-- the server accepts a connection of the tab -/
  | accept
  | connected (browser : Browser)
  /-- an event of the page, or the end of the connection as the tab sees it -/
  | page (e : TabEvent)
  | arrive (position : ℕ)
  | lose (position : ℕ)
  | read (browser : Browser) (now : Time)

abbrev SessionStep := Segment Session Task Effect

/-- A join over a socket of the tab. -/
def ServerEvent.joinsOver (opened : List SocketId) : ServerEvent → Bool
  | receive socket (.userJoin _) => socket ∈ opened
  | _ => false

/-- Events of the page and of its socket, but not those that the server brings about. -/
def TabEvent.isLocal : TabEvent → Bool
  | connect _ _ | receive _ _ _ => false
  | _ => true

/-- What an effect puts on the way to the tab. -/
def Effect.toTab (opened : List SocketId) : Effect → Option (SocketId × Message)
  | deliver socket m => if socket ∈ opened then some (socket, m) else none
  | _ => none

section
variable (cfg : Config) (s : Session)

/-- A segment of the server. -/
def ofServer (g : Step) : SessionStep :=
  ⟨{ s with room := g.state, downlink := s.downlink ++ g.out.filterMap (Effect.toTab s.opened) },
    g.out, g.next⟩

/-- An event of the tab. -/
def ofTab (r : Tab × Option SentJoin) : SessionStep :=
  .of { s with
    tab := r.1
    uplink := s.uplink ++ r.2.toList
    emitted := s.emitted ++ r.2.toList }

/-- The oldest message under way reaches the tab, when the connection is still there. -/
def readMessage (browser : Browser) (now : Time) (k : SocketId) (m : Message) : Option SessionStep :=
  if s.tab.socketId = some k then
    (handleTab s.tab (.receive browser now m)).map fun r =>
      ofTab { s with answered := if s.tab.bound && m.seat.isSome then some k else s.answered } r
  else some (.of s)

def handleSession : SessionEvent → Option SessionStep
  | .server e =>
    if e.joinsOver s.opened then none else (handleEvent cfg s.room e).map (ofServer s)
  | .accept => (handleEvent cfg s.room .connect).map (ofServer { s with
      opened := s.opened ++ [s.room.nextSocket]
      pending := some s.room.nextSocket })
  | .connected browser =>
    match s.pending with
    | none => none
    | some k => (handleTab s.tab (.connect browser k)).map (ofTab { s with pending := none })
  | .page e => if e.isLocal then (handleTab s.tab e).map (ofTab s) else none
  | .arrive i =>
    match s.uplink[i]? with
    | none => none
    | some (k, data) =>
      (handleEvent cfg s.room (.receive k (.userJoin (userJoinSchema data)))).map
        (ofServer { s with uplink := s.uplink.eraseIdx i })
  | .lose i =>
    match s.uplink[i]? with
    | none => none
    | some _ => some (.of { s with uplink := s.uplink.eraseIdx i })
  | .read browser now =>
    match s.downlink with
    | [] => none
    | (k, m) :: rest => readMessage { s with downlink := rest } browser now k m

/-- Both ends as one machine; its tasks are those of the server. -/
def session : Machine Session Task SessionEvent Outcome Effect where
  handle := handleSession cfg
  resume := fun s task o => (resumeTask cfg s.room task o).map (ofServer s)

end

abbrev SessionConf := Conf Session Task
abbrev SessionAct := Act SessionEvent Outcome
abbrev SessionTrigger := Trigger SessionEvent Task Outcome
abbrev SessionTurn := Turn Session Task SessionEvent Outcome Effect

/-- The room has just been created, and the page is open. -/
def initialSession (cfg : Config) (mode : RoomMode) (now : Time) (displayName : Option JsString) :
    SessionConf :=
  ⟨{ room := initialServer cfg mode now
     tab := newTab displayName
     opened := []
     pending := none
     uplink := []
     downlink := []
     emitted := []
     answered := none }, []⟩

/-! ## The server's side -/

def serverConf (c : SessionConf) : ServerConf := ⟨c.shared.room, c.pool⟩

/-- What the server sees of a segment. -/
def serverTrigger (s : Session) : SessionTrigger → Option ServerTrigger
  | .event (.server e) => some (.event e)
  | .event .accept => some (.event .connect)
  | .event (.arrive i) =>
    (s.uplink[i]?).map fun join => .event (.receive join.1 (.userJoin (userJoinSchema join.2)))
  | .event _ => none
  | .task task o => some (.task task o)

def serverTurn (turn : SessionTurn) : Option ServerTurn :=
  (serverTrigger turn.before.shared turn.trigger).map fun t =>
    ⟨serverConf turn.before, t, serverConf turn.after, turn.out⟩

/-- The history of the server in a history of both. -/
def serverPast (past : List SessionTurn) : List ServerTurn := past.filterMap serverTurn

variable {cfg : Config} {s : Session} {c c' : SessionConf} {out : List Effect} {t : SessionTrigger}
  {g : SessionStep} {rest : List Task}

/-! ## What a segment is -/

/-- A segment of the server; `s₁` is the rest of the session behind it. -/
inductive ServerFires (cfg : Config) (s : Session) : SessionTrigger → ServerTrigger → Session → Step → Prop
    where
  | event (e : ServerEvent) (g : Step) (hother : e.joinsOver s.opened = false)
      (hfire : (server cfg).fire s.room (.event e) = some g) :
      ServerFires cfg s (.event (.server e)) (.event e) s g
  | accept (g : Step) (hfire : (server cfg).fire s.room (.event .connect) = some g) :
      ServerFires cfg s (.event .accept) (.event .connect)
        { s with opened := s.opened ++ [s.room.nextSocket], pending := some s.room.nextSocket } g
  | arrive (i : ℕ) (join : SentJoin) (g : Step) (hunderway : s.uplink[i]? = some join)
      (hfire : (server cfg).fire s.room
        (.event (.receive join.1 (.userJoin (userJoinSchema join.2)))) = some g) :
      ServerFires cfg s (.event (.arrive i)) (.event (.receive join.1 (.userJoin (userJoinSchema join.2))))
        { s with uplink := s.uplink.eraseIdx i } g
  | task (task : Task) (o : Outcome) (g : Step)
      (hfire : (server cfg).fire s.room (.task task o) = some g) :
      ServerFires cfg s (.task task o) (.task task o) s g

/-- A segment of the tab and of its connection. -/
inductive TabFires (s : Session) : SessionTrigger → Session → Prop where
  | connected (browser : Browser) (k : SocketId) (tab' : Tab) (sent : Option SentJoin)
      (hpending : s.pending = some k)
      (htab : handleTab s.tab (.connect browser k) = some (tab', sent)) :
      TabFires s (.event (.connected browser)) { s with
        tab := tab'
        pending := none
        uplink := s.uplink ++ sent.toList
        emitted := s.emitted ++ sent.toList }
  | page (e : TabEvent) (tab' : Tab) (sent : Option SentJoin) (hlocal : e.isLocal = true)
      (htab : handleTab s.tab e = some (tab', sent)) :
      TabFires s (.event (.page e)) { s with
        tab := tab'
        uplink := s.uplink ++ sent.toList
        emitted := s.emitted ++ sent.toList }
  | lost (i : ℕ) (join : SentJoin) (hunderway : s.uplink[i]? = some join) :
      TabFires s (.event (.lose i)) { s with uplink := s.uplink.eraseIdx i }
  | read (browser : Browser) (now : Time) (k : SocketId) (m : Message) (rest : List (SocketId × Message))
      (hunderway : s.downlink = (k, m) :: rest) (hsocket : s.tab.socketId = some k) :
      TabFires s (.event (.read browser now)) { s with
        tab := handleMessage browser now s.tab m
        downlink := rest
        answered := if s.tab.bound && m.seat.isSome then some k else s.answered }
  | dropped (browser : Browser) (now : Time) (k : SocketId) (m : Message) (rest : List (SocketId × Message))
      (hunderway : s.downlink = (k, m) :: rest) (hsocket : s.tab.socketId ≠ some k) :
      TabFires s (.event (.read browser now)) { s with downlink := rest }

inductive SessionFires (cfg : Config) (s : Session) (t : SessionTrigger) : SessionStep → Prop where
  | server (t' : ServerTrigger) (s₁ : Session) (g : Step) (h : ServerFires cfg s t t' s₁ g) :
      SessionFires cfg s t (ofServer s₁ g)
  | tab (s₁ : Session) (h : TabFires s t s₁) : SessionFires cfg s t (.of s₁)

/-- **Segments.** A segment of the session is one of the server, or one of the tab and its connection. -/
theorem session_fires (h : (session cfg).fire s t = some g) : SessionFires cfg s t g := by
  cases t with
  | task task o =>
    obtain ⟨g', hg', rfl⟩ := Option.map_eq_some_iff.mp h
    exact .server _ s g' (.task task o g' hg')
  | event e =>
    change handleSession cfg s e = some g at h
    cases e with
    | server e =>
      simp only [handleSession, Option.ite_none_left_eq_some, Option.map_eq_some_iff] at h
      obtain ⟨hother, g', hg', rfl⟩ := h
      exact .server _ s g' (.event e g' (by simpa using hother) hg')
    | accept =>
      simp only [handleSession, Option.map_eq_some_iff] at h
      obtain ⟨g', hg', rfl⟩ := h
      exact .server _ _ g' (.accept g' hg')
    | connected browser =>
      simp only [handleSession] at h
      cases hpending : s.pending with
      | none =>
        rw [hpending] at h
        cases h
      | some k =>
        rw [hpending] at h
        obtain ⟨⟨tab', sent⟩, htab, rfl⟩ := Option.map_eq_some_iff.mp h
        exact .tab _ (.connected browser k tab' sent hpending htab)
    | page e =>
      simp only [handleSession, Option.ite_none_right_eq_some, Option.map_eq_some_iff] at h
      obtain ⟨hlocal, ⟨tab', sent⟩, htab, rfl⟩ := h
      exact .tab _ (.page e tab' sent hlocal htab)
    | arrive i =>
      simp only [handleSession] at h
      cases hunderway : s.uplink[i]? with
      | none =>
        rw [hunderway] at h
        cases h
      | some join =>
        rw [hunderway] at h
        obtain ⟨g', hg', rfl⟩ := Option.map_eq_some_iff.mp h
        exact .server _ _ g' (.arrive i join g' hunderway hg')
    | lose i =>
      simp only [handleSession] at h
      cases hunderway : s.uplink[i]? with
      | none =>
        rw [hunderway] at h
        cases h
      | some join =>
        rw [hunderway] at h
        cases h
        exact .tab _ (.lost i join hunderway)
    | read browser now =>
      simp only [handleSession] at h
      cases hunderway : s.downlink with
      | nil =>
        rw [hunderway] at h
        cases h
      | cons first rest =>
        obtain ⟨k, m⟩ := first
        rw [hunderway] at h
        dsimp only [readMessage] at h
        by_cases hsocket : s.tab.socketId = some k
        · rw [if_pos hsocket] at h
          have htab : handleTab s.tab (.receive browser now m) =
              some (handleMessage browser now s.tab m, none) := by
            simp [handleTab, hsocket]
          rw [htab] at h
          cases h
          have hread := TabFires.read browser now k m rest hunderway hsocket
          refine .tab _ ?_
          simpa using hread
        · rw [if_neg hsocket] at h
          cases h
          exact .tab _ (.dropped browser now k m rest hunderway hsocket)

theorem ServerFires.fire {t' : ServerTrigger} {s₁ : Session} {g : Step} (h : ServerFires cfg s t t' s₁ g) :
    (server cfg).fire s.room t' = some g := by
  cases h <;> assumption

theorem ServerFires.trigger {t' : ServerTrigger} {s₁ : Session} {g : Step} (h : ServerFires cfg s t t' s₁ g) :
    serverTrigger s t = some t' := by
  cases h with
  | arrive i join g hunderway _ =>
    unfold serverTrigger
    dsimp only
    rw [hunderway]
    rfl
  | _ => rfl

theorem TabFires.trigger {s₁ : Session} (h : TabFires s t s₁) : serverTrigger s t = none ∧ t.taken = [] := by
  cases h <;> exact ⟨rfl, rfl⟩

theorem TabFires.room {s₁ : Session} (h : TabFires s t s₁) : s₁.room = s.room := by
  cases h <;> rfl

/-- A step of the session is a step of the server, or leaves the server alone. -/
inductive SessionMoves (cfg : Config) (c c' : SessionConf) (out : List Effect) (t : SessionTrigger)
    (rest : List Task) : Prop where
  | server (t' : ServerTrigger) (s₁ : Session) (g : Step) (hfires : ServerFires cfg c.shared t t' s₁ g)
      (hby : (server cfg).StepBy (serverConf c) (serverConf c') out t' g rest)
      (hshared : c'.shared = (ofServer s₁ g).state)
      (hturn : serverTurn ⟨c, t, c', out⟩ = some ⟨serverConf c, t', serverConf c', out⟩)
  | tab (s₁ : Session) (hfires : TabFires c.shared t s₁) (hshared : c'.shared = s₁)
      (hpool : c'.pool.Perm c.pool) (hout : out = [])
      (hturn : serverTurn ⟨c, t, c', out⟩ = none)

theorem session_moves {g : SessionStep} (hby : (session cfg).StepBy c c' out t g rest) :
    SessionMoves cfg c c' out t rest := by
  cases session_fires hby.fire with
  | server t' s₁ g' hfires =>
    have htaken : t'.taken = t.taken := by cases hfires <;> rfl
    refine .server t' s₁ g' hfires ?_ hby.shared ?_
    · refine ⟨hfires.fire, ?_, hby.out, ?_, hby.after⟩
      · exact congrArg Session.room hby.shared
      · rw [htaken]
        exact hby.before
    · unfold serverTurn
      dsimp only
      rw [hfires.trigger]
      rfl
  | tab s₁ hfires =>
    refine .tab s₁ hfires hby.shared ?_ hby.out ?_
    · have hbefore := hby.before
      rw [hfires.trigger.2, List.nil_append] at hbefore
      rw [hby.after]
      simpa using hbefore
    · unfold serverTurn
      dsimp only
      rw [hfires.trigger.1]
      rfl

theorem serverPast_concat (past : List SessionTurn) (turn : SessionTurn) :
    serverPast (past ++ [turn]) = serverPast past ++ (serverTurn turn).toList := by
  unfold serverPast
  rw [List.filterMap_append]
  cases hturn : serverTurn turn <;> simp [hturn]

end CodeShare
