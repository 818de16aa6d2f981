import CodeShare.Client.Mirror
import CodeShare.Server.Emissions

/-! # Exchanges

An exchange is what one handler says about one thing, such as an import: announcements on the way, and an answer
when it ends. `Ends.answered_iff` says which sockets of the room hear the answer.
-/

namespace CodeShare
open Tasks
set_option autoImplicit false

structure Exchange where
  /-- The messages on the way. -/
  announces : Message → Bool
  /-- The messages that end it. -/
  answers : Message → Bool
  /-- The tasks before the first announcement. -/
  prepares : Task → Bool
  /-- The tasks behind it, with the socket that asked. -/
  works : Task → Option SocketId
  /-- The segments that begin it. -/
  opens : ServerTrigger → Option SocketId
  /-- The segments that answer the socket that asked, and not the room. -/
  answersSocket : ServerTrigger → Bool

namespace Exchange
variable (x : Exchange) (cfg : Config) {s : Server} {t : ServerTrigger} {g : Step} {socket : SocketId}

/-! ## What is heard of it -/

def concerns (m : Message) : Bool := x.announces m || x.answers m

/-- What a socket hears of it. -/
def heard (k : SocketId) (out : List Effect) : List Message := (messagesTo k out).filter x.concerns

def heardIn (k : SocketId) (turns : List ServerTurn) : List Message := turns.flatMap fun turn => x.heard k turn.out

/-- Announcements, and then one answer. -/
def Answered (k : SocketId) (turns : List ServerTurn) : Prop :=
  ∃ before answer, x.heardIn k turns = before ++ [answer] ∧ (∀ m ∈ before, x.announces m = true) ∧
    x.answers answer = true

/-- From the first announcement on, the socket is in the room whenever the handler goes on. -/
def Stays (k : SocketId) (turns : List ServerTurn) : Prop :=
  ∀ past turn later, turns = past ++ turn :: later → x.heardIn k past ≠ [] → k ∈ turn.before.shared.joined

theorem heard_toRoom (g : Step) (m : Message) (k : SocketId) : x.heard k (g.toRoom m).out =
    x.heard k g.out ++ if x.concerns m = true then List.replicate (g.state.joined.count k) m else [] := by
  rw [heard, messagesTo_toRoom, List.filter_append, List.filter_replicate]
  rfl

theorem heard_toSocket (g : Step) (m : Message) (k : SocketId) : x.heard k (g.toSocket socket m).out =
    x.heard k g.out ++ if x.concerns m = true then List.replicate (reaches g.state.live socket k) m else [] := by
  rw [heard, messagesTo_toSocket, List.filter_append, List.filter_replicate]
  rfl

theorem stays_of_forall {x : Exchange} {k : SocketId} {turns : List ServerTurn}
    (h : ∀ turn ∈ turns, k ∈ turn.before.shared.joined) : x.Stays k turns := by
  intro past turn later hturns _
  refine h turn ?_
  rw [hturns]
  exact List.mem_append_right _ List.mem_cons_self

/-- An announcement alone is no answer. -/
theorem not_answered_of_announcement {x : Exchange} {k : SocketId} {turns : List ServerTurn} {m : Message}
    (hheard : x.heardIn k turns = [m]) (hm : x.answers m = false) : ¬ x.Answered k turns := by
  rintro ⟨before, answer, hall, -, hanswer⟩
  have hlast : some m = some answer := by
    have hconcat : (before ++ [answer]).getLast? = some answer := List.getLast?_concat
    rw [← hconcat, ← hall, hheard]
    rfl
  rw [Option.some.inj hlast, hanswer] at hm
  cases hm

/-! ## What a segment does -/

/-- The task is not of the exchange. -/
def Apart (task : Task) : Prop := x.prepares task = false ∧ x.works task = none

def Announces (out : List Effect) : Prop := ∀ k, ∀ m ∈ x.heard k out, x.announces m = true

/-- The exchange ends, with an answer to the room or to the socket that asked. -/
def Ends (socket : SocketId) (s : Server) (t : ServerTrigger) (out : List Effect) : Prop :=
  ∃ m, x.answers m = true ∧ ∀ k, x.heard k out =
    List.replicate (if x.answersSocket t = true then reaches s.live socket k else s.joined.count k) m

/-- The exchange goes on or ends. -/
def Advances (socket : SocketId) (s : Server) (t : ServerTrigger) (g : Step) : Prop :=
  (x.Announces g.out ∧ ∃ task, g.next = [task] ∧ x.works task = some socket) ∨
    (g.next = [] ∧ x.Ends socket s t g.out)

/-- No socket but this one has begun it. -/
def OpensFor (socket : SocketId) (t : ServerTrigger) : Prop := ∀ k, x.opens t = some k → k = socket

/-- What the segments do to an exchange. -/
structure Steps : Prop where
  disjoint : ∀ m, x.answers m = true → x.announces m = false
  event : ∀ {s g e}, (server cfg).fire s (.event e) = some g → x.opens (.event e) = none ∧
    ((∀ task ∈ g.next, x.Apart task) ∨
      (∀ k, x.heard k g.out = []) ∧ ∃ task, g.next = [task] ∧ x.prepares task = true)
  apart : ∀ {s g task o}, x.Apart task → (server cfg).fire s (.task task o) = some g →
    x.opens (.task task o) = none ∧ ∀ task' ∈ g.next, x.Apart task'
  prepares : ∀ {s g task o}, x.prepares task = true → (server cfg).fire s (.task task o) = some g →
    (x.opens (.task task o) = none ∧ (g.next = [] ∨
      (∀ k, x.heard k g.out = []) ∧ ∃ task', g.next = [task'] ∧ x.prepares task' = true)) ∨
    ∃ socket task', x.OpensFor socket (.task task o) ∧ x.Announces g.out ∧ g.next = [task'] ∧
      x.works task' = some socket
  works : ∀ {s g task o socket}, x.works task = some socket → (server cfg).fire s (.task task o) = some g →
    x.OpensFor socket (.task task o) ∧ x.Advances socket s (.task task o) g

variable {x}

theorem announces_nil {out : List Effect} (h : ∀ k, x.heard k out = []) : x.Announces out := by
  intro k m hm
  rw [h k] at hm
  cases hm

theorem announces_toRoom {m : Message} (h : x.Announces g.out) (hm : x.announces m = true) :
    x.Announces (g.toRoom m).out := by
  intro k m' hm'
  rw [heard_toRoom] at hm'
  rcases List.mem_append.mp hm' with hm' | hm'
  · exact h k m' hm'
  · split_ifs at hm'
    · rw [List.eq_of_mem_replicate hm']
      exact hm
    · cases hm'

theorem ends_toRoom {m : Message} (hbefore : ∀ k, x.heard k g.out = []) (hm : x.answers m = true)
    (hsocket : x.answersSocket t = false) (hjoined : g.state.joined = s.joined) :
    x.Ends socket s t (g.toRoom m).out := by
  refine ⟨m, hm, fun k => ?_⟩
  rw [heard_toRoom, hbefore k, List.nil_append, concerns, hm, Bool.or_true, if_pos rfl, hsocket, hjoined]
  rfl

theorem ends_toSocket {m : Message} (hbefore : ∀ k, x.heard k g.out = []) (hm : x.answers m = true)
    (hsocket : x.answersSocket t = true) (hlive : g.state.live = s.live) :
    x.Ends socket s t (g.toSocket socket m).out := by
  refine ⟨m, hm, fun k => ?_⟩
  rw [heard_toSocket, hbefore k, List.nil_append, concerns, hm, Bool.or_true, if_pos rfl, hsocket, hlive]
  rfl

theorem advances_suspend {task : Task} (hout : ∀ k, messagesTo k g.out = []) (hnext : g.next = [])
    (htask : x.works task = some socket) : x.Advances socket s t (g.suspend task) := by
  refine .inl ⟨announces_nil fun k => ?_, task, by rw [Segment.suspend_next, hnext]; rfl, htask⟩
  rw [Segment.suspend_out, heard, hout k]
  rfl

theorem advances_toRoom {m : Message} (hbefore : ∀ k, x.heard k g.out = []) (hnext : g.next = [])
    (hm : x.answers m = true) (hsocket : x.answersSocket t = false) (hjoined : g.state.joined = s.joined) :
    x.Advances socket s t (g.toRoom m) :=
  .inr ⟨hnext, ends_toRoom hbefore hm hsocket hjoined⟩

theorem advances_toSocket {m : Message} (hbefore : ∀ k, x.heard k g.out = []) (hnext : g.next = [])
    (hm : x.answers m = true) (hsocket : x.answersSocket t = true) (hlive : g.state.live = s.live) :
    x.Advances socket s t (g.toSocket socket m) :=
  .inr ⟨hnext, ends_toSocket hbefore hm hsocket hlive⟩

/-- An event leaves at most an admitted one behind, and then nothing is said. -/
theorem fire_event_next {cfg : Config} {e : ServerEvent} (h : (server cfg).fire s (.event e) = some g) :
    g.next = [] ∨ g.out = [] ∧ ∃ socket event seen, g.next = [.admitted socket event seen] := by
  rcases handleEvent_next h with hnext | ⟨socket, event, rfl, rfl⟩
  · exact .inl hnext
  · unfold authMiddleware
    split
    · exact .inr ⟨rfl, _, _, _, rfl⟩
    · split
      · exact .inl rfl
      · split
        · exact .inl rfl
        · split
          · exact .inl rfl
          · exact .inr ⟨rfl, _, _, _, rfl⟩

/-- What an event leaves behind is apart, or prepares the exchange. -/
theorem event_apart {cfg : Config} {e : ServerEvent}
    (hworks : ∀ socket event seen, x.works (.admitted socket event seen) = none)
    (h : (server cfg).fire s (.event e) = some g) : (∀ task ∈ g.next, x.Apart task) ∨
      (∀ k, x.heard k g.out = []) ∧ ∃ task, g.next = [task] ∧ x.prepares task = true := by
  rcases fire_event_next h with hnext | ⟨hout, socket, event, seen, hnext⟩
  · rw [hnext]
    exact .inl nofun
  · rw [hnext, hout]
    by_cases hprepares : x.prepares (.admitted socket event seen) = true
    · exact .inr ⟨fun _ => rfl, _, rfl, hprepares⟩
    · refine .inl (List.forall_mem_singleton.mpr ⟨?_, hworks socket event seen⟩)
      simpa using hprepares

/-- A segment of another family leaves tasks of another family behind. -/
theorem apart_of_family {cfg : Config} {family : Family} {task task' : Task} {o : Outcome}
    (hapart : ∀ task : Task, task.family ≠ family → task.family ≠ .outside → x.Apart task)
    (h : (server cfg).fire s (.task task o) = some g) (hother : triggerFamily (.task task o) ≠ family)
    (hm : task' ∈ g.next) : x.Apart task' := by
  have hfamily := (fire_within h).next task' hm
  apply hapart task'
  · rw [hfamily]
    exact hother
  · intro houtside
    rw [hfamily] at houtside
    cases task with
    | admitted socket event seen => cases event <;> cases houtside
    | _ => cases houtside

variable (x)

/-! ## A thread -/

inductive Progress : List ServerTurn → List Task → Prop where
  | apart {turns : List ServerTurn} {ts : List Task} (hopens : ∀ turn ∈ turns, x.opens turn.trigger = none)
      (hts : ∀ task ∈ ts, x.Apart task) : Progress turns ts
  | preparing {turns : List ServerTurn} {task : Task} (hopens : ∀ turn ∈ turns, x.opens turn.trigger = none)
      (hsilent : ∀ turn ∈ turns, ∀ k, x.heard k turn.out = []) (htask : x.prepares task = true) :
      Progress turns [task]
  | working {socket : SocketId} {turns : List ServerTurn} {task : Task}
      (hopens : ∀ turn ∈ turns, x.OpensFor socket turn.trigger)
      (hannounces : ∀ turn ∈ turns, x.Announces turn.out) (htask : x.works task = some socket) :
      Progress turns [task]
  | ended {socket : SocketId} {turns : List ServerTurn} {last : ServerTurn}
      (hopens : ∀ turn ∈ turns ++ [last], x.OpensFor socket turn.trigger)
      (hannounces : ∀ turn ∈ turns, x.Announces turn.out)
      (hends : x.Ends socket last.before.shared last.trigger last.out) : Progress (turns ++ [last]) []

variable {x cfg} {turns : List ServerTurn} {ts : List Task}

theorem Progress.perm {ts' : List Task} (hperm : ts.Perm ts') (h : x.Progress turns ts) : x.Progress turns ts' := by
  cases h with
  | apart hopens hts => exact .apart hopens fun task hm => hts task (hperm.mem_iff.mpr hm)
  | preparing hopens hsilent htask =>
    rw [← List.singleton_perm.mp hperm]
    exact .preparing hopens hsilent htask
  | working hopens hannounces htask =>
    rw [← List.singleton_perm.mp hperm]
    exact .working hopens hannounces htask
  | ended hopens hannounces hends =>
    rw [List.nil_perm.mp hperm]
    exact .ended hopens hannounces hends

theorem Progress.begin (hx : x.Steps cfg) {turn : ServerTurn} {e : ServerEvent}
    (htrigger : turn.trigger = .event e) (hout : turn.out = g.out)
    (h : (server cfg).fire s (.event e) = some g) : x.Progress [turn] g.next := by
  obtain ⟨hopens, hcase⟩ := hx.event h
  have hnone : ∀ turn' ∈ [turn], x.opens turn'.trigger = none := by
    rw [List.forall_mem_singleton, htrigger]
    exact hopens
  rcases hcase with hapart | ⟨hsilent, task, hnext, htask⟩
  · exact .apart hnone hapart
  · rw [hnext]
    refine .preparing hnone ?_ htask
    rw [List.forall_mem_singleton, hout]
    exact hsilent

theorem Progress.step (hx : x.Steps cfg) {turn : ServerTurn} {task : Task} {o : Outcome}
    (hprogress : x.Progress turns (task :: ts)) (htrigger : turn.trigger = .task task o)
    (hout : turn.out = g.out)
    (h : (server cfg).fire turn.before.shared (.task task o) = some g) :
    x.Progress (turns ++ [turn]) (ts ++ g.next) := by
  cases hprogress with
  | apart hopens hts =>
    obtain ⟨hnone, hnext⟩ := hx.apart (hts task List.mem_cons_self) h
    refine .apart (forall_mem_concat hopens (by rw [htrigger]; exact hnone)) fun task' hm => ?_
    rcases List.mem_append.mp hm with hm | hm
    · exact hts task' (List.mem_cons_of_mem _ hm)
    · exact hnext task' hm
  | preparing hopens hsilent htask =>
    rw [List.nil_append]
    rcases hx.prepares htask h with ⟨hnone, hcase⟩ | ⟨socket, task', hfor, hannounces, hnext, hworks⟩
    · have hopens' := forall_mem_concat hopens (show x.opens turn.trigger = none by rw [htrigger]; exact hnone)
      rcases hcase with hnext | ⟨hsilent', task', hnext, htask'⟩
      · rw [hnext]
        exact .apart hopens' nofun
      · rw [hnext]
        exact .preparing hopens' (forall_mem_concat hsilent (by rw [hout]; exact hsilent')) htask'
    · rw [hnext]
      refine .working (forall_mem_concat ?_ (by rw [htrigger]; exact hfor))
        (forall_mem_concat ?_ (by rw [hout]; exact hannounces)) hworks
      · intro turn' hm k hk
        rw [hopens turn' hm] at hk
        cases hk
      · intro turn' hm k m hmem
        rw [hsilent turn' hm k] at hmem
        cases hmem
  | working hopens hannounces htask =>
    rw [List.nil_append]
    obtain ⟨hfor, hcase⟩ := hx.works htask h
    have hopens' := forall_mem_concat hopens (by rw [htrigger]; exact hfor)
    rcases hcase with ⟨hmore, task', hnext, htask'⟩ | ⟨hnext, hends⟩
    · rw [hnext]
      exact .working hopens' (forall_mem_concat hannounces (by rw [hout]; exact hmore)) htask'
    · rw [hnext]
      refine .ended hopens' hannounces ?_
      rw [htrigger, hout]
      exact hends

/-- Every thread is at some point of the exchange, or apart from it. -/
theorem Steps.progress (hx : x.Steps cfg) {mode : RoomMode} {now : Time} {acts : List ServerAct}
    {d : ThreadedServerConf} {out : List Effect} (h : ReachesThreaded cfg mode now acts d out) {k : ℕ}
    (hk : k < d.shared.2) : x.Progress (threadTurns cfg mode now acts k) (tasksOf k d.pool) := by
  refine (Machine.thread_rule (P := fun _ _ => True) (J := x.Progress) ?_ ?_ ?_
    (Machine.meets_true _ _) h).threads k hk
  · exact fun _ _ _ hperm hprogress => hprogress.perm hperm
  · exact fun turn e g others _ htrigger hby => .begin hx htrigger hby.out hby.fire
  · exact fun turns turn t o g others ts hprogress _ htrigger hby => hprogress.step hx htrigger hby.out hby.fire

/-! ## The answer -/

theorem heardIn_append (k : SocketId) (turns turns' : List ServerTurn) :
    x.heardIn k (turns ++ turns') = x.heardIn k turns ++ x.heardIn k turns' := List.flatMap_append

/-- A thread that is at its end and has begun the exchange has ended it. -/
theorem Steps.ended (hx : x.Steps cfg) {mode : RoomMode} {now : Time} {acts : List ServerAct}
    {d : ThreadedServerConf} {out : List Effect} (h : ReachesThreaded cfg mode now acts d out) {k : ℕ}
    (hk : k < d.shared.2) {opening : ServerTurn} (hopening : opening ∈ threadTurns cfg mode now acts k)
    (hopens : x.opens opening.trigger = some socket) (hended : tasksOf k d.pool = []) :
    ∃ init last, threadTurns cfg mode now acts k = init ++ [last] ∧
      (∀ turn ∈ init, x.Announces turn.out) ∧ x.Ends socket last.before.shared last.trigger last.out := by
  have hprogress := hx.progress h hk
  rw [hended] at hprogress
  generalize threadTurns cfg mode now acts k = turns at hopening hprogress ⊢
  cases hprogress with
  | apart hnone =>
    rw [hnone opening hopening] at hopens
    cases hopens
  | ended hfor hannounces hends =>
    obtain rfl := hfor opening hopening socket hopens
    exact ⟨_, _, rfl, hannounces, hends⟩

/-- A socket of the room hears the answer when it goes to the room, or when the socket itself asked. -/
theorem Ends.answered_iff (hx : x.Steps cfg) {init : List ServerTurn} {last : ServerTurn}
    (hannounces : ∀ turn ∈ init, x.Announces turn.out)
    (hends : x.Ends socket last.before.shared last.trigger last.out)
    (hattendance : Attendance last.before.shared) {k : SocketId} (hk : k ∈ last.before.shared.joined) :
    x.Answered k (init ++ [last]) ↔ x.answersSocket last.trigger = false ∨ k = socket := by
  obtain ⟨m, hm, hheard⟩ := hends
  have hbefore : ∀ m' ∈ x.heardIn k init, x.announces m' = true := by
    intro m' hm'
    obtain ⟨turn, hturn, hm'⟩ := List.mem_flatMap.mp hm'
    exact hannounces turn hturn k m' hm'
  have hlast : x.heardIn k (init ++ [last]) = x.heardIn k init ++ x.heard k last.out := by
    rw [heardIn_append, heardIn, heardIn, List.flatMap_singleton]
  rw [hheard k] at hlast
  constructor
  · rintro ⟨before, answer, hall, -, hanswer⟩
    by_contra hnot
    obtain ⟨hsocket, hne⟩ := not_or.mp hnot
    rw [Bool.not_eq_false] at hsocket
    -- nothing reached the socket in the last segment, so that the answer is an announcement
    rw [if_pos hsocket, reaches, if_neg fun hboth => hne hboth.1.symm, List.replicate_zero, List.append_nil,
      hall] at hlast
    have hmem : answer ∈ x.heardIn k init := by
      rw [← hlast]
      exact List.mem_append_right _ (List.mem_singleton_self _)
    have hannounced := hbefore answer hmem
    rw [hx.disjoint answer hanswer] at hannounced
    cases hannounced
  · intro hcase
    have hone : (if x.answersSocket last.trigger = true then reaches last.before.shared.live socket k
        else last.before.shared.joined.count k) = 1 := by
      by_cases hsocket : x.answersSocket last.trigger = true
      · obtain rfl := hcase.resolve_left (by rw [hsocket]; exact Bool.noConfusion)
        rw [if_pos hsocket, reaches, if_pos ⟨rfl, hattendance.live k hk⟩]
      · rw [if_neg hsocket]
        exact List.count_eq_one_of_mem hattendance.distinct hk
    rw [hone] at hlast
    exact ⟨_, m, hlast, hbefore, hm⟩

/-- A socket that has heard an announcement and stays is there at the end. -/
theorem Stays.last (hx : x.Steps cfg) {init : List ServerTurn} {last : ServerTurn} {k : SocketId}
    (hends : x.Ends socket last.before.shared last.trigger last.out) (hstays : x.Stays k (init ++ [last]))
    {m : Message} (hm : m ∈ x.heardIn k (init ++ [last])) (hannounces : x.announces m = true) :
    k ∈ last.before.shared.joined := by
  refine hstays init last [] rfl fun hnone => ?_
  rw [heardIn_append, hnone, List.nil_append, heardIn, List.flatMap_singleton] at hm
  obtain ⟨answer, hanswer, hheard⟩ := hends
  rw [hheard k] at hm
  have hno := hx.disjoint answer hanswer
  rw [← List.eq_of_mem_replicate hm, hannounces] at hno
  cases hno

end Exchange

/-- Who is in the room is connected, once each. -/
theorem ReachesThreaded.attendance {cfg : Config} {mode : RoomMode} {now : Time} {acts : List ServerAct}
    {d : ThreadedServerConf} {out : List Effect} (h : ReachesThreaded cfg mode now acts d out) {k : ℕ}
    {turn : ServerTurn} (hturn : turn ∈ threadTurns cfg mode now acts k) : Attendance turn.before.shared := by
  apply h.before (I := fun c => Attendance c.shared) (attendance_initial mode now) ?_ hturn
  exact fun _ _ _ _ _ _ hattendance hby => hattendance.step hby

end CodeShare
