import CodeShare.Foundations.Views
import CodeShare.Server.Frames

/-! # The access check of every event

`createAccessEventMiddleware`: with an access service, each event of a socket waits for a check of its own
before the other middleware sees it. The checks end in any order. Without the gate this is the server,
whose events are those that have passed it.
-/

namespace CodeShare
open Tasks
set_option autoImplicit false

/-- What `validateSocketAccess` finds. -/
inductive SocketAccess where
  | allowed
  | denied (reason : JsString)

inductive GatedTask where
  | accessCheck (socket : SocketId) (event : ClientEvent)
  | server (task : Task)

inductive GatedOutcome where
  | access (found : SocketAccess)
  | server (outcome : Outcome)

abbrev GatedStep := Segment Server GatedTask Effect

/-- Behind the gate. -/
def Tasks.Segment.gated (g : Step) : GatedStep := ⟨g.state, g.out, g.next.map .server⟩

/-- An event goes on at once where nobody checks it. -/
def accessEventMiddleware (accessService : Bool) (s : Server) (socket : SocketId)
    (event : ClientEvent) : GatedStep :=
  if accessService then (Segment.of s).suspend (.accessCheck socket event)
  else (authMiddleware s socket event).gated

section
variable (cfg : Config) (accessService : Bool)

def handleGated (s : Server) : ServerEvent → Option GatedStep
  | .receive socket event =>
    if socket ∈ s.live then some (accessEventMiddleware accessService s socket event) else none
  | e => (handleEvent cfg s e).map Segment.gated

/-- Behind its check an event is one of the server; Socket.IO drops those of sockets that are gone. -/
def resumeGated (s : Server) : GatedTask → GatedOutcome → Option GatedStep
  | .accessCheck socket event, .access .allowed =>
    some ((handleEvent cfg s (.receive socket event)).getD (Segment.of s)).gated
  | .accessCheck socket _, .access (.denied reason) =>
    some ((handleEvent cfg s (.accessDenied socket reason)).getD (Segment.of s)).gated
  | .server task, .server outcome => (resumeTask cfg s task outcome).map Segment.gated
  | _, _ => none

/-- The server with the access check in front of it. -/
def gatedServer : Machine Server GatedTask ServerEvent GatedOutcome Effect where
  handle := handleGated cfg accessService
  resume := resumeGated cfg

abbrev GatedConf := Conf Server GatedTask
abbrev GatedAct := Act ServerEvent GatedOutcome
abbrev GatedTurn := Turn Server GatedTask ServerEvent GatedOutcome Effect

def initialGated (mode : RoomMode) (now : Time) : GatedConf := ⟨initialServer cfg mode now, []⟩

end

/-! ## The server behind the gate -/

def GatedTask.behind : GatedTask → Option Task
  | accessCheck _ _ => none
  | server task => some task

/-- Without the events that are being checked. -/
def behindGate : View Server GatedTask Effect Server Task Effect := ⟨id, GatedTask.behind, some⟩

@[simp] theorem behindGate_gated (g : Step) : behindGate.segment g.gated = g := by
  have hnext : (g.next.map GatedTask.server).filterMap GatedTask.behind = g.next := by
    rw [List.filterMap_map]
    exact List.filterMap_some
  unfold View.segment behindGate Segment.gated
  rw [List.filterMap_some, hnext]
  rfl

section
variable {cfg : Config} {accessService : Bool}

/-- An event starts to be checked, or the server gets it. -/
theorem handleGated_cases {s : Server} {e : ServerEvent} {g : GatedStep}
    (h : handleGated cfg accessService s e = some g) :
    (∃ socket event, e = .receive socket event ∧ accessService = true ∧
      g = (Segment.of s).suspend (.accessCheck socket event)) ∨
    ∃ g', handleEvent cfg s e = some g' ∧ g = g'.gated ∧
      (accessService = true → ∀ socket event, e ≠ .receive socket event) := by
  cases e with
  | receive socket event =>
    simp only [handleGated, accessEventMiddleware] at h
    split_ifs at h with hlive haccess
    · exact .inl ⟨socket, event, rfl, haccess, (Option.some.inj h).symm⟩
    · exact .inr ⟨_, if_pos hlive, (Option.some.inj h).symm, fun hservice => absurd hservice haccess⟩
  | _ =>
    simp only [handleGated] at h
    obtain ⟨g', hg', rfl⟩ := Option.map_eq_some_iff.mp h
    exact .inr ⟨g', hg', rfl, fun _ => nofun⟩

/-- What a task goes on with: a checked event becomes one of the server, unless its socket is gone. -/
theorem resumeGated_cases {s : Server} {task : GatedTask} {o : GatedOutcome} {g : GatedStep}
    (h : resumeGated cfg s task o = some g) :
    (∃ socket event e, task = .accessCheck socket event ∧
      (e = .receive socket event ∧ o = .access .allowed ∨
        ∃ reason, e = .accessDenied socket reason ∧ o = .access (.denied reason)) ∧
      g = ((handleEvent cfg s e).getD (Segment.of s)).gated) ∨
    ∃ task' o' g', task = .server task' ∧ o = .server o' ∧ resumeTask cfg s task' o' = some g' ∧
      g = g'.gated := by
  cases task with
  | accessCheck socket event =>
    cases o with
    | server o => cases h
    | access found =>
      cases found with
      | allowed =>
        cases h
        exact .inl ⟨socket, event, _, rfl, .inl ⟨rfl, rfl⟩, rfl⟩
      | denied reason =>
        cases h
        exact .inl ⟨socket, event, _, rfl, .inr ⟨reason, rfl, rfl⟩, rfl⟩
  | server task =>
    cases o with
    | access found => cases h
    | server o =>
      obtain ⟨g', hg', rfl⟩ := Option.map_eq_some_iff.mp h
      exact .inr ⟨task, o, g', rfl, rfl, hg', rfl⟩

/-- The server gets an event, if it can occur there. -/
theorem behindGate_event {s : Server} (e : ServerEvent) (t : Trigger ServerEvent GatedTask GatedOutcome)
    (htaken : t.taken.filterMap behindGate.task = []) :
    behindGate.Shows (server cfg) s t ((handleEvent cfg s e).getD (Segment.of s)).gated := by
  cases he : handleEvent cfg s e with
  | none => exact .nothing t _ htaken (behindGate_gated _)
  | some g =>
    rw [Option.getD_some]
    refine .event t _ e htaken ?_
    rw [behindGate_gated]
    exact he

/-- The server does what a segment of the gated one does, or nothing where an event starts to be checked. -/
theorem gated_shows (s : Server) (t : Trigger ServerEvent GatedTask GatedOutcome) (g : GatedStep)
    (h : (gatedServer cfg accessService).fire s t = some g) : behindGate.Shows (server cfg) s t g := by
  cases t with
  | event e =>
    rcases handleGated_cases h with ⟨socket, event, rfl, -, rfl⟩ | ⟨g', hg', rfl, -⟩
    · exact .nothing _ _ rfl rfl
    · refine .event _ _ e rfl ?_
      rw [behindGate_gated]
      exact hg'
  | task task o =>
    rcases resumeGated_cases h with
      ⟨socket, event, e, rfl, -, rfl⟩ | ⟨task', o', g', rfl, rfl, hg', rfl⟩
    · exact behindGate_event e _ rfl
    · refine .task _ _ _ task' o' rfl ?_
      rw [behindGate_gated]
      exact hg'

/-- **Behind the gate.** Every run of the gated server is a run of the server, with the same outputs. -/
theorem gated_run {c c' : GatedConf} {acts : List GatedAct} {out : List Effect}
    (hrun : (gatedServer cfg accessService).run c acts = some (c', out)) :
    ∃ acts', (server cfg).run (behindGate.conf c) acts' = some (behindGate.conf c', out) := by
  have hview := View.run gated_shows hrun
  rwa [show behindGate.effect = some from rfl, List.filterMap_some] at hview

end
end CodeShare
