import CodeShare.Lib.GracefulShutdown
import Mathlib.Data.List.Chain

/-! # The course of a shutdown

Whatever asks for the shutdown, how often and when, its steps are started in order, each behind the end of the
one before it, and no failure stops the others. The process exits once, with the code of what asked first or by
force; and nothing behind `httpServer.close` is started while a connection is open.
-/

namespace CodeShare.Shutdown
open Tasks
set_option autoImplicit false

/-! ## What was logged -/

/-- A step begins, or has come to its end. -/
inductive StepMark where
  | start (step : ShutdownStep)
  | finish (step : ShutdownStep)

def ShutdownLog.mark? : ShutdownLog → Option StepMark
  | started step => some (.start step)
  | ended step _ => some (.finish step)
  | asked _ _ | exited _ _ => none

def StepMark.start? : StepMark → Option ShutdownStep
  | start step => some step
  | finish _ => none

def ShutdownLog.asked? : ShutdownLog → Option (ℕ × Time)
  | asked cause time => some (cause.exitCode, time)
  | started _ | ended _ _ | exited _ _ => none

def ShutdownLog.exited? : ShutdownLog → Option (Ending × ℕ)
  | exited ending code => some (ending, code)
  | asked _ _ | ended _ _ | started _ => none

def marksLogged (logs : List ShutdownLog) : List StepMark := logs.filterMap ShutdownLog.mark?

def stepsStarted (logs : List ShutdownLog) : List ShutdownStep := (marksLogged logs).filterMap StepMark.start?

/-- The codes of what has asked, with the times. -/
def requestsLogged (logs : List ShutdownLog) : List (ℕ × Time) := logs.filterMap ShutdownLog.asked?

def exitsLogged (logs : List ShutdownLog) : List (Ending × ℕ) := logs.filterMap ShutdownLog.exited?

section
variable (logs more : List ShutdownLog)

@[simp] theorem marksLogged_append : marksLogged (logs ++ more) = marksLogged logs ++ marksLogged more :=
  List.filterMap_append

@[simp] theorem requestsLogged_append : requestsLogged (logs ++ more) = requestsLogged logs ++ requestsLogged more :=
  List.filterMap_append

@[simp] theorem exitsLogged_append : exitsLogged (logs ++ more) = exitsLogged logs ++ exitsLogged more :=
  List.filterMap_append

end

/-! ## Steps -/

/-- Each step ends before the next one begins. -/
def course (steps : List ShutdownStep) : List StepMark := steps.flatMap fun step => [.start step, .finish step]

section
variable (front later : List ShutdownStep) (step : ShutdownStep)

@[simp] theorem course_append : course (front ++ later) = course front ++ course later := List.flatMap_append

@[simp] theorem course_starts : (course later).filterMap StepMark.start? = later := by
  induction later with
  | nil => rfl
  | cons step later ih => exact congrArg (step :: ·) ih

/-- A step that goes on is the last one that was started. -/
theorem starts_of_course :
    (course front ++ [StepMark.start step]).filterMap StepMark.start? = front ++ [step] := by
  rw [List.filterMap_append, course_starts]
  rfl

theorem course_start : course front ++ [StepMark.start step] <+: course (front ++ step :: later) := by
  rw [course_append]
  exact (List.prefix_append_right_inj _).mpr ⟨.finish step :: course later, rfl⟩

end

/-- The step comes behind `httpServer.close`. -/
def ShutdownStep.behindClose : ShutdownStep → Bool
  | stopBackgroundTasks | httpServerClose => false
  | ioClose | wssClose | destroyAllDocs | resetRooms | closePool | closeReliabilityStore => true

/-- What comes right before a step behind `httpServer.close` is this one, or behind it as well. -/
def Follows (step next : ShutdownStep) : Prop :=
  next.behindClose = true → step = .httpServerClose ∨ step.behindClose = true

theorem steps_follow (deps : ShutdownDeps) : deps.steps.IsChain Follows := by
  unfold ShutdownDeps.steps
  split_ifs <;> simp [Follows, ShutdownStep.behindClose]

theorem before_behindClose {deps : ShutdownDeps} {front later : List ShutdownStep} {step next : ShutdownStep}
    (hsteps : deps.steps = front ++ step :: next :: later) : Follows step next := by
  have hfollow := steps_follow deps
  rw [hsteps] at hfollow
  exact (List.isChain_append_cons_cons.mp hfollow).2.1

theorem first_not_behind (deps : ShutdownDeps) : ∀ first ∈ deps.steps.head?, first.behindClose = false := by
  unfold ShutdownDeps.steps
  split_ifs <;> simp [ShutdownStep.behindClose]

/-! ## Phases -/

abbrev ProcessConf := Conf Process ShutdownTask

/-- Nothing behind `httpServer.close` is started before the last connection has ended. -/
structure Sealed (p : Process) (steps : List ShutdownStep) : Prop where
  closed : .httpServerClose ∈ steps ↔ p.accepting = false
  empty : ∀ step ∈ steps, step.behindClose = true → p.connections = 0 ∧ p.accepting = false

structure Serving (c : ProcessConf) (logs : List ShutdownLog) : Prop where
  pool : c.pool = []
  shuttingDown : c.shared.shuttingDown = false
  waiting : c.shared.waiting = []
  forceTimer : c.shared.forceTimer = none
  accepting : c.shared.accepting = true
  exited : c.shared.exited = false
  marks : marksLogged logs = []
  requests : requestsLogged logs = []
  exits : exitsLogged logs = []

/-- The shutdown is in one of its steps. -/
structure Closing (deps : ShutdownDeps) (front : List ShutdownStep) (step : ShutdownStep)
    (later : List ShutdownStep) (c : ProcessConf) (logs : List ShutdownLog) : Prop where
  steps : deps.steps = front ++ step :: later
  pool : c.pool = [.running step later]
  shuttingDown : c.shared.shuttingDown = true
  waiting : c.shared.waiting = (requestsLogged logs).map Prod.fst
  forceTimer : ∃ code began, (requestsLogged logs).head? = some (code, began) ∧
    c.shared.forceTimer = some (began + deps.forceTimeout)
  sealed : Sealed c.shared (front ++ [step])
  exited : c.shared.exited = false
  marks : marksLogged logs = course front ++ [.start step]
  exits : exitsLogged logs = []

/-- Why a process has exited as it has. -/
def Justified (deps : ShutdownDeps) (logs : List ShutdownLog) (now : Time) : Ending → ℕ → Prop
  | .completed, code => marksLogged logs = course deps.steps ∧ (requestsLogged logs).head?.map Prod.fst = some code
  | .forced, code => code = 1 ∧ ∃ first began, (requestsLogged logs).head? = some (first, began) ∧
      began + deps.forceTimeout ≤ now
  | .drained, code => code = 0 ∧ .httpServerClose ∈ stepsStarted logs

structure Over (deps : ShutdownDeps) (c : ProcessConf) (logs : List ShutdownLog) : Prop where
  exited : c.shared.exited = true
  exits : ∃ ending code, exitsLogged logs = [(ending, code)] ∧ Justified deps logs c.shared.now ending code
  marks : marksLogged logs <+: course deps.steps
  sealed : Sealed c.shared (stepsStarted logs)

/-- The phases of a process. -/
inductive Phase (deps : ShutdownDeps) (c : ProcessConf) (logs : List ShutdownLog) : Prop where
  | serving (h : Serving c logs)
  | closing {front : List ShutdownStep} {step : ShutdownStep} {later : List ShutdownStep}
      (h : Closing deps front step later c logs)
  | ended (h : Over deps c logs)

theorem Closing.started {deps : ShutdownDeps} {front later : List ShutdownStep} {step : ShutdownStep}
    {c : ProcessConf} {logs : List ShutdownLog} (h : Closing deps front step later c logs) :
    stepsStarted logs = front ++ [step] := by
  rw [stepsStarted, h.marks, starts_of_course]

/-! ## From one step to the next -/

section
variable {deps : ShutdownDeps} {p p' : Process} {steps past later front : List ShutdownStep}
  {step : ShutdownStep} {c c' : ProcessConf} {logs out : List ShutdownLog} {g : ProcessSegment}
  {rest : List ShutdownTask}

theorem Sealed.mono (h : Sealed p steps) (hconnections : p'.connections ≤ p.connections ∨ p.accepting = true)
    (haccepting : p'.accepting = p.accepting) : Sealed p' steps where
  closed := by rw [h.closed, haccepting]
  empty step hm hbehind := by
    obtain ⟨hnone, hclosed⟩ := h.empty step hm hbehind
    refine ⟨?_, haccepting.trans hclosed⟩
    rcases hconnections with hle | hopen
    · omega
    · rw [hclosed] at hopen
      cases hopen

/-- The shutdown between two steps, with those that are past and those to come. -/
structure Between (deps : ShutdownDeps) (past later : List ShutdownStep) (g : ProcessSegment)
    (logs : List ShutdownLog) : Prop where
  steps : deps.steps = past ++ later
  next : g.next = []
  shuttingDown : g.state.shuttingDown = true
  waiting : g.state.waiting = (requestsLogged logs).map Prod.fst
  forceTimer : ∃ code began, (requestsLogged logs).head? = some (code, began) ∧
    g.state.forceTimer = some (began + deps.forceTimeout)
  sealed : Sealed g.state past
  ready : ∀ next ∈ later.head?, next.behindClose = true → g.state.connections = 0 ∧ g.state.accepting = false
  exited : g.state.exited = false
  marks : marksLogged logs = course past
  exits : exitsLogged logs = []

/-- The end of the shutdown: what has asked first exits. -/
theorem Between.ended (h : Between deps past [] g (logs ++ g.out)) :
    Over deps ⟨(nextStep g []).state, (nextStep g []).next⟩ (logs ++ (nextStep g []).out) := by
  obtain ⟨code, began, hfirst, -⟩ := h.forceTimer
  have hwaiting : g.state.waiting.head? = some code := by
    rw [h.waiting, List.head?_map, hfirst, Option.map_some]
  have hnext : nextStep g [] = endProcess (g.modify fun p => { p with forceTimer := none }) .completed code := by
    cases hlist : g.state.waiting with
    | nil => simp [hlist] at hwaiting
    | cons first others =>
      rw [hlist, List.head?_cons, Option.some.injEq] at hwaiting
      rw [nextStep, Segment.modify_state, hlist, hwaiting]
  have hall : deps.steps = past := by rw [h.steps, List.append_nil]
  have hout : logs ++ (nextStep g []).out = logs ++ g.out ++ [.exited .completed code] := by
    rw [hnext]
    exact (List.append_assoc _ _ _).symm
  have hmarks : marksLogged (logs ++ (nextStep g []).out) = course past := by
    rw [hout, marksLogged_append, h.marks]
    exact List.append_nil _
  refine ⟨?_, ⟨.completed, code, ?_, ?_, ?_⟩, ?_, ?_⟩
  · rw [hnext]
    rfl
  · rw [hout, exitsLogged_append, h.exits]
    rfl
  · rw [hmarks, hall]
  · rw [hout, requestsLogged_append, List.head?_append, hfirst]
    rfl
  · rw [hmarks, hall]
  · rw [stepsStarted, hmarks, course_starts, hnext]
    exact h.sealed.mono (.inl le_rfl) rfl

/-- The next step is started. -/
theorem Between.closing (h : Between deps past (step :: later) g (logs ++ g.out)) :
    Closing deps past step later ⟨(nextStep g (step :: later)).state, (nextStep g (step :: later)).next⟩
      (logs ++ (nextStep g (step :: later)).out) := by
  have hout : logs ++ (nextStep g (step :: later)).out = logs ++ g.out ++ [.started step] :=
    (List.append_assoc _ _ _).symm
  have hrequests : requestsLogged (logs ++ (nextStep g (step :: later)).out) = requestsLogged (logs ++ g.out) := by
    rw [hout, requestsLogged_append]
    exact List.append_nil _
  refine ⟨h.steps, ?_, h.shuttingDown, ?_, ?_, ⟨?_, ?_⟩, h.exited, ?_, ?_⟩
  · exact congrArg (· ++ [.running step later]) h.next
  · rw [hrequests]
    exact h.waiting
  · rw [hrequests]
    exact h.forceTimer
  · rw [List.mem_append, h.sealed.closed, List.mem_singleton]
    by_cases hstep : step = .httpServerClose
    · simp [nextStep, hstep]
    · simp [nextStep, hstep, Ne.symm hstep]
  · intro other hm hbehind
    have hnone : g.state.connections = 0 ∧ g.state.accepting = false := by
      rcases List.mem_append.mp hm with hm | hm
      · exact h.sealed.empty other hm hbehind
      · exact h.ready step rfl (List.mem_singleton.mp hm ▸ hbehind)
    simp [nextStep, hnone.1, hnone.2]
  · rw [hout, marksLogged_append, h.marks]
    rfl
  · rw [hout, exitsLogged_append, h.exits]
    rfl

theorem Between.phase (past : List ShutdownStep) (h : Between deps past later g (logs ++ g.out)) :
    Phase deps ⟨(nextStep g later).state, (nextStep g later).next⟩ (logs ++ (nextStep g later).out) := by
  cases later with
  | nil => exact .ended h.ended
  | cons step later => exact .closing h.closing

/-! ## Events -/

/-- A process that is forced, or left by everything, in the middle of its shutdown. -/
theorem Closing.exit (h : Closing deps front step later c logs) {ending : Ending} {code : ℕ}
    {next : List ShutdownTask} (hwhy : Justified deps (logs ++ [.exited ending code]) c.shared.now ending code) :
    Over deps ⟨{ c.shared with exited := true }, next⟩ (logs ++ [.exited ending code]) := by
  have hmarks : marksLogged (logs ++ [.exited ending code]) = course front ++ [.start step] := by
    rw [marksLogged_append, h.marks]
    exact List.append_nil _
  refine ⟨rfl, ⟨ending, code, ?_, hwhy⟩, ?_, ?_⟩
  · rw [exitsLogged_append, h.exits]
    rfl
  · rw [hmarks, h.steps]
    exact course_start _ _ _
  · rw [stepsStarted, hmarks, starts_of_course]
    exact h.sealed.mono (.inl le_rfl) rfl

/-- An event that only changes the clock, the connections or what waits. -/
theorem Closing.event (h : Closing deps front step later c logs) {more : List ShutdownLog} 
    (hshutting : p.shuttingDown = true) (htimer : p.forceTimer = c.shared.forceTimer) (hexited : p.exited = false)
    (hwaiting : p.waiting = c.shared.waiting ++ (requestsLogged more).map Prod.fst)
    (hconnections : p.connections ≤ c.shared.connections ∨ c.shared.accepting = true)
    (haccepting : p.accepting = c.shared.accepting)
    (hmarks : marksLogged more = []) (hexits : exitsLogged more = []) :
    Closing deps front step later ⟨p, c.pool⟩ (logs ++ more) where
  steps := h.steps
  pool := h.pool
  shuttingDown := hshutting
  waiting := by
    rw [hwaiting, h.waiting, requestsLogged_append, List.map_append]
  forceTimer := by
    obtain ⟨code, began, hfirst, hdue⟩ := h.forceTimer
    refine ⟨code, began, ?_, htimer.trans hdue⟩
    rw [requestsLogged_append, List.head?_append, hfirst]
    rfl
  sealed := h.sealed.mono hconnections haccepting
  exited := hexited
  marks := by rw [marksLogged_append, h.marks, hmarks, List.append_nil]
  exits := by rw [exitsLogged_append, h.exits, hexits]; rfl

/-- The first to ask begins the shutdown. -/
theorem Serving.ask (h : Serving c logs) (cause : Cause) :
    Phase deps ⟨(shutdown deps c.shared cause).state, (shutdown deps c.shared cause).next⟩
      (logs ++ (shutdown deps c.shared cause).out) := by
  have hrequests : requestsLogged (logs ++ [.asked cause c.shared.now]) = [(cause.exitCode, c.shared.now)] := by
    rw [requestsLogged_append, h.requests]
    rfl
  unfold shutdown
  rw [if_neg (by simp [h.shuttingDown])]
  apply Between.phase []
  refine ⟨rfl, rfl, rfl, ?_, ⟨cause.exitCode, c.shared.now, ?_, rfl⟩, ⟨?_, ?_⟩, ?_, h.exited, ?_, ?_⟩
  · change c.shared.waiting ++ [cause.exitCode] = (requestsLogged (logs ++ [.asked cause c.shared.now])).map _
    rw [hrequests, h.waiting]
    rfl
  · exact congrArg List.head? hrequests
  · simp [h.accepting]
  · exact List.forall_mem_nil _
  · intro next hfirst hbehind
    have hnot := first_not_behind deps next hfirst
    rw [hbehind] at hnot
    cases hnot
  · exact (marksLogged_append _ _).trans (congrArg (· ++ []) h.marks)
  · exact (exitsLogged_append _ _).trans (congrArg (· ++ []) h.exits)

/-- Another one waits for the same shutdown. -/
theorem Closing.ask (h : Closing deps front step later c logs) (cause : Cause) :
    Closing deps front step later ⟨(shutdown deps c.shared cause).state, c.pool⟩
        (logs ++ (shutdown deps c.shared cause).out) ∧ (shutdown deps c.shared cause).next = [] := by
  unfold shutdown
  rw [if_pos (by exact h.shuttingDown)]
  exact ⟨h.event h.shuttingDown rfl h.exited rfl (.inl le_rfl) rfl rfl rfl, rfl⟩

theorem Serving.event (h : Serving c logs) (now : Time) (connections : ℕ) :
    Serving ⟨{ c.shared with now := now, connections := connections }, []⟩ logs where
  pool := rfl
  shuttingDown := h.shuttingDown
  waiting := h.waiting
  forceTimer := h.forceTimer
  accepting := h.accepting
  exited := h.exited
  marks := h.marks
  requests := h.requests
  exits := h.exits

theorem Serving.handle (h : Serving c logs) {e : ProcessEvent} (hfire : processHandle deps c.shared e = some g) :
    Phase deps ⟨g.state, g.next⟩ (logs ++ g.out) := by
  have hexited : ¬c.shared.exited = true := by simp [h.exited]
  simp only [processHandle, if_neg hexited] at hfire
  cases e with
  | ask cause =>
    obtain rfl := Option.some.inj hfire
    exact h.ask cause
  | forceTimeout => simp [processEvent, h.forceTimer] at hfire
  | nothingLeft => simp [processEvent, h.accepting] at hfire
  | connectionOpened =>
    simp only [processEvent] at hfire
    split_ifs at hfire
    obtain rfl := Option.some.inj hfire
    rw [Segment.of_out, List.append_nil]
    exact .serving (h.event _ _)
  | connectionClosed =>
    simp only [processEvent] at hfire
    split_ifs at hfire
    obtain rfl := Option.some.inj hfire
    rw [Segment.of_out, List.append_nil]
    exact .serving (h.event _ _)
  | tick elapsed =>
    obtain rfl := Option.some.inj hfire
    rw [Segment.of_out, List.append_nil]
    exact .serving (h.event _ _)

theorem Closing.handle (h : Closing deps front step later c logs) {e : ProcessEvent}
    (hfire : processHandle deps c.shared e = some g) : Phase deps ⟨g.state, c.pool ++ g.next⟩ (logs ++ g.out) := by
  have hexited : ¬c.shared.exited = true := by simp [h.exited]
  obtain ⟨code, began, hfirst, hdue⟩ := h.forceTimer
  simp only [processHandle, if_neg hexited] at hfire
  cases e with
  | ask cause =>
    obtain rfl := Option.some.inj hfire
    obtain ⟨hclosing, hnext⟩ := h.ask cause
    rw [hnext, List.append_nil]
    exact .closing hclosing
  | forceTimeout =>
    simp only [processEvent, hdue] at hfire
    split_ifs at hfire with hnow
    obtain rfl := Option.some.inj hfire
    refine .ended (h.exit ⟨rfl, code, began, ?_, hnow⟩)
    rw [requestsLogged_append, List.head?_append, hfirst]
    rfl
  | nothingLeft =>
    simp only [processEvent] at hfire
    split_ifs at hfire with hkept
    obtain rfl := Option.some.inj hfire
    refine .ended (h.exit ⟨rfl, ?_⟩)
    rw [stepsStarted, marksLogged_append, List.filterMap_append]
    apply List.mem_append_left
    rw [← stepsStarted, h.started]
    simpa [h.sealed.closed] using (not_or.mp hkept).1
  | connectionOpened =>
    simp only [processEvent] at hfire
    split_ifs at hfire with haccepting
    obtain rfl := Option.some.inj hfire
    rw [Segment.of_next, List.append_nil]
    exact .closing (h.event h.shuttingDown rfl h.exited (List.append_nil _).symm (.inr haccepting) rfl rfl rfl)
  | connectionClosed =>
    simp only [processEvent] at hfire
    split_ifs at hfire
    obtain rfl := Option.some.inj hfire
    rw [Segment.of_next, List.append_nil]
    exact .closing (h.event h.shuttingDown rfl h.exited (List.append_nil _).symm (.inl (Nat.sub_le _ _)) rfl rfl rfl)
  | tick elapsed =>
    obtain rfl := Option.some.inj hfire
    rw [Segment.of_next, List.append_nil]
    exact .closing (h.event h.shuttingDown rfl h.exited (List.append_nil _).symm (.inl le_rfl) rfl rfl rfl)

theorem safeStep_logs (p : Process) (step : ShutdownStep) (threw : Bool) (logs : List ShutdownLog) :
    requestsLogged (logs ++ (safeStep p step threw).out) = requestsLogged logs ∧
      marksLogged (logs ++ (safeStep p step threw).out) = marksLogged logs ++ [.finish step] ∧
      exitsLogged (logs ++ (safeStep p step threw).out) = exitsLogged logs := by
  simp [safeStep, requestsLogged, marksLogged, exitsLogged, ShutdownLog.asked?, ShutdownLog.mark?,
    ShutdownLog.exited?]

/-- A step has settled. -/
theorem Closing.settle (h : Closing deps front step later c logs) {threw : Bool}
    (hfire : processResume c.shared (.running step later) (.settled threw) = some g) :
    Phase deps ⟨g.state, g.next⟩ (logs ++ g.out) := by
  have hexited : ¬c.shared.exited = true := by simp [h.exited]
  simp only [processResume, if_neg hexited] at hfire
  split_ifs at hfire with hclosing
  obtain rfl := Option.some.inj hfire
  obtain ⟨code, began, hfirst, hdue⟩ := h.forceTimer
  obtain ⟨hrequests, hmarks, hexits⟩ := safeStep_logs c.shared step threw logs
  apply Between.phase (front ++ [step])
  refine ⟨?_, rfl, h.shuttingDown, ?_, ⟨code, began, ?_, hdue⟩, h.sealed, ?_, h.exited, ?_, ?_⟩
  · rw [h.steps]
    simp
  · rw [hrequests]
    exact h.waiting
  · rw [hrequests]
    exact hfirst
  · intro next hnext hbehind
    obtain ⟨rest, rfl⟩ : ∃ rest, later = next :: rest := by
      cases later with
      | nil => cases hnext
      | cons first rest =>
        obtain rfl := Option.some.inj hnext
        exact ⟨rest, rfl⟩
    rcases before_behindClose h.steps hbehind with hclose | hbefore
    · have hempty := not_and.mp hclosing hclose
      have hsealed := h.sealed.closed.mp (by simp [hclose])
      exact ⟨Nat.eq_zero_of_not_pos (not_or.mp hempty).2, hsealed⟩
    · exact h.sealed.empty step (by simp) hbefore
  · rw [hmarks, h.marks]
    simp [course]
  · rw [hexits]
    exact h.exits

end

/-! ## Runs -/

section
variable {deps : ShutdownDeps} {c c' : ProcessConf} {logs out : List ShutdownLog}

theorem Phase.step {t : Trigger ProcessEvent ShutdownTask ShutdownOutcome} {g : ProcessSegment}
    {rest : List ShutdownTask} (h : Phase deps c logs)
    (hby : (process deps).StepBy c c' out t g rest) : Phase deps c' (logs ++ out) := by
  have hafter : c' = ⟨g.state, rest ++ g.next⟩ := by
    cases c'
    exact congrArg₂ Conf.mk hby.shared hby.after
  rw [hafter, hby.out]
  have hbefore := hby.before
  have hfire := hby.fire
  cases h with
  | serving h =>
    rw [h.pool, List.perm_nil] at hbefore
    cases t with
    | event e =>
      rw [show rest = [] from hbefore]
      exact h.handle hfire
    | task task o => cases hbefore
  | closing h =>
    rw [h.pool, List.perm_singleton] at hbefore
    cases t with
    | event e =>
      rw [show rest = _ from hbefore, ← h.pool]
      exact h.handle hfire
    | task task o =>
      obtain ⟨rfl, rfl⟩ := List.cons.inj hbefore
      obtain ⟨threw⟩ := o
      exact h.settle hfire
  | ended h =>
    cases t with
    | event e => simp [process, Machine.fire, processHandle, h.exited] at hfire
    | task task o =>
      obtain ⟨step, later⟩ := task
      obtain ⟨threw⟩ := o
      simp [process, Machine.fire, processResume, h.exited] at hfire

theorem Phase.initial (deps : ShutdownDeps) (now : Time) : Phase deps (listening now) [] :=
  .serving ⟨rfl, rfl, rfl, rfl, rfl, rfl, rfl, rfl, rfl⟩

theorem phase_of_run {now : Time} {acts : List (Act ProcessEvent ShutdownOutcome)}
    (hrun : (process deps).run (listening now) acts = some (c, out)) : Phase deps c out :=
  Machine.run_preserves_always (fun _ _ _ _ _ _ _ h hby => h.step hby) (.initial deps now) hrun

/-- While the shutdown goes on, its timer ends the process when it is due. -/
theorem Closing.forced {front later : List ShutdownStep} {step : ShutdownStep}
    (h : Closing deps front step later c logs) {elapsed : Time} {code : ℕ} {began : Time}
    (hfirst : (requestsLogged logs).head? = some (code, began))
    (hdue : began + deps.forceTimeout ≤ c.shared.now + elapsed) :
    ∃ c', (process deps).run c [.event (.tick elapsed), .event .forceTimeout] =
      some (c', [.exited .forced 1]) := by
  obtain ⟨code', began', hfirst', htimer⟩ := h.forceTimer
  obtain ⟨rfl, rfl⟩ := Prod.mk.inj (Option.some.inj (hfirst.symm.trans hfirst'))
  refine ⟨⟨{ c.shared with now := c.shared.now + elapsed, exited := true }, c.pool⟩, ?_⟩
  simp [Machine.run, Machine.step, Machine.trigger, Machine.rest, Machine.fire, process, processHandle,
    processEvent, h.exited, htimer, hdue, endProcess]

/-- While a connection is open, what was started comes before the end of `httpServer.close`. -/
theorem Sealed.not_behind {p : Process} {steps : List ShutdownStep} (h : Sealed p steps)
    (hopen : 0 < p.connections) : ∀ step ∈ steps, step.behindClose = false := by
  intro step hm
  cases hbehind : step.behindClose with
  | false => rfl
  | true =>
    obtain ⟨hnone, -⟩ := h.empty step hm hbehind
    omega

end

/-- **The course of a shutdown.** The steps are started in order, each when the one before it has ended; the
one that goes on is the last that was started. -/
theorem shutdown_in_order {deps : ShutdownDeps} {now : Time} {acts : List (Act ProcessEvent ShutdownOutcome)}
    {c : ProcessConf} {out : List ShutdownLog}
    (hrun : (process deps).run (listening now) acts = some (c, out)) :
    marksLogged out <+: course deps.steps ∧ stepsStarted out <+: deps.steps ∧
    (c.shared.exited = false → ∀ step later, .running step later ∈ c.pool →
      ∃ front, marksLogged out = course front ++ [.start step]) ∧
    (0 < c.shared.connections → ∀ step ∈ stepsStarted out, step.behindClose = false) ∧
    (∀ ending code, (ending, code) ∈ exitsLogged out →
      exitsLogged out = [(ending, code)] ∧ Justified deps out c.shared.now ending code) ∧
    (c.shared.exited = false → ∀ code began, (requestsLogged out).head? = some (code, began) →
      ∀ elapsed, began + deps.forceTimeout ≤ c.shared.now + elapsed →
        ∃ c', (process deps).run c [.event (.tick elapsed), .event .forceTimeout] =
          some (c', [.exited .forced 1])) := by
  have hstarts : marksLogged out <+: course deps.steps → stepsStarted out <+: deps.steps := fun hmarks => by
    have hstarted := hmarks.filterMap StepMark.start?
    rwa [course_starts] at hstarted
  cases phase_of_run hrun with
  | serving h =>
    have hstarted : stepsStarted out = [] := by rw [stepsStarted, h.marks, List.filterMap_nil]
    rw [h.marks, hstarted, h.exits, h.requests, h.pool]
    exact ⟨List.nil_prefix, List.nil_prefix, fun _ _ _ => nofun, fun _ => List.forall_mem_nil _, fun _ _ => nofun,
      fun _ _ _ => nofun⟩
  | @closing front step later h =>
    have hmarks : marksLogged out <+: course deps.steps := by
      rw [h.marks, h.steps]
      exact course_start _ _ _
    refine ⟨hmarks, hstarts hmarks, fun _ step' later' hm => ⟨front, ?_⟩, ?_, ?_, ?_⟩
    · rw [h.pool, List.mem_singleton] at hm
      cases hm
      exact h.marks
    · rw [h.started]
      exact h.sealed.not_behind
    · rw [h.exits]
      exact fun _ _ => nofun
    · exact fun _ code began hfirst elapsed => h.forced hfirst
  | ended h =>
    obtain ⟨ending, code, hexits, hwhy⟩ := h.exits
    have hover : ¬c.shared.exited = false := by simp [h.exited]
    refine ⟨h.marks, hstarts h.marks, fun hexited => absurd hexited hover, h.sealed.not_behind, ?_,
      fun hexited => absurd hexited hover⟩
    intro ending' code' hm
    rw [hexits] at hm
    obtain ⟨rfl, rfl⟩ := Prod.mk.inj (List.mem_singleton.mp hm)
    exact ⟨hexits, hwhy⟩

/-- A client is connected when the process is told to stop, and the first step fails; the client leaves too late,
and everything behind `httpServer.close` is left undone. -/
def exampleStop : List (Act ProcessEvent ShutdownOutcome) :=
  [.event .connectionOpened, .event (.ask .signal), .resume 0 (.settled true), .event (.ask .uncaughtException),
    .event (.tick 10000), .event .forceTimeout]

theorem shutdown_in_order_example : ∃ c out,
    (process ⟨true, true, none⟩).run (listening 0) exampleStop = some (c, out) ∧
    marksLogged out = course [.stopBackgroundTasks] ++ [.start .httpServerClose] ∧
    marksLogged out <+: course (ShutdownDeps.steps ⟨true, true, none⟩) ∧
    exitsLogged out = [(.forced, 1)] ∧ (∀ step ∈ stepsStarted out, step.behindClose = false) ∧
    Justified ⟨true, true, none⟩ out c.shared.now .forced 1 := by
  obtain ⟨c, out, hrun, hmarks, hexits, hopen⟩ : ∃ c out,
      (process ⟨true, true, none⟩).run (listening 0) exampleStop = some (c, out) ∧
      marksLogged out = course [.stopBackgroundTasks] ++ [.start .httpServerClose] ∧
      exitsLogged out = [(.forced, 1)] ∧ 0 < c.shared.connections := ⟨_, _, rfl, rfl, rfl, by decide⟩
  obtain ⟨hcourse, -, -, hbehind, hwhy, -⟩ := shutdown_in_order hrun
  refine ⟨c, out, hrun, hmarks, hcourse, hexits, hbehind hopen, (hwhy .forced 1 ?_).2⟩
  rw [hexits]
  exact List.mem_singleton_self _

end CodeShare.Shutdown
