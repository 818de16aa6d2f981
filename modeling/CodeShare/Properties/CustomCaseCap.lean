import CodeShare.Properties.CustomCases
import CodeShare.Server.Exchanges
import CodeShare.Server.Speakers

/-! # The cap on custom test cases

`testcase:add` compares the list with its limit before it waits for the boilerplate and once more behind the
wait, in the segment that appends. So the list never outgrows the limit, whatever happens in between, and every
request has one outcome: a refusal, one entry that the room hears of, or nothing when the sender is gone.
-/

namespace CodeShare
open Tasks
set_option autoImplicit false

/-! ## The list -/

/-- The test cases that a history has stored since the problem last changed. -/
def storedSinceSwitch (past : List ServerTurn) : List StoredTestCase :=
  past.foldl (fun testCases turn =>
    if loads turn.trigger = none then testCases ++ (stores turn.before.shared turn.trigger).toList else []) []

/-- The test cases that a socket is told of. -/
def Message.added : Message → Option CustomTestCase
  | testcaseAdded testCase => some testCase
  | _ => none

def addedTo (k : SocketId) (out : List Effect) : List CustomTestCase := (messagesTo k out).filterMap Message.added

/-- A test case is announced to the room in the segment that stores it, and in no other. -/
def Announced (turn : ServerTurn) : Prop := ∀ k, addedTo k turn.out =
  (stores turn.before.shared turn.trigger).elim [] fun stored =>
    List.replicate (turn.before.shared.joined.count k) stored.toCustomTestCase

/-- The list keeps its limit and is what the room is told, in order. -/
structure Capped (past : List ServerTurn) (s : Server) : Prop where
  bound : s.room.customTestCases.length ≤ s.room.customTestCaseLimit
  listed : s.room.customTestCases = storedSinceSwitch past
  announced : ∀ turn ∈ past, Announced turn

/-- A socket that is there for a while in which the problem stays hears of every entry, in order. -/
def HeardInOrder (past : List ServerTurn) : Prop := ∀ k earlier later, past = earlier ++ later →
  (∀ turn ∈ later, loads turn.trigger = none ∧ k ∈ turn.before.shared.joined) →
  (storedSinceSwitch past).map (·.toCustomTestCase) =
    (storedSinceSwitch earlier).map (·.toCustomTestCase) ++ later.flatMap fun turn => addedTo k turn.out

/-! ## A request -/

/-- The room is gone, or the socket, or its user. -/
def Server.Lacks (s : Server) (socket : SocketId) : Prop :=
  socket ∉ s.live ∨ s.registered = false ∨ ∀ u ∈ s.room.users, u.socketId ≠ some socket

inductive AddOutcome where
  | rejected (message : JsString)
  | added (stored : StoredTestCase)
  | dropped

/-- What a segment does when it ends the request in this way. -/
def AddOutcome.Ends (socket : SocketId) (data : Option CustomTestCase) (s s' : Server) (out : List Effect) :
    AddOutcome → Prop
  | rejected message => s' = s ∧ Delivers s out [.toSocket socket (.testcaseError message)]
  | added stored => data = some stored.toCustomTestCase ∧ s' = s.addTestCase stored ∧
      Delivers s out [.toRoom (.testcaseAdded stored.toCustomTestCase)]
  | dropped => s' = s ∧ out = [] ∧ s.Lacks socket

/-- A segment of the request has no effect at all, or ends it. -/
def AddsBy (socket : SocketId) (data : Option CustomTestCase) (s s' : Server) (out : List Effect) :
    List AddOutcome → Prop
  | [] => s' = s ∧ out = []
  | [outcome] => outcome.Ends socket data s s' out
  | _ => False

variable {cfg : Config} {c c' : ServerConf} {s : Server} {t : ServerTrigger} {g : Step} {past : List ServerTurn}
  {out : List Effect} {rest : List Task} {o : Outcome} {socket : SocketId} {data : Option CustomTestCase}

theorem storedSinceSwitch_concat (past : List ServerTurn) (turn : ServerTurn) :
    storedSinceSwitch (past ++ [turn]) = if loads turn.trigger = none then
      storedSinceSwitch past ++ (stores turn.before.shared turn.trigger).toList else [] := by
  rw [storedSinceSwitch, List.foldl_append]
  rfl

/-- The limit is set when the room is created. -/
theorem fire_customTestCaseLimit (h : (server cfg).fire s t = some g) :
    g.state.room.customTestCaseLimit = s.room.customTestCaseLimit := by
  cases hload : loads t with
  | some p =>
    obtain ⟨hintLimit, importsUsed, hroom⟩ := (fire_switched h hload).room
    rw [hroom]
    rfl
  | none =>
    refine fire_observe (φ := fun s : Server => s.room.customTestCaseLimit) h hload ?_
    rintro f - -
    cases f <;> exact fun _ => rfl

/-- Behind the wait the list is compared with the limit again. -/
theorem stores_lt {stored : StoredTestCase} (h : stores s t = some stored) :
    s.room.customTestCases.length < s.room.customTestCaseLimit := by
  unfold stores at h
  split at h
  · split_ifs at h with hfits
    exact hfits.2
  · cases h

theorem addedTo_eq_nil {k : SocketId} (h : ∀ testCase, Message.testcaseAdded testCase ∉ messagesTo k out) :
    addedTo k out = [] := by
  unfold addedTo
  rw [List.filterMap_eq_nil_iff]
  intro m hm
  cases m with
  | testcaseAdded testCase => exact absurd hm (h testCase)
  | _ => rfl

/-- Only the handler of `testcase:add` announces test cases. -/
theorem addedTo_of_family (h : (server cfg).fire s t = some g) (hf : triggerFamily t ≠ .testCase) (k : SocketId) :
    addedTo k g.out = [] := by
  apply addedTo_eq_nil
  intro testCase hm
  have hsenders := fire_speaks h k _ (mem_messagesTo.mp hm)
  rw [Message.senders, List.mem_singleton] at hsenders
  exact hf hsenders

/-! ## The handler -/

/-- Where a request is: admitted, waiting for the boilerplate, or at its end. -/
inductive AddScript (socket : SocketId) (data : Option CustomTestCase) : List AddOutcome → List Task → Prop where
  | admitted : AddScript socket data [] [.admitted socket (.testcaseAdd data) none]
  | waiting (testCase : CustomTestCase) (p : ProblemId) (hdata : data = some testCase) :
      AddScript socket data [] [.addingTestCase socket testCase p]
  | ended (outcome : AddOutcome) : AddScript socket data [outcome] []

theorem AddScript.perm {outcomes : List AddOutcome} {ts ts' : List Task} (hperm : ts.Perm ts')
    (h : AddScript socket data outcomes ts) : AddScript socket data outcomes ts' := by
  cases h with
  | admitted =>
    rw [← List.singleton_perm.mp hperm]
    exact .admitted
  | waiting testCase p hdata =>
    rw [← List.singleton_perm.mp hperm]
    exact .waiting testCase p hdata
  | ended outcome =>
    rw [List.nil_perm.mp hperm]
    exact .ended outcome

/-- A segment and where it leaves the request. -/
def Leads (socket : SocketId) (data : Option CustomTestCase) (s : Server) (g : Step) : Prop :=
  ∃ outcomes, AddsBy socket data s g.state g.out outcomes ∧ AddScript socket data outcomes g.next

theorem leads_dropped (data : Option CustomTestCase) (hlacks : s.Lacks socket) : Leads socket data s (.of s) :=
  ⟨[.dropped], ⟨rfl, rfl, hlacks⟩, .ended _⟩

theorem leads_rejected (s : Server) (socket : SocketId) (data : Option CustomTestCase) (message : JsString) :
    Leads socket data s (emitTestcaseError (.of s) socket message) :=
  ⟨[.rejected message], ⟨rfl, Delivers.toSocket (g := .of s) (delivers_nil s) rfl⟩, .ended _⟩

theorem handleTestcaseAdd_leads (s : Server) (socket : SocketId) (data : Option CustomTestCase) :
    Leads socket data s (handleTestcaseAdd s socket data) := by
  rcases handleTestcaseAdd_cases s socket data with ⟨hgone, heq⟩ | ⟨message, heq⟩ | ⟨testCase, p, ⟨hdata, -⟩, heq⟩
  · rw [heq]
    exact leads_dropped data (.inr (.inl hgone))
  · rw [heq]
    exact leads_rejected s socket data message
  · rw [heq]
    exact ⟨[], ⟨rfl, rfl⟩, .waiting testCase p hdata⟩

theorem afterAddingTestCase_leads {testCase : CustomTestCase} {p : ProblemId} (hdata : data = some testCase)
    (h : afterAddingTestCase s socket testCase p o = some g) : Leads socket data s g := by
  rcases afterAddingTestCase_stores h with ⟨message, -, rfl⟩ | ⟨-, rfl⟩
  · exact leads_rejected s socket data message
  · refine ⟨[.added ⟨testCase, p⟩], ⟨hdata, rfl, ?_⟩, .ended _⟩
    have hdelivers : Delivers s (Segment.of (s.addTestCase ⟨testCase, p⟩) : Step).out [] := delivers_nil s
    exact hdelivers.toRoom rfl

/-- The middleware has no objection to a request, only to its sender. -/
theorem authMiddleware_leads (s : Server) (socket : SocketId) (data : Option CustomTestCase) :
    Leads socket data s (authMiddleware s socket (.testcaseAdd data)) := by
  unfold authMiddleware
  dsimp only
  split
  · rename_i hgone
    exact leads_dropped data (.inr (.inl (registered_of_getRoom hgone)))
  · rename_i room hroom
    split
    · rename_i hnone
      refine leads_dropped data (.inr (.inr fun u hu hsocket => ?_))
      unfold Server.getRoom at hroom
      split_ifs at hroom
      obtain rfl := Option.some.inj hroom
      exact absurd (decide_eq_true hsocket) (List.find?_eq_none.mp hnone u hu)
    · rename_i user hfound
      have hpasses : eventRejection room user (.testcaseAdd data) = none := by
        unfold eventRejection modeRejection stateRejection
        cases room.mode <;> rfl
      rw [hpasses]
      exact ⟨[], ⟨rfl, rfl⟩, .admitted⟩

theorem add_event (h : (server cfg).fire s (.event (.receive socket (.testcaseAdd data))) = some g) :
    Leads socket data s g := by
  change handleEvent cfg s (.receive socket (.testcaseAdd data)) = some g at h
  rw [handleEvent] at h
  split_ifs at h
  obtain rfl := Option.some.inj h
  exact authMiddleware_leads s socket data

theorem add_task {outcomes : List AddOutcome} {task : Task} {ts : List Task}
    (hscript : AddScript socket data outcomes (task :: ts)) (h : (server cfg).fire s (.task task o) = some g) :
    outcomes = [] ∧ ts = [] ∧ Leads socket data s g := by
  cases hscript with
  | admitted =>
    refine ⟨rfl, rfl, ?_⟩
    change resumeTask cfg s (.admitted socket (.testcaseAdd data) none) o = some g at h
    cases o with
    | go =>
      obtain rfl := Option.some.inj h
      unfold runHandler
      dsimp only
      split_ifs with hlive
      · exact handleTestcaseAdd_leads s socket data
      · exact leads_dropped data (.inl hlive)
    | _ => cases h
  | waiting testCase p hdata => exact ⟨rfl, rfl, afterAddingTestCase_leads hdata h⟩

/-- Every segment of a request follows the script. -/
theorem add_follows {mode : RoomMode} {now : Time} {acts : List ServerAct} {d : ThreadedServerConf}
    (h : ReachesThreaded cfg mode now acts d out) {n : ℕ} (hn : n < d.shared.2)
    (hbegins : Machine.BeginsWith (.receive socket (.testcaseAdd data)) (threadTurns cfg mode now acts n)) :
    ∃ outcomes, List.Forall₂ (fun turn => AddsBy socket data turn.before.shared turn.after.shared turn.out)
        (threadTurns cfg mode now acts n) outcomes ∧
      AddScript socket data outcomes.flatten (tasksOf n d.pool) := by
  refine Machine.script_rule (P := fun _ _ => True) (fun e => e = .receive socket (.testcaseAdd data))
    (fun _ => AddScript socket data) ?_ ?_ ?_ (Machine.meets_true _ _) h hn hbegins rfl
  · exact fun _ _ _ _ hperm hscript => hscript.perm hperm
  · rintro turn e g others - rfl hby
    obtain ⟨outcomes, hadds, hscript⟩ := add_event hby.fire
    refine ⟨outcomes, ?_, hscript⟩
    rw [hby.shared, hby.out]
    exact hadds
  · rintro e past turn task o g others ts - hscript - hby
    obtain ⟨rfl, rfl, outcomes, hadds, hscript⟩ := add_task hscript hby.fire
    refine ⟨outcomes, ?_, hscript⟩
    rw [hby.shared, hby.out]
    exact hadds

/-! ## The list along a run -/

theorem addedTo_toSocket (g : Step) (message : JsString) (k : SocketId) (hout : addedTo k g.out = []) :
    addedTo k (emitTestcaseError g socket message).out = [] := by
  unfold emitTestcaseError
  rw [addedTo, messagesTo_toSocket, List.filterMap_append, List.filterMap_replicate, ← addedTo, hout]
  rfl

theorem fire_announced (h : (server cfg).fire s t = some g) (k : SocketId) : addedTo k g.out =
    (stores s t).elim [] fun stored => List.replicate (s.joined.count k) stored.toCustomTestCase := by
  by_cases hf : triggerFamily t = .testCase
  · cases t with
    | event e => cases hf
    | task task o =>
      change resumeTask cfg s task o = some g at h
      cases task with
      | admitted socket event seen =>
        cases o <;> cases h
        show addedTo k (runHandler cfg s socket seen event).out = []
        unfold runHandler
        split
        · rfl
        · cases event with
          | testcaseAdd data =>
            dsimp only
            rcases handleTestcaseAdd_cases s socket data with ⟨-, heq⟩ | ⟨message, heq⟩ | ⟨testCase, p, -, heq⟩
            · rw [heq]
              rfl
            · rw [heq]
              exact addedTo_toSocket (.of s) message k rfl
            · rw [heq]
              rfl
          | _ => cases hf
      | addingTestCase socket testCase p =>
        rcases afterAddingTestCase_stores h with ⟨message, hstores, rfl⟩ | ⟨hstores, rfl⟩
        · rw [hstores]
          exact addedTo_toSocket (.of s) message k rfl
        · rw [hstores, addedTo, messagesTo_toRoom, List.filterMap_append, List.filterMap_replicate]
          rfl
      | _ => cases hf
  · have hnone : stores s t = none := by
      unfold stores
      split
      · exact absurd rfl hf
      · rfl
    rw [hnone]
    exact addedTo_of_family h hf k

theorem capped_step (h : Capped past c.shared) (hby : (server cfg).StepBy c c' out t g rest) :
    Capped (past ++ [⟨c, t, c', out⟩]) c'.shared := by
  refine ⟨?_, ?_, forall_mem_concat h.announced ?_⟩
  · rw [hby.shared, fire_customTestCaseLimit hby.fire]
    cases hload : loads t with
    | some p =>
      obtain ⟨hintLimit, importsUsed, hroom⟩ := (fire_switched hby.fire hload).room
      rw [hroom]
      exact Nat.zero_le _
    | none =>
      rw [customTestCases_step hby.fire hload, List.length_append]
      cases hstores : stores c.shared t with
      | none => exact h.bound
      | some stored => exact stores_lt hstores
  · rw [storedSinceSwitch_concat, hby.shared]
    dsimp only
    cases hload : loads t with
    | some p =>
      obtain ⟨hintLimit, importsUsed, hroom⟩ := (fire_switched hby.fire hload).room
      rw [hroom]
      rfl
    | none => rw [customTestCases_step hby.fire hload, if_pos rfl, h.listed]
  · intro k
    dsimp only
    rw [hby.out]
    exact fire_announced hby.fire k

theorem heardInOrder (hannounced : ∀ turn ∈ past, Announced turn)
    (hattendance : ∀ turn ∈ past, Attendance turn.before.shared) : HeardInOrder past := by
  rintro k earlier later rfl hthere
  induction later using List.reverseRecOn with
  | nil =>
    rw [List.append_nil, List.flatMap_nil, List.append_nil]
  | append_singleton later turn ih =>
    have hlast : turn ∈ earlier ++ (later ++ [turn]) := by simp
    have hsub : ∀ turn' ∈ earlier ++ later, turn' ∈ earlier ++ (later ++ [turn]) := by
      intro turn' hm
      rw [← List.append_assoc]
      exact List.mem_append_left _ hm
    obtain ⟨hload, hin⟩ := hthere turn (by simp)
    have hone : turn.before.shared.joined.count k = 1 :=
      List.count_eq_one_of_mem (hattendance turn hlast).distinct hin
    have hbefore := ih (fun turn' hm => hannounced turn' (hsub turn' hm))
      (fun turn' hm => hattendance turn' (hsub turn' hm))
      (fun turn' hm => hthere turn' (List.mem_append_left _ hm))
    rw [← List.append_assoc, storedSinceSwitch_concat, if_pos hload, List.map_append, hbefore,
      List.flatMap_append, List.flatMap_singleton, List.append_assoc, hannounced turn hlast k, hone]
    cases stores turn.before.shared turn.trigger <;> rfl

/-- **The cap on custom test cases.** The list keeps within its limit and holds what the room was told since the
problem last changed, in order; every request is refused with one error to its sender, or becomes one entry and one
announcement, or is dropped with its sender or its room; until then it has no effect. -/
theorem custom_case_cap {mode : RoomMode} {now : Time} {acts : List ServerAct} {d : ThreadedServerConf}
    (h : ReachesThreaded cfg mode now acts d out) :
    Capped ((server cfg).history (initial cfg mode now) acts) d.shared.1 ∧
    HeardInOrder ((server cfg).history (initial cfg mode now) acts) ∧
    ∀ n < d.shared.2, ∀ socket data,
      Machine.BeginsWith (.receive socket (.testcaseAdd data)) (threadTurns cfg mode now acts n) →
      ∃ outcomes, List.Forall₂ (fun turn => AddsBy socket data turn.before.shared turn.after.shared turn.out)
          (threadTurns cfg mode now acts n) outcomes ∧
        ((outcomes.flatten = [] ∧ ∃ task, tasksOf n d.pool = [task]) ∨
          ∃ outcome, outcomes.flatten = [outcome] ∧ tasksOf n d.pool = []) := by
  have hreach : (server cfg).run (initial cfg mode now) acts = some (d.base, out) := h.reaches
  have hcapped : Capped ((server cfg).history (initial cfg mode now) acts) d.base.shared := by
    refine Machine.run_history_preserves (P := fun _ _ _ => True) (I := fun past c => Capped past c.shared)
      (fun _ _ _ _ _ _ _ hcapped _ hby => capped_step hcapped hby) ?_ (fun _ _ _ _ => trivial) hreach
    exact ⟨Nat.zero_le _, rfl, List.forall_mem_nil _⟩
  have hattendance : ∀ turn ∈ (server cfg).history (initial cfg mode now) acts, Attendance turn.before.shared := by
    refine (Machine.meets_iff_history hreach).mp (Machine.meets_of_invariant
      (I := fun c : ServerConf => Attendance c.shared) ?_ (attendance_initial mode now) acts)
    exact fun _ _ _ _ _ _ hattendance hby => hattendance.step hby
  refine ⟨hcapped, heardInOrder hcapped.announced hattendance, fun n hn socket data hbegins => ?_⟩
  obtain ⟨outcomes, hadds, hscript⟩ := add_follows h hn hbegins
  refine ⟨outcomes, hadds, ?_⟩
  generalize outcomes.flatten = all at hscript
  generalize tasksOf n d.pool = ts at hscript
  cases hscript with
  | admitted => exact .inl ⟨rfl, _, rfl⟩
  | waiting testCase p hdata => exact .inl ⟨rfl, _, rfl⟩
  | ended outcome => exact .inr ⟨outcome, rfl, rfl⟩

/-- The run that stores one test case. -/
theorem custom_case_cap_example : ∃ d out,
    ReachesThreaded plainConfig .collaboration 0 exampleAdd d out ∧ 3 < d.shared.2 ∧
    Machine.BeginsWith (.receive 0 (.testcaseAdd (some exampleCustomCase)))
      (threadTurns plainConfig .collaboration 0 exampleAdd 3) ∧
    Capped ((server plainConfig).history (initial plainConfig .collaboration 0) exampleAdd) d.shared.1 ∧
    HeardInOrder ((server plainConfig).history (initial plainConfig .collaboration 0) exampleAdd) ∧
    ∀ n < d.shared.2, ∀ socket data,
      Machine.BeginsWith (.receive socket (.testcaseAdd data)) (threadTurns plainConfig .collaboration 0 exampleAdd n) →
      ∃ outcomes, List.Forall₂ (fun turn => AddsBy socket data turn.before.shared turn.after.shared turn.out)
          (threadTurns plainConfig .collaboration 0 exampleAdd n) outcomes ∧
        ((outcomes.flatten = [] ∧ ∃ task, tasksOf n d.pool = [task]) ∨
          ∃ outcome, outcomes.flatten = [outcome] ∧ tasksOf n d.pool = []) := by
  obtain ⟨d, out, hreach, hn, hbegins⟩ : ∃ d out,
      ReachesThreaded plainConfig .collaboration 0 exampleAdd d out ∧ 3 < d.shared.2 ∧
      Machine.BeginsWith (.receive 0 (.testcaseAdd (some exampleCustomCase)))
        (threadTurns plainConfig .collaboration 0 exampleAdd 3) := ⟨_, _, rfl, by decide, by rfl⟩
  exact ⟨d, out, hreach, hn, hbegins, custom_case_cap hreach⟩

end CodeShare
