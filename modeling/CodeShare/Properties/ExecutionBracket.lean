import CodeShare.Properties.ExecutionLock
import CodeShare.Properties.ResultProtocol
import CodeShare.Server.Emissions

/-! # The messages of an execution

A handler of `code:run` or `code:submit` tells its sender at most one error, or it tells the room that it has
started and, before it ends, one result or one error.
-/

namespace CodeShare
open Tasks
set_option autoImplicit false

/-! ## The script -/

def ClientEvent.isExecution : ClientEvent → Bool
  | codeRun | codeSubmit => true
  | _ => false

/-- An error for the sender alone. -/
def Message.isRefusal : Message → Bool
  | executionError _ _ | eventRejected _ _ _ => true
  | _ => false

/-- What a handler of the socket has said, with the task in which it waits. -/
inductive ExecutionScript (socket : SocketId) : List Emission → List Task → Prop where
  | admitted {event : ClientEvent} {seen : Option SeenRequest} (hevent : event.isExecution = true) :
      ExecutionScript socket [] [.admitted socket event seen]
  | limiting {x : Execution} (hx : x.socket = socket) : ExecutionScript socket [] [.executionIpLimiter x]
  | unannounced : ExecutionScript socket [] []
  | refused {message : Message} (hmessage : message.isRefusal = true) :
      ExecutionScript socket [.toSocket socket message] []
  | started {executionType : ExecutionType} {task : Task} (htask : task.awaitsOutcome = true) :
      ExecutionScript socket [.toRoom (.executionStarted executionType)] [task]
  | answered {executionType : ExecutionType} (reply : ExecutionReply) {ts : List Task}
      (hts : ts = [] ∨ ∃ task, ts = [task] ∧ task.answered = true) :
      ExecutionScript socket [.toRoom (.executionStarted executionType), .toRoom reply.message] ts

namespace ExecutionScript
variable {socket : SocketId} {said : List Emission} {ts ts' : List Task}

theorem length_le (h : ExecutionScript socket said ts) : ts.length ≤ 1 := by
  cases h with
  | answered reply hts => rcases hts with rfl | ⟨task, rfl, -⟩ <;> simp
  | _ => simp

theorem perm (hperm : ts.Perm ts') (h : ExecutionScript socket said ts) : ExecutionScript socket said ts' := by
  rw [← Machine.eq_of_perm_short h.length_le hperm]
  exact h

end ExecutionScript

variable {cfg : Config} {s : Server} {g : Step} {o : Outcome} {socket : SocketId} {said : List Emission}

/-! ## The segments -/

theorem createExecutionSession_script (s : Server) (socket : SocketId) (type : ExecutionType) :
    Delivers s (createExecutionSession s socket type).out [] ∧
      ExecutionScript socket [] (createExecutionSession s socket type).next := by
  unfold createExecutionSession
  split
  · exact ⟨delivers_nil s, .unannounced⟩
  · split_ifs
    · exact ⟨delivers_nil s, .unannounced⟩
    · exact ⟨delivers_nil s, .limiting rfl⟩

theorem afterExecutionIpLimiter_script {x : Execution} (h : afterExecutionIpLimiter cfg s x o = some g) :
    ∃ more, Delivers s g.out more ∧ ExecutionScript x.socket more g.next := by
  have hrefused : ∀ errorType message, Delivers s (executionErrorToSocket (.of s) x errorType message).out
      [.toSocket x.socket (.executionError errorType message)] := fun errorType message =>
    Delivers.toSocket (g := .of s) (delivers_nil s) rfl
  unfold afterExecutionIpLimiter at h
  split at h
  · split at h
    · obtain rfl := Option.some.inj h
      exact ⟨_, hrefused _ _, .refused rfl⟩
    · obtain rfl := Option.some.inj h
      have hstarted : Delivers s (((Segment.of s).modifyRoom fun room =>
          { room with executionInProgress := true }).toRoom (.executionStarted x.executionType)).out
            [.toRoom (.executionStarted x.executionType)] :=
        Delivers.toRoom (g := (Segment.of s).modifyRoom _) (delivers_nil s) rfl
      unfold startExecution
      dsimp only
      split_ifs
      · exact ⟨_, hstarted, .started rfl⟩
      · exact ⟨_, hstarted.toRoom rfl, .answered (.error _ _) (.inr ⟨_, rfl, rfl⟩)⟩
    · cases h
  · obtain rfl := Option.some.inj h
    exact ⟨_, hrefused _ _, .refused rfl⟩
  · obtain rfl := Option.some.inj h
    exact ⟨[], fun _ => rfl, .unannounced⟩
  · cases h

theorem delivers_of_replicate {out : List Effect} {message : Message}
    (h : ∀ k, messagesTo k out = List.replicate (s.joined.count k) message) :
    Delivers s out [.toRoom message] := by
  intro k
  rw [List.flatMap_singleton]
  exact h k

/-- What an announced execution says next. -/
theorem awaiting_script {task : Task} {type : ExecutionType} (htask : task.awaitsOutcome = true)
    (h : (server cfg).fire s (.task task o) = some g) : ∃ more, Delivers s g.out more ∧
      ExecutionScript socket (.toRoom (.executionStarted type) :: more) g.next := by
  have hholds : task.holdsLock = true := by
    rw [Task.holdsLock_eq, htask, Bool.true_or]
  have hheld : (Trigger.task task o : ServerTrigger).taken.countP Task.holdsLock ≠ 0 := by
    simp [Trigger.taken, hholds]
  have hfamily : triggerFamily (.task task o) = .execution := by
    have hf := Task.family_of_execution (Task.execution_of_holdsLock hholds)
    cases task <;> first | exact hf | cases hholds
  cases fire_replies h hfamily with
  | silent hawaits hanswered hview hout =>
    -- the lock goes on to one task, which then awaits the outcome
    have hcount : g.next.countP Task.awaitsOutcome = 1 := by
      rw [hawaits, Trigger.taken, List.countP_singleton, if_pos htask]
    refine ⟨[], hout, ?_⟩
    have hnext : ∃ task', g.next = [task'] := by
      cases fire_lock h with
      | apart htaken => exact absurd hholds (Bool.eq_false_iff.mp (htaken task (List.mem_singleton_self _)))
      | opened x htaken hx hnext => exact ⟨_, hnext⟩
      | locked x task' htaken hcan hnext => exact ⟨_, hnext⟩
      | moved task task' htaken hnext => exact ⟨_, hnext⟩
      | reserved x loaded nonce htaken hnext => exact ⟨_, hnext⟩
      | finished x submissionReserved failure htaken hnext =>
        rw [hnext] at hcount
        cases hcount
    obtain ⟨task', hnext⟩ := hnext
    rw [hnext, List.countP_singleton] at hcount
    rw [hnext]
    exact .started (by by_contra hnot; rw [if_neg hnot] at hcount; cases hcount)
  | refused _ _ _ _ htaken => exact absurd htaken hheld
  | started _ _ htaken => exact absurd htaken hheld
  | tooLong _ _ _ _ htaken => exact absurd htaken hheld
  | replied _ task' reply _ _ hnext hanswered hview hout =>
    refine ⟨_, delivers_of_replicate hout, ?_⟩
    rw [hnext]
    exact .answered reply (.inr ⟨_, rfl, hanswered⟩)
  | finished x reserved failure htaken hcounts hnext hview hout =>
    obtain rfl : task = _ := (List.cons.inj htaken).1
    cases failure with
    | none => cases htask
    | some reason =>
      have hdelivers := delivers_of_replicate fun k => (hout k).trans (List.flatMap_singleton _ _)
      refine ⟨_, hdelivers, ?_⟩
      rw [hnext]
      exact .answered (.error _ _) (.inl rfl)

/-- Behind its reply an execution says nothing. -/
theorem answered_script {task : Task} (htask : task.answered = true)
    (h : (server cfg).fire s (.task task o) = some g) : Delivers s g.out [] ∧ g.next = [] := by
  cases task with
  | executionSettling x reserved failure =>
    cases failure with
    | some reason => cases htask
    | none =>
      change resumeTask cfg s (.executionSettling x reserved none) o = some g at h
      cases o <;> cases h
      exact ⟨fun _ => rfl, rfl⟩
  | _ => cases htask

/-- The middleware drops the event, refuses it or lets it pass. -/
theorem authMiddleware_script {event : ClientEvent} (hevent : event.isExecution = true) :
    ∃ said, Delivers s (authMiddleware s socket event).out said ∧
      ExecutionScript socket said (authMiddleware s socket event).next := by
  unfold authMiddleware
  split
  · cases hevent
  · split
    · exact ⟨[], delivers_nil s, .unannounced⟩
    · split
      · exact ⟨[], delivers_nil s, .unannounced⟩
      · split
        · exact ⟨_, Delivers.toSocket (g := .of s) (delivers_nil s) rfl, .refused rfl⟩
        · exact ⟨[], delivers_nil s, .admitted hevent⟩

theorem runHandler_script {event : ClientEvent} {seen : Option SeenRequest} (hevent : event.isExecution = true) :
    Delivers s (runHandler cfg s socket seen event).out [] ∧
      ExecutionScript socket [] (runHandler cfg s socket seen event).next := by
  unfold runHandler
  cases event with
  | codeRun =>
    dsimp only
    split_ifs
    · exact createExecutionSession_script s socket .run
    · exact ⟨delivers_nil s, .unannounced⟩
  | codeSubmit =>
    dsimp only
    split_ifs
    · exact createExecutionSession_script s socket .submit
    · exact ⟨delivers_nil s, .unannounced⟩
  | _ => cases hevent

/-! ## The bracket -/

theorem executionScript_event {event : ClientEvent} (hevent : event.isExecution = true)
    (h : (server cfg).fire s (.event (.receive socket event)) = some g) :
    ∃ said, Delivers s g.out said ∧ ExecutionScript socket said g.next := by
  change handleEvent cfg s (.receive socket event) = some g at h
  rw [handleEvent] at h
  split_ifs at h
  obtain rfl := Option.some.inj h
  exact authMiddleware_script hevent

theorem executionScript_task {task : Task} {ts : List Task} (hscript : ExecutionScript socket said (task :: ts))
    (h : (server cfg).fire s (.task task o) = some g) :
    ∃ more, Delivers s g.out more ∧ ExecutionScript socket (said ++ more) (ts ++ g.next) := by
  obtain rfl : ts = [] := by
    have hlength := hscript.length_le
    exact List.eq_nil_of_length_eq_zero (Nat.le_zero.mp (Nat.le_of_succ_le_succ hlength))
  rw [List.nil_append]
  cases hscript with
  | admitted hevent =>
    change resumeTask cfg s (.admitted socket _ _) o = some g at h
    cases o with
    | go =>
      obtain rfl := Option.some.inj h
      exact ⟨[], runHandler_script hevent⟩
    | _ => cases h
  | limiting hx =>
    subst hx
    exact afterExecutionIpLimiter_script h
  | started htask => exact awaiting_script htask h
  | answered reply hts =>
    obtain ⟨task', htask, hanswered⟩ := hts.resolve_left (List.cons_ne_nil _ _)
    obtain ⟨rfl, -⟩ := List.cons.inj htask
    obtain ⟨hdelivers, hnext⟩ := answered_script hanswered h
    refine ⟨[], hdelivers, ?_⟩
    rw [hnext]
    exact .answered reply (.inl rfl)

/-- Every segment of a handler follows the script. -/
theorem execution_follows {mode : RoomMode} {now : Time} {acts : List ServerAct} {d : ThreadedServerConf}
    {out : List Effect} (h : ReachesThreaded cfg mode now acts d out) {k : ℕ} (hk : k < d.shared.2)
    {event : ClientEvent} (hevent : event.isExecution = true)
    (hbegins : Machine.BeginsWith (.receive socket event) (threadTurns cfg mode now acts k)) :
    ∃ said, List.Forall₂ Says (threadTurns cfg mode now acts k) said ∧
      ExecutionScript socket said.flatten (tasksOf k d.pool) := by
  refine Machine.script_rule (P := fun _ _ => True) (fun e => e = .receive socket event)
    (fun _ => ExecutionScript socket) ?_ ?_ ?_ (Machine.meets_true _ _) h hk hbegins rfl
  · exact fun _ _ _ _ hperm hscript => hscript.perm hperm
  · rintro turn e g others - rfl hby
    obtain ⟨said, hdelivers, hscript⟩ := executionScript_event hevent hby.fire
    refine ⟨said, ?_, hscript⟩
    rw [Says, hby.out]
    exact hdelivers
  · rintro e said turn task o g others ts - hscript - hby
    obtain ⟨more, hdelivers, hscript⟩ := executionScript_task hscript hby.fire
    refine ⟨more, ?_, hscript⟩
    rw [Says, hby.out]
    exact hdelivers

/-- What the handler of an execution says, to the end or so far: nothing; one error, to its sender; or the start
and then one result or error, both to the room. -/
theorem execution_bracket {mode : RoomMode} {now : Time} {acts : List ServerAct} {d : ThreadedServerConf}
    {out : List Effect} (h : ReachesThreaded cfg mode now acts d out) {k : ℕ} (hk : k < d.shared.2)
    {event : ClientEvent} (hevent : event = .codeRun ∨ event = .codeSubmit)
    (hbegins : Machine.BeginsWith (.receive socket event) (threadTurns cfg mode now acts k)) :
    ∃ said, List.Forall₂ Says (threadTurns cfg mode now acts k) said ∧
      (said.flatten = [] ∨
        (∃ message : Message, message.isRefusal = true ∧ said.flatten = [.toSocket socket message]) ∨
        (∃ executionType, said.flatten = [.toRoom (.executionStarted executionType)] ∧ tasksOf k d.pool ≠ []) ∨
        ∃ executionType, ∃ reply : ExecutionReply,
          said.flatten = [.toRoom (.executionStarted executionType), .toRoom reply.message]) := by
  have hexecution : event.isExecution = true := by
    rcases hevent with rfl | rfl <;> rfl
  obtain ⟨said, hsays, hscript⟩ := execution_follows h hk hexecution hbegins
  refine ⟨said, hsays, ?_⟩
  generalize said.flatten = all at hscript
  generalize tasksOf k d.pool = ts at hscript
  cases hscript with
  | admitted => exact .inl rfl
  | limiting => exact .inl rfl
  | unannounced => exact .inl rfl
  | refused hmessage => exact .inr (.inl ⟨_, hmessage, rfl⟩)
  | started => exact .inr (.inr (.inl ⟨_, rfl, List.cons_ne_nil _ _⟩))
  | answered reply => exact .inr (.inr (.inr ⟨_, reply, rfl⟩))

/-- The grading, with a `JSON.parse` that is never called. -/
def gradedConfig : Config := plainConfig.withGrading fun _ => none

/-- A run that Judge0 has been given. -/
def exampleSubmitted : List ServerAct :=
  exampleJoin 0 .go ++ exampleSelect 0 7 ++
    [.event (.receive 0 .codeRun), .resume 0 .go, .resume 0 .allowed, .resume 0 (.cases []),
      .resume 0 (.resources (some (exampleBoilerplate 7)) (some (exampleProblem 7))),
      .resume 0 (.granted (js "n"))]

/-- Its script has printed nothing, which the room is told. -/
theorem execution_bracket_example : ∃ d out,
    ReachesThreaded gradedConfig .collaboration 0 (exampleSubmitted ++ [.resume 0 (.response ⟨none, none, 3⟩)])
      d out ∧
    .deliver 0 (.executionError .parseError (js "Could not parse execution results.")) ∈ out ∧
    ∃ said, List.Forall₂ Says (threadTurns gradedConfig .collaboration 0
        (exampleSubmitted ++ [.resume 0 (.response ⟨none, none, 3⟩)]) 3) said ∧
      (said.flatten = [] ∨
        (∃ message : Message, message.isRefusal = true ∧ said.flatten = [.toSocket 0 message]) ∨
        (∃ executionType, said.flatten = [.toRoom (.executionStarted executionType)] ∧ tasksOf 3 d.pool ≠ []) ∨
        ∃ executionType, ∃ reply : ExecutionReply,
          said.flatten = [.toRoom (.executionStarted executionType), .toRoom reply.message]) := by
  obtain ⟨d₁, out₁, x, loaded, origin, hbefore, hpool, hjoined, hnumber⟩ :
      ∃ d₁ out₁ x loaded origin, ReachesThreaded gradedConfig .collaboration 0 exampleSubmitted d₁ out₁ ∧
      d₁.pool = [(.executionJudge0 x loaded (js "n"), origin)] ∧ d₁.shared.1.joined = [0] ∧ 3 < d₁.shared.2 :=
    ⟨_, _, _, _, _, rfl, rfl, rfl, by decide⟩
  have hbegins : Machine.BeginsWith (.receive 0 .codeRun)
      (threadTurns gradedConfig .collaboration 0 exampleSubmitted 3) := rfl
  obtain ⟨g, hfire, hdelivered⟩ : ∃ g, (server gradedConfig).fire d₁.shared.1
        (.task (.executionJudge0 x loaded (js "n")) (.response ⟨none, none, 3⟩)) = some g ∧
      .deliver 0 (.executionError .parseError (js "Could not parse execution results.")) ∈ g.out := by
    have hreply : gradedConfig.acceptedReply x.executionType [] (js "n") loaded.testCases = _ :=
      handleAccepted_unmarked _ (unmarked_nil _) _ _
    refine ⟨settle ((Segment.of d₁.shared.1).toRoom
      (ExecutionReply.error .parseError (js "Could not parse execution results.")).message) x true none, ?_, ?_⟩
    · change afterExecutionJudge0 gradedConfig d₁.shared.1 x loaded (js "n") (.response ⟨none, none, 3⟩) = _
      unfold afterExecutionJudge0
      dsimp only [judge0StatusError, Option.getD]
      rw [hreply]
      rfl
    · refine List.mem_append_right _ (List.mem_map_of_mem ?_)
      change 0 ∈ d₁.shared.1.joined
      rw [hjoined]
      exact List.mem_singleton_self 0
  have htrigger : Machine.trigger d₁ (.resume 0 (Outcome.response ⟨none, none, 3⟩) : ServerAct) =
      some (.task (.executionJudge0 x loaded (js "n"), origin) (.response ⟨none, none, 3⟩)) := by
    rw [Machine.trigger, hpool]
    rfl
  have hlast := Machine.step_eq htrigger ((Machine.threaded_fire _ _).trans (congrArg (Option.map _) hfire))
  have hrun := Machine.run_join hbefore (Machine.run_single hlast)
  refine ⟨_, _, hrun, List.mem_append_right _ hdelivered, execution_bracket hrun hnumber (.inl rfl) ?_⟩
  rw [threadTurns, Machine.history_append hbefore]
  exact hbegins.later

end CodeShare
