import CodeShare.Client.RoomReducer
import CodeShare.Server.ExecutionSteps
import CodeShare.Server.Messages

/-! # What an execution handler tells the clients

`Replies` lists the ways in which a segment of `code:run` or `code:submit` moves the flag and the count
of the room, each with the messages that every socket receives; `fire_replies` says that there are no
others.
-/

namespace CodeShare
open Tasks
set_option autoImplicit false

/-! ## Handlers that have been announced -/

/-- `execution:started` went out, and neither a result nor an error has followed it. -/
def Task.awaitsOutcome : Task → Bool
  | executionCases _ _ _ | executionRest _ _ _ _ | executionLimiter _ _ | executionReserve _ _
  | executionJudge0 _ _ _ => true
  | executionSettling _ _ failure => failure.isSome
  | _ => false

/-- The result or the error went out, and `finally` has not run yet. -/
def Task.answered : Task → Bool
  | executionSettling _ _ failure => failure.isNone
  | _ => false

theorem Task.holdsLock_eq (t : Task) : t.holdsLock = (t.awaitsOutcome || t.answered) := by
  cases t with
  | executionSettling x reserved failure => cases failure <;> rfl
  | _ => rfl

/-- How often a message to one socket reaches another. -/
def reaches (live : List SocketId) (socket k : SocketId) : ℕ :=
  if socket = k ∧ socket ∈ live then 1 else 0

/-- The socket that is told that its attempt is refused. -/
def refusesExecution (s : Server) : ServerTrigger → Option SocketId
  | .task (.executionIpLimiter x) .allowed => if s.room.canExecute = none then none else some x.socket
  | .task (.executionIpLimiter x) (.limited _) => some x.socket
  | _ => none

/-- The handler that ends, when it had reserved the quota. -/
def countsSubmission : ServerTrigger → Bool
  | .task (.executionSettling _ submissionReserved _) _ => submissionReserved
  | _ => false

/-- Flag and count. -/
def Server.countView (s : Server) : Bool × ℕ := (s.room.executionInProgress, s.room.submissionsUsed)

/-! ## The steps -/

inductive Replies (s : Server) (t : ServerTrigger) (g : Step) : Prop where
  | silent
      (hawaits : g.next.countP Task.awaitsOutcome = t.taken.countP Task.awaitsOutcome)
      (hanswered : g.next.countP Task.answered = 0 ∧ t.taken.countP Task.answered = 0)
      (hview : g.state.countView = s.countView)
      (hout : ∀ k, messagesTo k g.out = [])
  | refused (socket : SocketId) (errorType : ExecutionErrorType) (message : JsString)
      (hrefuses : refusesExecution s t = some socket)
      (htaken : t.taken.countP Task.holdsLock = 0)
      (hnext : g.next = [])
      (hview : g.state.countView = s.countView)
      (hout : ∀ k, messagesTo k g.out =
        List.replicate (reaches s.live socket k) (.executionError errorType message))
  | started (executionType : ExecutionType) (task : Task)
      (htaken : t.taken.countP Task.holdsLock = 0)
      (hfree : s.room.executionInProgress = false)
      (hnext : g.next = [task])
      (hawaits : task.awaitsOutcome = true)
      (hview : g.state.countView = (true, s.room.submissionsUsed))
      (hout : ∀ k, messagesTo k g.out =
        List.replicate (s.joined.count k) (.executionStarted executionType))
  | tooLong (executionType : ExecutionType) (task : Task) (errorType : ExecutionErrorType)
      (message : JsString)
      (htaken : t.taken.countP Task.holdsLock = 0)
      (hfree : s.room.executionInProgress = false)
      (hnext : g.next = [task])
      (hanswered : task.answered = true)
      (hview : g.state.countView = (true, s.room.submissionsUsed))
      (hout : ∀ k, messagesTo k g.out =
        List.replicate (s.joined.count k) (.executionStarted executionType) ++
          List.replicate (s.joined.count k) (.executionError errorType message))
  | replied (task task' : Task) (reply : ExecutionReply)
      (htaken : t.taken = [task])
      (hawaits : task.awaitsOutcome = true)
      (hnext : g.next = [task'])
      (hanswered : task'.answered = true)
      (hview : g.state.countView = s.countView)
      (hout : ∀ k, messagesTo k g.out = List.replicate (s.joined.count k) reply.message)
  | finished (x : Execution) (submissionReserved : Bool) (failure : Option Failure)
      (htaken : t.taken = [.executionSettling x submissionReserved failure])
      (hcounts : countsSubmission t = submissionReserved)
      (hnext : g.next = [])
      (hview : g.state.countView = (false, s.room.submissionsUsed + submissionReserved.toNat))
      (hout : ∀ k, messagesTo k g.out = failure.toList.flatMap fun reason =>
        List.replicate (s.joined.count k)
          (.executionError (executionFailureError reason).1 (executionFailureError reason).2))

variable {cfg : Config} {s : Server} {t : ServerTrigger} {o : Outcome} {g : Step} {x : Execution}

theorem createExecutionSession_replies (s : Server) (socket : SocketId) (type : ExecutionType)
    (hawaits : t.taken.countP Task.awaitsOutcome = 0) (hanswered : t.taken.countP Task.answered = 0) :
    Replies s t (createExecutionSession s socket type) := by
  unfold createExecutionSession
  split
  · exact .silent hawaits.symm ⟨rfl, hanswered⟩ rfl fun _ => rfl
  · split_ifs
    · exact .silent hawaits.symm ⟨rfl, hanswered⟩ rfl fun _ => rfl
    · exact .silent hawaits.symm ⟨rfl, hanswered⟩ rfl fun _ => rfl

theorem messagesTo_executionErrorToSocket (s : Server) (errorType : ExecutionErrorType)
    (message : JsString) (k : SocketId) :
    messagesTo k (executionErrorToSocket (.of s) x errorType message).out =
      List.replicate (reaches s.live x.socket k) (.executionError errorType message) :=
  messagesTo_toSocket (.of s)

theorem messagesTo_executionErrorToRoom (g : Step) (errorType : ExecutionErrorType)
    (message : JsString) (k : SocketId) :
    messagesTo k (executionErrorToRoom g errorType message).out = messagesTo k g.out ++
      List.replicate (g.state.joined.count k) (.executionError errorType message) :=
  messagesTo_toRoom g

theorem startExecution_replies {p : ProblemId} (hcan : s.room.canExecute = none)
    (htaken : t.taken.countP Task.holdsLock = 0) : Replies s t (startExecution cfg s x p) := by
  have hfree : s.room.executionInProgress = false := (Room.canExecute_eq_none hcan).2.1
  have hstarted : ∀ k, messagesTo k (((Segment.of s).modifyRoom fun room =>
      { room with executionInProgress := true }).toRoom (.executionStarted x.executionType)).out =
      List.replicate (s.joined.count k) (.executionStarted x.executionType) :=
    fun k => messagesTo_toRoom _
  unfold startExecution
  dsimp only
  split_ifs
  · exact .started x.executionType _ htaken hfree rfl rfl rfl hstarted
  · refine .tooLong x.executionType (.executionSettling x false none) .apiError
      (js "Code size limit exceeded (" ++ decimalUnits cfg.maxCodeBytes ++ js " bytes).")
      htaken hfree rfl rfl rfl fun k => ?_
    rw [settle, Segment.suspend_out, messagesTo_executionErrorToRoom, hstarted]
    rfl

theorem afterExecutionIpLimiter_replies (h : afterExecutionIpLimiter cfg s x o = some g) :
    Replies s (.task (.executionIpLimiter x) o) g := by
  unfold afterExecutionIpLimiter at h
  split at h
  · split at h <;> cases h
    · rename_i reason hcan
      refine .refused x.socket .roomLimit reason ?_ rfl rfl rfl (messagesTo_executionErrorToSocket s _ _)
      simp [refusesExecution, hcan]
    · rename_i p hcan hp
      exact startExecution_replies hcan rfl
  · cases h
    exact .refused x.socket .ipLimit _ rfl rfl rfl rfl (messagesTo_executionErrorToSocket s _ _)
  · cases h
    exact .silent rfl ⟨rfl, rfl⟩ rfl fun _ => rfl
  · cases h

theorem afterExecutionCases_replies {code : JsString} {p : ProblemId}
    (h : afterExecutionCases s x code p o = some g) :
    Replies s (.task (.executionCases x code p) o) g := by
  unfold afterExecutionCases at h
  split at h
  · split_ifs at h
    split at h <;> cases h <;> exact .silent rfl ⟨rfl, rfl⟩ rfl fun _ => rfl
  · cases h; exact .silent rfl ⟨rfl, rfl⟩ rfl fun _ => rfl
  · cases h

/-- An error that all are told of before `finally`. -/
theorem settle_replies {task : Task} (hawaits : task.awaitsOutcome = true)
    (errorType : ExecutionErrorType) (message : JsString) (reserved : Bool) :
    Replies s (.task task o)
      (settle (executionErrorToRoom (.of s) errorType message) x reserved none) :=
  .replied task _ (.error errorType message) rfl hawaits rfl rfl rfl fun k =>
    messagesTo_executionErrorToRoom (.of s) errorType message k

theorem afterExecutionRest_replies {code : JsString} {p : ProblemId} {cases : List TestCase}
    (h : afterExecutionRest cfg s x code p cases o = some g) :
    Replies s (.task (.executionRest x code p cases) o) g := by
  unfold afterExecutionRest at h
  split at h
  · split_ifs at h <;> cases h <;> exact .silent rfl ⟨rfl, rfl⟩ rfl fun _ => rfl
  · cases h; exact settle_replies rfl _ _ _
  · cases h; exact .silent rfl ⟨rfl, rfl⟩ rfl fun _ => rfl
  · cases h

theorem afterExecutionLimiter_replies {loaded : LoadedExecutionResources}
    (h : afterExecutionLimiter s x loaded o = some g) :
    Replies s (.task (.executionLimiter x loaded) o) g := by
  unfold afterExecutionLimiter at h
  split at h <;> cases h <;> exact .silent rfl ⟨rfl, rfl⟩ rfl fun _ => rfl

theorem afterExecutionReserve_replies {loaded : LoadedExecutionResources}
    (h : afterExecutionReserve s x loaded o = some g) :
    Replies s (.task (.executionReserve x loaded) o) g := by
  unfold afterExecutionReserve at h
  split at h <;> cases h
  · exact .silent rfl ⟨rfl, rfl⟩ rfl fun _ => rfl
  · exact settle_replies rfl _ _ _
  · exact .silent rfl ⟨rfl, rfl⟩ rfl fun _ => rfl

theorem afterExecutionJudge0_replies {loaded : LoadedExecutionResources} {nonce : JsString}
    (h : afterExecutionJudge0 cfg s x loaded nonce o = some g) :
    Replies s (.task (.executionJudge0 x loaded nonce) o) g := by
  unfold afterExecutionJudge0 at h
  split at h
  · split at h
    · cases h
      exact settle_replies rfl _ _ _
    · split at h <;> cases h
      · rename_i reply hreply
        exact .replied _ _ reply rfl rfl rfl rfl rfl fun k => messagesTo_toRoom (.of s)
      · exact .silent rfl ⟨rfl, rfl⟩ rfl fun _ => rfl
  · cases h; exact .silent rfl ⟨rfl, rfl⟩ rfl fun _ => rfl
  · cases h

theorem afterExecutionSettling_replies (s : Server) (x : Execution) (reserved : Bool)
    (failure : Option Failure) (o : Outcome) :
    Replies s (.task (.executionSettling x reserved failure) o)
      (afterExecutionSettling s x reserved failure) := by
  refine .finished x reserved failure rfl rfl ?_ ?_ fun k => ?_
  · cases failure <;> rfl
  · cases failure <;> cases reserved <;> rfl
  · cases failure with
    | none => rfl
    | some reason =>
      rw [Option.toList_some, List.flatMap_singleton]
      unfold afterExecutionSettling finishExecution
      dsimp only
      rw [messagesTo_emit _ _ rfl]
      exact messagesTo_executionErrorToRoom (.of s) _ _ k

/-- **Replies.** Every segment of an execution handler treats the clients in one of the ways listed. -/
theorem fire_replies (h : (server cfg).fire s t = some g) (hf : triggerFamily t = .execution) :
    Replies s t g := by
  cases t with
  | event e => cases hf
  | task t o =>
    change resumeTask cfg s t o = some g at h
    cases t with
    | admitted socket event seen =>
      cases o <;> cases h
      unfold runHandler
      split
      · exact .silent rfl ⟨rfl, rfl⟩ rfl fun _ => rfl
      · cases event with
        | codeRun => exact createExecutionSession_replies s socket .run rfl rfl
        | codeSubmit => exact createExecutionSession_replies s socket .submit rfl rfl
        | _ => cases hf
    | executionIpLimiter x => exact afterExecutionIpLimiter_replies h
    | executionCases x code p => exact afterExecutionCases_replies h
    | executionRest x code p cases => exact afterExecutionRest_replies h
    | executionLimiter x loaded => exact afterExecutionLimiter_replies h
    | executionReserve x loaded => exact afterExecutionReserve_replies h
    | executionJudge0 x loaded nonce => exact afterExecutionJudge0_replies h
    | executionSettling x reserved failure =>
      cases o <;> cases h
      exact afterExecutionSettling_replies s x reserved failure .go
    | _ => cases hf

/-- All of it concerns executions. -/
theorem Replies.isExecution (h : Replies s t g) (k : SocketId) :
    ∀ m ∈ messagesTo k g.out, m.isExecution = true := by
  cases h with
  | silent _ _ _ hout =>
    rw [hout k]
    exact List.forall_mem_nil _
  | refused _ _ _ _ _ _ _ hout =>
    rw [hout k]
    intro m hm
    rw [List.eq_of_mem_replicate hm]
    rfl
  | started _ _ _ _ _ _ _ hout =>
    rw [hout k]
    intro m hm
    rw [List.eq_of_mem_replicate hm]
    rfl
  | tooLong _ _ _ _ _ _ _ _ _ hout =>
    rw [hout k]
    refine List.forall_mem_append.mpr ⟨fun m hm => ?_, fun m hm => ?_⟩
    · rw [List.eq_of_mem_replicate hm]
      rfl
    · rw [List.eq_of_mem_replicate hm]
      rfl
  | replied _ _ reply _ _ _ _ _ hout =>
    rw [hout k]
    intro m hm
    rw [List.eq_of_mem_replicate hm]
    cases reply <;> rfl
  | finished _ _ failure _ _ _ _ hout =>
    rw [hout k]
    intro m hm
    obtain ⟨reason, -, hm⟩ := List.mem_flatMap.mp hm
    rw [List.eq_of_mem_replicate hm]
    rfl

end CodeShare
