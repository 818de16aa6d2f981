import CodeShare.Server.System

/-! # Where a promise is rejected

Handlers are registered without anybody waiting for them, so what they do not catch is an unhandled
rejection. `fire_settles` finds the awaits at which that can happen.
-/

namespace CodeShare
open Tasks
set_option autoImplicit false

/-- No promise of the segment is rejected. -/
def Settles (g : Step) : Prop := Effect.unhandledRejection ∉ g.out

/-- A rejection of what the handler waits for is not caught. -/
def Task.unguarded : Task → Bool
  | joinLimiter _ _ | executionIpLimiter _ | importIpLimiter _ _ | importQuota _ _ => true
  | _ => false

/-- The segment that leaves a promise rejected. -/
def strands : ServerTrigger → Bool
  | .task task (.failed _) => task.unguarded
  | _ => false

/-! ## Ways of writing -/

section
variable {g : Step} {s : Server} {socket : SocketId} {m : Message} {e : Effect} {t : Task}
  {f : Server → Server} {r : Room → Room}

@[simp] theorem settles_of : Settles (.of s) := List.not_mem_nil

@[simp] theorem settles_modify : Settles (g.modify f) ↔ Settles g := Iff.rfl

@[simp] theorem settles_modifyRoom : Settles (g.modifyRoom r) ↔ Settles g := Iff.rfl

@[simp] theorem settles_suspend : Settles (g.suspend t) ↔ Settles g := Iff.rfl

@[simp] theorem settles_emit : Settles (g.emit e) ↔ Settles g ∧ e ≠ .unhandledRejection := by
  unfold Settles
  rw [Segment.emit_out, List.mem_append, List.mem_singleton, not_or, ne_comm]

theorem settles_emits {w : Server → List Effect} (h : ∀ s, Effect.unhandledRejection ∉ w s) :
    Settles (g.emits w) ↔ Settles g := by
  unfold Settles
  rw [Segment.emits_out, List.mem_append, not_or]
  exact and_iff_left (h g.state)

theorem not_mem_deliveries (sockets : List SocketId) (m : Message) :
    Effect.unhandledRejection ∉ sockets.map (.deliver · m) := by
  intro hm
  obtain ⟨socket, -, heq⟩ := List.mem_map.mp hm
  cases heq

@[simp] theorem settles_toSocket : Settles (g.toSocket socket m) ↔ Settles g := by
  refine settles_emits fun s => ?_
  split_ifs
  · exact fun hm => by cases List.mem_singleton.mp hm
  · exact List.not_mem_nil

@[simp] theorem settles_toRoom : Settles (g.toRoom m) ↔ Settles g :=
  settles_emits fun s => not_mem_deliveries s.joined m

@[simp] theorem settles_toOthers : Settles (g.toOthers socket m) ↔ Settles g :=
  settles_emits fun s => not_mem_deliveries (s.joined.filter (· ≠ socket)) m

@[simp] theorem settles_syncRoom : Settles g.syncRoom ↔ Settles g :=
  settles_emits fun s => not_mem_deliveries s.joined (.roomSync s.room.toSyncPayload)

end

/-! ## Hints -/

section
variable {cfg : Config} {g : Step} {s : Server} {socket : SocketId} {d : Delivery} {o : Outcome}

@[simp] theorem settles_rejectHintRequest {message : JsString} :
    Settles (rejectHintRequest g socket message) ↔ Settles g := settles_toSocket

@[simp] theorem settles_clearPendingHintRequest : Settles (clearPendingHintRequest g) ↔ Settles g :=
  settles_syncRoom

theorem denyPendingHintRequest_settles (h : Settles g) (request : PendingRequest) :
    Settles (denyPendingHintRequest g request) := by
  unfold denyPendingHintRequest
  dsimp only
  split <;> simp [h]

theorem handleHintRequest_settles (cfg : Config) (s : Server) (socket : SocketId) :
    Settles (handleHintRequest cfg s socket) := by
  unfold handleHintRequest
  split
  · simp
  · split_ifs
    · simp [deliverHint]
    · unfold sendPendingHintRequest
      split
      · simp
      · dsimp only
        split
        · simp
        · split <;> simp

theorem handleHintApprove_settles (s : Server) (socket : SocketId) (seen : Option SeenRequest) :
    Settles (handleHintApprove s socket seen) := by
  unfold handleHintApprove
  split <;> simp [deliverHint]

theorem handleHintDeny_settles (s : Server) : Settles (handleHintDeny s) := by
  unfold handleHintDeny
  split
  · simp
  · exact denyPendingHintRequest_settles settles_of _

theorem afterHintFailure_settles (s : Server) (d : Delivery) (reason : Failure) :
    Settles (afterHintFailure s d reason) := by
  cases reason <;> simp [afterHintFailure]

theorem failHintStream_settles (s : Server) (d : Delivery) (reason : Failure) :
    Settles (failHintStream s d reason) := by
  simp [failHintStream, endHintStream]

theorem afterStoredHint_settles : ∀ g ∈ afterStoredHint cfg s d o, Settles g := by
  unfold afterStoredHint
  split
  · split_ifs
    · simp [deliverStoredHint, emitHintDelivered]
    · simp
  · unfold prepareLLMHintRequest
    split_ifs <;> simp
  · simp [afterHintFailure_settles]
  · simp

theorem afterHintIpLimiter_settles : ∀ g ∈ afterHintIpLimiter s d o, Settles g := by
  unfold afterHintIpLimiter
  split <;> simp

theorem afterHintQuota_settles : ∀ g ∈ afterHintQuota cfg s d o, Settles g := by
  unfold afterHintQuota
  split
  · split_ifs
    · simp
    · split <;> simp
  · simp
  · simp
  · simp

theorem afterHintProblem_settles {problemId : ProblemId} :
    ∀ g ∈ afterHintProblem cfg s d problemId o, Settles g := by
  unfold afterHintProblem
  split
  · split_ifs <;> simp
  · simp
  · simp
  · simp

theorem afterHintLimiter_settles {prompt : HintPrompt} :
    ∀ g ∈ afterHintLimiter s d prompt o, Settles g := by
  unfold afterHintLimiter
  split <;> simp

theorem afterHintReserve_settles {prompt : HintPrompt} :
    ∀ g ∈ afterHintReserve s d prompt o, Settles g := by
  unfold afterHintReserve
  split <;> simp

theorem afterHintStream_settles {prompt : HintPrompt} {generated : JsString} {closing : Bool} :
    ∀ g ∈ afterHintStream cfg s d prompt generated closing o, Settles g := by
  unfold afterHintStream
  split
  · split_ifs <;> simp
  · unfold finishHintStream
    split <;> simp [failHintStream_settles, endHintStream, emitHintDelivered]
  · simp [failHintStream_settles]
  · simp

end

/-! ## Rooms -/

section
variable {cfg : Config} {g : Step} {s : Server} {socket : SocketId} {o : Outcome}

theorem handleDisconnect_settles (h : Settles g) (socket : SocketId) :
    Settles (handleDisconnect g socket) := by
  unfold handleDisconnect
  split_ifs
  · exact h
  · split <;> simp [h]

theorem handleRequesterDisconnect_settles (h : Settles g) : Settles (handleRequesterDisconnect g) := by
  unfold handleRequesterDisconnect
  split
  · exact h
  · split
    · exact h
    · split_ifs <;> simp [h]

theorem disconnectSocket_settles (h : Settles g) (socket : SocketId) :
    Settles (disconnectSocket g socket) := by
  unfold disconnectSocket
  split_ifs
  · dsimp only
    split_ifs
    · exact handleRequesterDisconnect_settles (handleDisconnect_settles (settles_modify.mpr h) socket)
    · exact handleDisconnect_settles (settles_modify.mpr h) socket
  · exact h

theorem handleTimeout_settles (s : Server) (timer : Timer) : Settles (handleTimeout s timer) := by
  unfold handleTimeout
  dsimp only
  split
  · unfold handleGraceTimeout removeDisconnectedUser
    split
    · simp
    · dsimp only
      split_ifs <;> simp
  · unfold handleConsentTimeout
    dsimp only
    split
    · simp
    · exact denyPendingHintRequest_settles settles_of _

@[simp] theorem settles_emitJoinRejected {reason : JsString} {retryAfterSeconds : Option ℕ} :
    Settles (emitJoinRejected g socket reason retryAfterSeconds) ↔ Settles g := settles_toSocket

theorem emitJoinedPayload_settles (h : Settles g) (socket : SocketId) (user : RoomUserInternal)
    (announced : Option RoomUser) : Settles (emitJoinedPayload g socket user announced) := by
  simp [emitJoinedPayload, h]

theorem handleUserJoin_settles (s : Server) (socket : SocketId) (payload : Option UserJoinPayload) :
    Settles (handleUserJoin s socket payload) := by
  unfold handleUserJoin
  split
  · simp
  · split
    · simp
    · split
      · exact emitJoinedPayload_settles settles_of _ _ _
      · simp

theorem takeSeat_settles (s : Server) (socket : SocketId) (payload : UserJoinPayload) :
    Settles (takeSeat s socket payload) := by
  unfold takeSeat
  split
  · exact emitJoinedPayload_settles settles_of _ _ _
  · split_ifs
    · exact disconnectSocket_settles (settles_toSocket.mpr settles_of) socket
    · exact emitJoinedPayload_settles settles_of _ _ _

theorem afterJoinLimiter_settles_iff {payload : UserJoinPayload} :
    ∀ g ∈ afterJoinLimiter s socket payload o,
      (Settles g ↔ strands (.task (.joinLimiter socket payload) o) = false) := by
  unfold afterJoinLimiter
  split
  · simp [strands, takeSeat_settles]
  · simp [strands]
  · simp [strands, Task.unguarded]
  · simp

theorem emitPresenceBroadcast_settles (h : Settles g) (socket : SocketId)
    (announced : Option RoomUser) : Settles (emitPresenceBroadcast g socket announced) := by
  cases announced with
  | none => exact h
  | some user => exact settles_toOthers.mpr h

theorem afterHydration_settles {p : Option ProblemId} {announced : Option RoomUser} :
    ∀ g ∈ afterHydration cfg s socket p announced o, Settles g := by
  unfold afterHydration
  split
  · split_ifs <;> simp [emitPresenceBroadcast_settles]
  · split_ifs <;> simp [emitPresenceBroadcast_settles]
  · split_ifs <;> simp [emitPresenceBroadcast_settles]
  · split_ifs <;> simp [emitPresenceBroadcast_settles]
  · simp

end

/-! ## Executions -/

section
variable {cfg : Config} {g : Step} {s : Server} {x : Execution} {o : Outcome}

@[simp] theorem settles_executionErrorToSocket {errorType : ExecutionErrorType} {message : JsString} :
    Settles (executionErrorToSocket g x errorType message) ↔ Settles g := settles_toSocket

@[simp] theorem settles_executionErrorToRoom {errorType : ExecutionErrorType} {message : JsString} :
    Settles (executionErrorToRoom g errorType message) ↔ Settles g := settles_toRoom

@[simp] theorem settles_settle {reserved : Bool} {failure : Option Failure} :
    Settles (settle g x reserved failure) ↔ Settles g := settles_suspend

theorem createExecutionSession_settles (s : Server) (socket : SocketId) (t : ExecutionType) :
    Settles (createExecutionSession s socket t) := by
  unfold createExecutionSession
  split
  · simp
  · split_ifs <;> simp

theorem afterExecutionCases_settles {code : JsString} {problemId : ProblemId} :
    ∀ g ∈ afterExecutionCases s x code problemId o, Settles g := by
  unfold afterExecutionCases
  split
  · split_ifs
    · split <;> simp
    · simp
  · simp
  · simp

theorem afterExecutionRest_settles {code : JsString} {problemId : ProblemId}
    {testCases : List TestCase} :
    ∀ g ∈ afterExecutionRest cfg s x code problemId testCases o, Settles g := by
  unfold afterExecutionRest
  split
  · split_ifs <;> simp
  · simp
  · simp
  · simp

theorem afterExecutionLimiter_settles {loaded : LoadedExecutionResources} :
    ∀ g ∈ afterExecutionLimiter s x loaded o, Settles g := by
  unfold afterExecutionLimiter
  split <;> simp

theorem afterExecutionReserve_settles {loaded : LoadedExecutionResources} :
    ∀ g ∈ afterExecutionReserve s x loaded o, Settles g := by
  unfold afterExecutionReserve
  split <;> simp

theorem afterExecutionJudge0_settles {loaded : LoadedExecutionResources} {nonce : JsString} :
    ∀ g ∈ afterExecutionJudge0 cfg s x loaded nonce o, Settles g := by
  unfold afterExecutionJudge0
  split
  · split
    · simp
    · split <;> simp
  · simp
  · simp

theorem startExecution_settles (cfg : Config) (s : Server) (x : Execution) (problemId : ProblemId) :
    Settles (startExecution cfg s x problemId) := by
  unfold startExecution
  dsimp only
  split_ifs <;> simp

theorem afterExecutionIpLimiter_settles_iff :
    ∀ g ∈ afterExecutionIpLimiter cfg s x o,
      (Settles g ↔ strands (.task (.executionIpLimiter x) o) = false) := by
  unfold afterExecutionIpLimiter
  split
  · split <;> simp [strands, startExecution_settles]
  · simp [strands]
  · simp [strands, Task.unguarded]
  · simp

theorem afterExecutionSettling_settles (s : Server) (x : Execution) (reserved : Bool)
    (failure : Option Failure) : Settles (afterExecutionSettling s x reserved failure) := by
  unfold afterExecutionSettling finishExecution
  cases failure <;> simp

end

/-! ## Problems -/

section
variable {cfg : Config} {g : Step} {s : Server} {socket : SocketId} {o : Outcome}

@[simp] theorem settles_emitProblemLoadError {message : JsString} :
    Settles (emitProblemLoadError g socket message) ↔ Settles g := settles_toSocket

@[simp] theorem settles_importFailedToSender {message : JsString} {retryAfterSeconds : Option ℕ} :
    Settles (importFailedToSender g socket message retryAfterSeconds) ↔ Settles g := settles_toSocket

@[simp] theorem settles_emitTestcaseError {message : JsString} :
    Settles (emitTestcaseError g socket message) ↔ Settles g := settles_toSocket

@[simp] theorem settles_loadProblemIntoRoom {detail : ProblemDetail} :
    Settles (loadProblemIntoRoom cfg g detail) ↔ Settles g := by
  simp [loadProblemIntoRoom]

theorem handleProblemSelect_settles (s : Server) (socket : SocketId) (problemId : Option ProblemId) :
    Settles (handleProblemSelect s socket problemId) := by
  unfold handleProblemSelect
  split <;> simp

theorem afterSelecting_settles {problemId : ProblemId} :
    ∀ g ∈ afterSelecting cfg s socket problemId o, Settles g := by
  unfold afterSelecting
  split
  · split_ifs <;> simp
  · simp
  · simp
  · simp

theorem handleProblemImport_settles (cfg : Config) (s : Server) (socket : SocketId)
    (url : Option JsString) : Settles (handleProblemImport cfg s socket url) := by
  unfold handleProblemImport
  split
  · simp
  · split_ifs
    · simp
    · split <;> simp

theorem afterImportIpLimiter_settles_iff {url : JsString} :
    ∀ g ∈ afterImportIpLimiter s socket url o,
      (Settles g ↔ strands (.task (.importIpLimiter socket url) o) = false) := by
  unfold afterImportIpLimiter
  split
  · split_ifs <;> simp [strands]
  · simp [strands]
  · simp [strands, Task.unguarded]
  · simp

theorem afterImportQuota_settles_iff {url : JsString} :
    ∀ g ∈ afterImportQuota cfg s socket url o,
      (Settles g ↔ strands (.task (.importQuota socket url) o) = false) := by
  unfold afterImportQuota
  split
  · dsimp only
    split_ifs <;> simp [strands]
  · simp [strands]
  · simp [strands, Task.unguarded]
  · simp

theorem afterImportLimiter_settles {url : JsString} :
    ∀ g ∈ afterImportLimiter s socket url o, Settles g := by
  unfold afterImportLimiter
  split <;> simp

theorem afterImportReserve_settles {url : JsString} :
    ∀ g ∈ afterImportReserve s socket url o, Settles g := by
  unfold afterImportReserve
  split <;> simp

theorem afterImportScrape_settles : ∀ g ∈ afterImportScrape s socket o, Settles g := by
  unfold afterImportScrape
  split <;> simp

theorem afterImportFailure_settles (s : Server) (socket : SocketId) (reason : Failure) :
    Settles (afterImportFailure s socket reason) := by
  cases reason <;> simp [afterImportFailure]

theorem afterImportLoad_settles {problemId : ProblemId} :
    ∀ g ∈ afterImportLoad cfg s socket problemId o, Settles g := by
  unfold afterImportLoad
  split
  · split_ifs <;> simp
  · simp [afterImportFailure_settles]
  · simp [afterImportFailure_settles]
  · simp

theorem handleTestcaseAdd_settles (s : Server) (socket : SocketId) (data : Option CustomTestCase) :
    Settles (handleTestcaseAdd s socket data) := by
  rcases handleTestcaseAdd_cases s socket data with ⟨-, heq⟩ | ⟨message, heq⟩ | ⟨testCase, p, -, heq⟩
  · simp [heq]
  · simp [heq]
  · simp [heq]

theorem afterAddingTestCase_settles {testCase : CustomTestCase} {problemId : ProblemId} :
    ∀ g ∈ afterAddingTestCase s socket testCase problemId o, Settles g := by
  intro g h
  rcases afterAddingTestCase_cases h with ⟨message, -, rfl⟩ | ⟨found, -, -, rfl⟩
  · simp
  · simp

theorem handleSolutionReveal_settles (s : Server) (socket : SocketId) :
    Settles (handleSolutionReveal s socket) := by
  unfold handleSolutionReveal
  split
  · simp
  · split_ifs
    · simp
    · split <;> simp

theorem afterRevealing_settles {problemId : ProblemId} :
    ∀ g ∈ afterRevealing cfg s socket problemId o, Settles g := by
  unfold afterRevealing
  split
  · split_ifs
    · simp
    · split <;> simp
  · simp
  · simp
  · simp

end

/-! ## The whole server -/

section
variable {cfg : Config} {s : Server} {g : Step}

theorem authMiddleware_settles (s : Server) (socket : SocketId) (event : ClientEvent) :
    Settles (authMiddleware s socket event) := by
  unfold authMiddleware
  split
  · simp
  · split
    · simp
    · split
      · simp
      · split <;> simp

theorem runHandler_settles (cfg : Config) (s : Server) (socket : SocketId)
    (seen : Option SeenRequest) (event : ClientEvent) :
    Settles (runHandler cfg s socket seen event) := by
  unfold runHandler
  have hregistered : ∀ g, Settles g → Settles (if s.registered then g else .of s) := by
    intro g hg
    split_ifs
    · exact hg
    · exact settles_of
  by_cases hgone : socket ∉ s.live
  · rw [if_pos hgone]
    exact settles_of
  · rw [if_neg hgone]
    cases event with
    | userJoin payload => exact handleUserJoin_settles s socket payload
    | problemSelect problemId => exact handleProblemSelect_settles s socket problemId
    | problemImport url => exact handleProblemImport_settles cfg s socket url
    | codeRun => exact createExecutionSession_settles s socket .run
    | codeSubmit => exact createExecutionSession_settles s socket .submit
    | hintRequest => exact hregistered _ (handleHintRequest_settles cfg s socket)
    | hintApprove => exact hregistered _ (handleHintApprove_settles s socket seen)
    | hintDeny => exact hregistered _ (handleHintDeny_settles s)
    | solutionReveal => exact handleSolutionReveal_settles s socket
    | testcaseAdd testCase => exact handleTestcaseAdd_settles s socket testCase

theorem handleEvent_settles {event : ServerEvent} : ∀ g ∈ handleEvent cfg s event, Settles g := by
  cases event with
  | connect => simp [handleEvent]
  | receive socket event =>
    rw [handleEvent]
    split_ifs <;> simp [authMiddleware_settles]
  | accessDenied socket reason =>
    rw [handleEvent]
    split_ifs <;> simp
  | disconnect socket =>
    rw [handleEvent]
    split_ifs <;> simp [disconnectSocket_settles]
  | timeout id =>
    rw [handleEvent]
    split
    · simp
    · split_ifs <;> simp [handleTimeout_settles]
  | sweep =>
    rw [handleEvent]
    split_ifs <;> simp
  | tick elapsed => simp [handleEvent]
  | edit text => simp [handleEvent]

/-- The segments behind a guarded await settle, whatever it was waiting for. -/
theorem settles_iff_of_guarded {task : Task} {o : Outcome} (hguarded : task.unguarded = false)
    (h : Settles g) : Settles g ↔ strands (.task task o) = false := by
  refine iff_of_true h ?_
  cases o with
  | failed reason => exact hguarded
  | _ => rfl

theorem fire_settles {t : ServerTrigger} (h : (server cfg).fire s t = some g) :
    Settles g ↔ strands t = false := by
  cases t with
  | event event => exact iff_of_true (handleEvent_settles g h) rfl
  | task task o =>
    change resumeTask cfg s task o = some g at h
    cases task with
    | admitted socket event seen =>
      refine settles_iff_of_guarded rfl ?_
      cases o with
      | go => exact Option.some.inj h ▸ runHandler_settles cfg s socket seen event
      | _ => cases h
    | joinLimiter _ _ => exact afterJoinLimiter_settles_iff g h
    | hydrating _ _ _ => exact settles_iff_of_guarded rfl (afterHydration_settles g h)
    | executionIpLimiter _ => exact afterExecutionIpLimiter_settles_iff g h
    | executionCases _ _ _ => exact settles_iff_of_guarded rfl (afterExecutionCases_settles g h)
    | executionRest _ _ _ _ => exact settles_iff_of_guarded rfl (afterExecutionRest_settles g h)
    | executionLimiter _ _ => exact settles_iff_of_guarded rfl (afterExecutionLimiter_settles g h)
    | executionReserve _ _ => exact settles_iff_of_guarded rfl (afterExecutionReserve_settles g h)
    | executionJudge0 _ _ _ => exact settles_iff_of_guarded rfl (afterExecutionJudge0_settles g h)
    | executionSettling x reserved failure =>
      refine settles_iff_of_guarded rfl ?_
      cases o with
      | go => exact Option.some.inj h ▸ afterExecutionSettling_settles s x reserved failure
      | _ => cases h
    | hintStored _ => exact settles_iff_of_guarded rfl (afterStoredHint_settles g h)
    | hintIpLimiter _ => exact settles_iff_of_guarded rfl (afterHintIpLimiter_settles g h)
    | hintQuota _ => exact settles_iff_of_guarded rfl (afterHintQuota_settles g h)
    | hintProblem _ _ => exact settles_iff_of_guarded rfl (afterHintProblem_settles g h)
    | hintLimiter _ _ => exact settles_iff_of_guarded rfl (afterHintLimiter_settles g h)
    | hintReserve _ _ => exact settles_iff_of_guarded rfl (afterHintReserve_settles g h)
    | hintStream _ _ _ _ => exact settles_iff_of_guarded rfl (afterHintStream_settles g h)
    | hintFailing d reason =>
      refine settles_iff_of_guarded rfl ?_
      cases o with
      | go => exact Option.some.inj h ▸ afterHintFailure_settles s d reason
      | _ => cases h
    | selecting _ _ => exact settles_iff_of_guarded rfl (afterSelecting_settles g h)
    | importIpLimiter _ _ => exact afterImportIpLimiter_settles_iff g h
    | importQuota _ _ => exact afterImportQuota_settles_iff g h
    | importLimiter _ _ => exact settles_iff_of_guarded rfl (afterImportLimiter_settles g h)
    | importReserve _ _ => exact settles_iff_of_guarded rfl (afterImportReserve_settles g h)
    | importScrape _ _ => exact settles_iff_of_guarded rfl (afterImportScrape_settles g h)
    | importLoad _ _ => exact settles_iff_of_guarded rfl (afterImportLoad_settles g h)
    | importFailing socket reason =>
      refine settles_iff_of_guarded rfl ?_
      cases o with
      | go => exact Option.some.inj h ▸ afterImportFailure_settles s socket reason
      | _ => cases h
    | addingTestCase _ _ _ => exact settles_iff_of_guarded rfl (afterAddingTestCase_settles g h)
    | revealing _ _ => exact settles_iff_of_guarded rfl (afterRevealing_settles g h)

end

end CodeShare
