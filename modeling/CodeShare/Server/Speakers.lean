import CodeShare.Server.Frames

/-! # Which handlers send which messages

Every message has the families whose handlers send it. A segment sends only messages of its own family
(`fire_speaks`), so that a message in the outputs of a run says what kind of code wrote it.
-/

namespace CodeShare
open Tasks
set_option autoImplicit false

/-- The families whose handlers send a message. Closing a socket is part of a join into a full room. -/
def Message.senders : Message → List Family
  | userJoined _ _ _ _ _ _ | roomFull => [.join]
  | userLeft _ => [.outside, .join]
  | roomSync _ => [.outside, .join, .hint]
  | problemLoaded _ _ _ _ _ => [.problem, .join]
  | problemError _ | problemImportStatus _ _ _ => [.problem]
  | executionStarted _ | executionResult _ | executionError _ _ => [.execution]
  | hintPending _ _ _ _ | hintChunk _ | hintDone _ _ => [.hint]
  | hintDenied => [.outside, .hint]
  | hintError _ => [.hint, .reveal]
  | solutionRevealed _ => [.reveal]
  | testcaseAdded _ | testcaseError _ => [.testCase]
  | eventRejected _ _ _ => [.outside, .join]
  | accessRequired _ | yjsTokenRotated _ => [.outside]

/-- Only messages of the family are sent. -/
def Speaks (f : Family) (out : List Effect) : Prop :=
  ∀ k m, .deliver k m ∈ out → f ∈ m.senders

section
variable {f : Family} {out out' : List Effect} {m : Message}

@[simp] theorem speaks_nil : Speaks f [] := fun _ _ => nofun

@[simp] theorem speaks_append : Speaks f (out ++ out') ↔ Speaks f out ∧ Speaks f out' := by
  constructor
  · intro h
    exact ⟨fun k m hm => h k m (List.mem_append_left _ hm), fun k m hm => h k m (List.mem_append_right _ hm)⟩
  · rintro ⟨h, h'⟩ k m hm
    rcases List.mem_append.mp hm with hm | hm
    · exact h k m hm
    · exact h' k m hm

@[simp] theorem speaks_cons (e : Effect) :
    Speaks f (e :: out) ↔ (∀ k m, e = .deliver k m → f ∈ m.senders) ∧ Speaks f out := by
  rw [← List.singleton_append, speaks_append]
  refine and_congr_left' ?_
  unfold Speaks
  simp only [List.mem_singleton]
  exact forall₂_congr fun k m => by rw [eq_comm]

theorem speaks_deliveries (sockets : List SocketId) :
    Speaks f (sockets.map (.deliver · m)) ↔ (sockets ≠ [] → f ∈ m.senders) := by
  constructor
  · intro h hne
    obtain ⟨k, hk⟩ := List.exists_mem_of_ne_nil sockets hne
    exact h k m (List.mem_map_of_mem hk)
  · intro h k m' hm'
    obtain ⟨k', hk', heq⟩ := List.mem_map.mp hm'
    cases heq
    exact h (List.ne_nil_of_mem hk')

variable (g : Step) (socket : SocketId)

@[simp] theorem speaks_toSocket :
    Speaks f (g.toSocket socket m).out ↔ Speaks f g.out ∧ (socket ∈ g.state.live → f ∈ m.senders) := by
  unfold Tasks.Segment.toSocket
  rw [Segment.emits_out, speaks_append]
  refine and_congr_right' ?_
  by_cases hlive : socket ∈ g.state.live <;> simp [hlive]

@[simp] theorem speaks_toRoom :
    Speaks f (g.toRoom m).out ↔ Speaks f g.out ∧ (g.state.joined ≠ [] → f ∈ m.senders) := by
  unfold Tasks.Segment.toRoom
  rw [Segment.emits_out, speaks_append, speaks_deliveries]

@[simp] theorem speaks_toOthers :
    Speaks f (g.toOthers socket m).out ↔
      Speaks f g.out ∧ (g.state.joined.filter (· ≠ socket) ≠ [] → f ∈ m.senders) := by
  unfold Tasks.Segment.toOthers
  rw [Segment.emits_out, speaks_append, speaks_deliveries]

@[simp] theorem speaks_syncRoom :
    Speaks f g.syncRoom.out ↔
      Speaks f g.out ∧ (g.state.joined ≠ [] → f ∈ [Family.outside, .join, .hint]) := by
  unfold Tasks.Segment.syncRoom
  rw [Segment.emits_out, speaks_append, speaks_deliveries]
  rfl

end

variable {cfg : Config} {s : Server} {o : Outcome} {g : Step} {socket : SocketId}

/-! ## Executions -/

section Executions
variable {x : Execution}

theorem createExecutionSession_speaks (t : ExecutionType) :
    Speaks .execution (createExecutionSession s socket t).out := by
  unfold createExecutionSession
  split
  · simp
  · split_ifs <;> simp

theorem afterExecutionIpLimiter_speaks (h : afterExecutionIpLimiter cfg s x o = some g) :
    Speaks .execution g.out := by
  unfold afterExecutionIpLimiter at h
  split at h
  · split at h <;> cases h
    · simp [executionErrorToSocket, Message.senders]
    · unfold startExecution
      dsimp only
      split_ifs <;> simp [settle, executionErrorToRoom, Message.senders]
  · cases h; simp [executionErrorToSocket, Message.senders]
  · cases h; simp
  · cases h

theorem afterExecutionCases_speaks {code : JsString} {p : ProblemId}
    (h : afterExecutionCases s x code p o = some g) : Speaks .execution g.out := by
  unfold afterExecutionCases at h
  split at h
  · split_ifs at h
    split at h <;> cases h <;> simp
  · cases h; simp [settle]
  · cases h

theorem afterExecutionRest_speaks {code : JsString} {p : ProblemId} {cases : List TestCase}
    (h : afterExecutionRest cfg s x code p cases o = some g) : Speaks .execution g.out := by
  unfold afterExecutionRest at h
  split at h
  · split_ifs at h <;> cases h <;> simp
  · cases h; simp [settle, executionErrorToRoom, Message.senders]
  · cases h; simp [settle]
  · cases h

theorem afterExecutionReserve_speaks {loaded : LoadedExecutionResources}
    (h : afterExecutionReserve s x loaded o = some g) : Speaks .execution g.out := by
  unfold afterExecutionReserve at h
  split at h <;> cases h <;> simp [settle, executionErrorToRoom, Message.senders]

theorem afterExecutionJudge0_speaks {loaded : LoadedExecutionResources} {nonce : JsString}
    (h : afterExecutionJudge0 cfg s x loaded nonce o = some g) : Speaks .execution g.out := by
  unfold afterExecutionJudge0 at h
  split at h
  · split at h
    · cases h; simp [settle, executionErrorToRoom, Message.senders]
    · split at h <;> cases h
      · rename_i reply _
        cases reply <;> simp [settle, ExecutionReply.message, Message.senders]
      · simp [settle]
  · cases h; simp [settle]
  · cases h

theorem afterExecutionSettling_speaks (reserved : Bool) (failure : Option Failure) :
    Speaks .execution (afterExecutionSettling s x reserved failure).out := by
  cases failure <;>
    simp [afterExecutionSettling, finishExecution, executionErrorToRoom, Message.senders]

end Executions

/-! ## Hints -/

section Hints
variable {d : Delivery} {prompt : HintPrompt}

theorem handleHintRequest_speaks : Speaks .hint (handleHintRequest cfg s socket).out := by
  unfold handleHintRequest
  split
  · simp [rejectHintRequest, Message.senders]
  · split_ifs
    · simp [deliverHint]
    · unfold sendPendingHintRequest
      split
      · simp
      · dsimp only
        split
        · simp
        · split <;> simp [Message.senders]

theorem handleHintApprove_speaks (seen : Option SeenRequest) :
    Speaks .hint (handleHintApprove s socket seen).out := by
  unfold handleHintApprove
  split <;> simp [deliverHint, clearPendingHintRequest]

theorem denyPendingHintRequest_speaks {f : Family} (hf : f ∈ [Family.outside, .hint])
    (hg : Speaks f g.out) (request : PendingRequest) :
    Speaks f (denyPendingHintRequest g request).out := by
  have hsync : f ∈ [Family.outside, .join, .hint] := by
    rcases List.mem_pair.mp hf with rfl | rfl <;> decide
  unfold denyPendingHintRequest
  dsimp only
  split
  · exact (speaks_syncRoom _).mpr ⟨hg, fun _ => hsync⟩
  · refine (speaks_toSocket _ _).mpr ⟨(speaks_syncRoom _).mpr ⟨hg, fun _ => hsync⟩, fun _ => ?_⟩
    simpa [Message.senders] using hf

theorem handleHintDeny_speaks : Speaks .hint (handleHintDeny s).out := by
  unfold handleHintDeny
  split
  · simp
  · exact denyPendingHintRequest_speaks (by decide) speaks_nil _

theorem afterHintFailure_speaks (reason : Failure) : Speaks .hint (afterHintFailure s d reason).out := by
  cases reason <;> simp [afterHintFailure, rejectHintRequest, Message.senders]

theorem afterStoredHint_speaks (h : afterStoredHint cfg s d o = some g) : Speaks .hint g.out := by
  unfold afterStoredHint at h
  split at h
  · split_ifs at h
    cases h
    simp [deliverStoredHint, emitHintDelivered, Message.senders]
  · cases h
    unfold prepareLLMHintRequest
    split_ifs <;> simp [rejectHintRequest, Message.senders]
  · cases h; exact afterHintFailure_speaks _
  · cases h

theorem afterHintIpLimiter_speaks (h : afterHintIpLimiter s d o = some g) : Speaks .hint g.out := by
  unfold afterHintIpLimiter at h
  split at h <;> cases h <;> simp [rejectHintRequest, Message.senders]

theorem afterHintQuota_speaks (h : afterHintQuota cfg s d o = some g) : Speaks .hint g.out := by
  unfold afterHintQuota at h
  split at h
  · split_ifs at h
    · cases h; simp [rejectHintRequest, Message.senders]
    · split at h <;> cases h
      simp
  · cases h; simp [rejectHintRequest, Message.senders]
  · cases h; simp
  · cases h

theorem afterHintProblem_speaks {p : ProblemId} (h : afterHintProblem cfg s d p o = some g) :
    Speaks .hint g.out := by
  unfold afterHintProblem at h
  split at h
  · split_ifs at h <;> cases h <;> simp [rejectHintRequest, Message.senders]
  · cases h; simp [rejectHintRequest, Message.senders]
  · cases h; simp
  · cases h

theorem afterHintReserve_speaks (h : afterHintReserve s d prompt o = some g) : Speaks .hint g.out := by
  unfold afterHintReserve at h
  split at h <;> cases h <;> simp [rejectHintRequest, Message.senders]

theorem failHintStream_speaks (reason : Failure) : Speaks .hint (failHintStream s d reason).out := by
  simp [failHintStream, endHintStream, rejectHintRequest, Message.senders]

theorem afterHintStream_speaks {generated : JsString} {closing : Bool}
    (h : afterHintStream cfg s d prompt generated closing o = some g) : Speaks .hint g.out := by
  unfold afterHintStream at h
  split at h
  · split_ifs at h
    cases h
    simp [Message.senders]
  · cases h
    unfold finishHintStream
    split
    · exact failHintStream_speaks _
    · simp [endHintStream, emitHintDelivered, Message.senders]
  · cases h; exact failHintStream_speaks _
  · cases h

end Hints

/-! ## Problems, test cases and solutions -/

section Problems
variable {p : ProblemId} {url : JsString}

theorem handleProblemSelect_speaks (id : Option ProblemId) :
    Speaks .problem (handleProblemSelect s socket id).out := by
  unfold handleProblemSelect
  split <;> simp [emitProblemLoadError, Message.senders]

theorem handleProblemImport_speaks (url : Option JsString) :
    Speaks .problem (handleProblemImport cfg s socket url).out := by
  unfold handleProblemImport
  split
  · simp
  · split_ifs
    · simp [importFailedToSender, Message.senders]
    · split <;> simp [importFailedToSender, Message.senders]

theorem loadProblemIntoRoom_speaks (detail : ProblemDetail) :
    Speaks .problem (loadProblemIntoRoom cfg (.of s) detail).out := by
  simp [loadProblemIntoRoom, problemLoadedPayload, Message.senders]

theorem afterSelecting_speaks (h : afterSelecting cfg s socket p o = some g) : Speaks .problem g.out := by
  unfold afterSelecting at h
  split at h
  · split_ifs at h
    cases h
    exact loadProblemIntoRoom_speaks _
  · cases h; simp [emitProblemLoadError, Message.senders]
  · cases h; simp [emitProblemLoadError, Message.senders]
  · cases h

theorem afterImportIpLimiter_speaks (h : afterImportIpLimiter s socket url o = some g) :
    Speaks .problem g.out := by
  unfold afterImportIpLimiter at h
  split at h
  · split_ifs at h <;> cases h <;> simp [importFailedToSender, Message.senders]
  · cases h; simp [importFailedToSender, Message.senders]
  · cases h; simp
  · cases h

theorem afterImportQuota_speaks (h : afterImportQuota cfg s socket url o = some g) :
    Speaks .problem g.out := by
  unfold afterImportQuota at h
  split at h
  · dsimp only at h
    split_ifs at h <;> cases h <;> simp [Message.senders]
  · cases h; simp [importFailedToSender, Message.senders]
  · cases h; simp
  · cases h

theorem afterImportReserve_speaks (h : afterImportReserve s socket url o = some g) :
    Speaks .problem g.out := by
  unfold afterImportReserve at h
  split at h <;> cases h <;> simp [importFailedToSender, Message.senders]

theorem afterImportFailure_speaks (reason : Failure) :
    Speaks .problem (afterImportFailure s socket reason).out := by
  cases reason <;> simp [afterImportFailure, importFailedToSender, Message.senders]

theorem afterImportLoad_speaks (h : afterImportLoad cfg s socket p o = some g) :
    Speaks .problem g.out := by
  unfold afterImportLoad at h
  split at h
  · split_ifs at h
    cases h
    simp [loadProblemIntoRoom, problemLoadedPayload, Message.senders]
  · cases h; exact afterImportFailure_speaks _
  · cases h; exact afterImportFailure_speaks _
  · cases h

theorem handleTestcaseAdd_speaks (data : Option CustomTestCase) :
    Speaks .testCase (handleTestcaseAdd s socket data).out := by
  rcases handleTestcaseAdd_cases s socket data with ⟨-, heq⟩ | ⟨message, heq⟩ | ⟨testCase, p, -, heq⟩
  · simp [heq]
  · simp [heq, emitTestcaseError, Message.senders]
  · simp [heq]

theorem afterAddingTestCase_speaks {testCase : CustomTestCase}
    (h : afterAddingTestCase s socket testCase p o = some g) : Speaks .testCase g.out := by
  rcases afterAddingTestCase_cases h with ⟨message, -, rfl⟩ | ⟨found, -, -, rfl⟩
  · simp [emitTestcaseError, Message.senders]
  · simp [Message.senders]

theorem handleSolutionReveal_speaks : Speaks .reveal (handleSolutionReveal s socket).out := by
  unfold handleSolutionReveal
  split
  · simp
  · split_ifs
    · simp [Message.senders]
    · split <;> simp [Message.senders]

theorem afterRevealing_speaks (h : afterRevealing cfg s socket p o = some g) :
    Speaks .reveal g.out := by
  unfold afterRevealing at h
  split at h
  · split_ifs at h
    split at h <;> cases h <;> simp [Message.senders]
  · cases h; simp [Message.senders]
  · cases h; simp [Message.senders]
  · cases h

end Problems

/-! ## Joining and leaving -/

theorem disconnectSocket_speaks {f : Family} (hf : f ∈ [Family.outside, .join]) (hg : Speaks f g.out)
    (socket : SocketId) : Speaks f (disconnectSocket g socket).out := by
  have hsync : f ∈ [Family.outside, .join, .hint] := by
    rcases List.mem_pair.mp hf with rfl | rfl <;> decide
  have hleave : Speaks f (handleDisconnect (g.modify fun s => { s with
      live := s.live.filter (· ≠ socket)
      joined := s.joined.filter (· ≠ socket) }) socket).out := by
    unfold handleDisconnect
    split_ifs
    · exact hg
    · split
      · exact hg
      · exact (speaks_toOthers _ _).mpr ⟨hg, fun _ => hf⟩
  unfold disconnectSocket
  split_ifs
  · dsimp only
    split_ifs
    · unfold handleRequesterDisconnect
      split
      · exact hleave
      · split
        · exact hleave
        · split_ifs
          · exact hleave
          · exact (speaks_syncRoom _).mpr ⟨hleave, fun _ => hsync⟩
    · exact hleave
  · exact hg

theorem emitJoinedPayload_speaks (hg : Speaks .join g.out) (user : RoomUserInternal)
    (announced : Option RoomUser) : Speaks .join (emitJoinedPayload g socket user announced).out := by
  simpa [emitJoinedPayload, Message.senders] using hg

theorem handleUserJoin_speaks (payload : Option UserJoinPayload) :
    Speaks .join (handleUserJoin s socket payload).out := by
  unfold handleUserJoin
  split
  · simp [emitJoinRejected, Message.senders]
  · split
    · simp [emitJoinRejected, Message.senders]
    · split
      · exact emitJoinedPayload_speaks speaks_nil _ _
      · simp

theorem afterJoinLimiter_speaks {payload : UserJoinPayload}
    (h : afterJoinLimiter s socket payload o = some g) : Speaks .join g.out := by
  unfold afterJoinLimiter at h
  split at h <;> cases h
  · unfold takeSeat
    split
    · exact emitJoinedPayload_speaks speaks_nil _ _
    · split_ifs
      · exact disconnectSocket_speaks (by decide) (by simp [Message.senders]) socket
      · exact emitJoinedPayload_speaks speaks_nil _ _
  · simp [emitJoinRejected, Message.senders]
  · simp

theorem emitPresenceBroadcast_speaks (hg : Speaks .join g.out) (announced : Option RoomUser) :
    Speaks .join (emitPresenceBroadcast g socket announced).out := by
  cases announced with
  | none => exact hg
  | some user => simpa [emitPresenceBroadcast, Message.senders] using hg

theorem afterHydration_speaks {p : Option ProblemId} {announced : Option RoomUser}
    (h : afterHydration cfg s socket p announced o = some g) : Speaks .join g.out := by
  unfold afterHydration at h
  split at h
  · split_ifs at h
    cases h
    exact emitPresenceBroadcast_speaks speaks_nil _
  · split_ifs at h
    cases h
    exact emitPresenceBroadcast_speaks (by simp [problemLoadedPayload, Message.senders]) _
  · split_ifs at h
    cases h
    exact emitPresenceBroadcast_speaks speaks_nil _
  · split_ifs at h
    cases h
    exact emitPresenceBroadcast_speaks speaks_nil _
  · cases h

/-! ## Outside the handlers -/

theorem handleTimeout_speaks (timer : Timer) : Speaks .outside (handleTimeout s timer).out := by
  unfold handleTimeout
  dsimp only
  split
  · unfold handleGraceTimeout removeDisconnectedUser
    split
    · simp
    · dsimp only
      split_ifs <;> simp [Message.senders]
  · unfold handleConsentTimeout
    dsimp only
    split
    · simp
    · exact denyPendingHintRequest_speaks (by decide) speaks_nil _

theorem authMiddleware_speaks (event : ClientEvent) :
    Speaks .outside (authMiddleware s socket event).out := by
  unfold authMiddleware
  split
  · simp
  · split
    · simp
    · split
      · simp
      · split <;> simp [Message.senders]

theorem handleEvent_speaks {e : ServerEvent} (h : handleEvent cfg s e = some g) :
    Speaks .outside g.out := by
  unfold handleEvent at h
  split at h
  · cases h; simp
  · split_ifs at h
    cases h
    exact authMiddleware_speaks _
  · split_ifs at h
    cases h
    simp [Message.senders]
  · split_ifs at h
    cases h
    exact disconnectSocket_speaks (by decide) speaks_nil _
  · split at h
    · cases h
    · split_ifs at h
      cases h
      exact handleTimeout_speaks _
  · split_ifs at h
    cases h
    simp
  · cases h; simp
  · cases h; simp

/-! ## Every segment -/

theorem runHandler_speaks (seen : Option SeenRequest) (event : ClientEvent) :
    Speaks event.family (runHandler cfg s socket seen event).out := by
  unfold runHandler
  split
  · simp
  · cases event with
    | userJoin payload => exact handleUserJoin_speaks payload
    | problemSelect id => exact handleProblemSelect_speaks id
    | problemImport url => exact handleProblemImport_speaks url
    | codeRun => exact createExecutionSession_speaks .run
    | codeSubmit => exact createExecutionSession_speaks .submit
    | hintRequest =>
      dsimp only
      split_ifs
      · exact handleHintRequest_speaks
      · exact speaks_nil
    | hintApprove =>
      dsimp only
      split_ifs
      · exact handleHintApprove_speaks seen
      · exact speaks_nil
    | hintDeny =>
      dsimp only
      split_ifs
      · exact handleHintDeny_speaks
      · exact speaks_nil
    | solutionReveal => exact handleSolutionReveal_speaks
    | testcaseAdd testCase => exact handleTestcaseAdd_speaks testCase

/-- **Messages.** Every segment of the server sends only messages of its family. -/
theorem fire_speaks {t : ServerTrigger} (h : (server cfg).fire s t = some g) :
    Speaks (triggerFamily t) g.out := by
  cases t with
  | event e => exact handleEvent_speaks h
  | task t o =>
    change resumeTask cfg s t o = some g at h
    cases t with
    | admitted socket event seen =>
      cases o <;> cases h
      exact runHandler_speaks seen event
    | joinLimiter => exact afterJoinLimiter_speaks h
    | hydrating => exact afterHydration_speaks h
    | executionIpLimiter => exact afterExecutionIpLimiter_speaks h
    | executionCases => exact afterExecutionCases_speaks h
    | executionRest => exact afterExecutionRest_speaks h
    | executionLimiter x loaded =>
      change afterExecutionLimiter s x loaded o = some g at h
      unfold afterExecutionLimiter at h
      split at h <;> cases h <;> exact speaks_nil
    | executionReserve => exact afterExecutionReserve_speaks h
    | executionJudge0 => exact afterExecutionJudge0_speaks h
    | executionSettling x reserved failure =>
      cases o <;> cases h
      exact afterExecutionSettling_speaks reserved failure
    | hintStored => exact afterStoredHint_speaks h
    | hintIpLimiter => exact afterHintIpLimiter_speaks h
    | hintQuota => exact afterHintQuota_speaks h
    | hintProblem => exact afterHintProblem_speaks h
    | hintLimiter d prompt =>
      change afterHintLimiter s d prompt o = some g at h
      unfold afterHintLimiter at h
      split at h <;> cases h <;> exact speaks_nil
    | hintReserve => exact afterHintReserve_speaks h
    | hintStream => exact afterHintStream_speaks h
    | hintFailing d reason =>
      cases o <;> cases h
      exact afterHintFailure_speaks reason
    | selecting => exact afterSelecting_speaks h
    | importIpLimiter => exact afterImportIpLimiter_speaks h
    | importQuota => exact afterImportQuota_speaks h
    | importLimiter socket url =>
      change afterImportLimiter s socket url o = some g at h
      unfold afterImportLimiter at h
      split at h <;> cases h <;> exact speaks_nil
    | importReserve => exact afterImportReserve_speaks h
    | importScrape socket url =>
      change afterImportScrape s socket o = some g at h
      unfold afterImportScrape at h
      split at h <;> cases h <;> exact speaks_nil
    | importLoad => exact afterImportLoad_speaks h
    | importFailing socket reason =>
      cases o <;> cases h
      exact afterImportFailure_speaks reason
    | addingTestCase => exact afterAddingTestCase_speaks h
    | revealing => exact afterRevealing_speaks h

end CodeShare
