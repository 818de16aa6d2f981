import CodeShare.Server.HintSteps

/-! # What a segment does to LLM streams

`StreamStep` says, for any segment, how many streams it starts and ends, what that does to
`hintStreaming` and to the room's count of LLM calls, and how many requests are sent to the model.
-/

namespace CodeShare
open Tasks
set_option autoImplicit false

/-! ## Streams -/

/-- The task is inside `streamLLMHint`. -/
def Task.isStream : Task → Bool
  | hintStream _ _ _ _ => true
  | _ => false

/-- The task has passed the room's limit and has not started its stream. -/
def Task.pastLimit : Task → Bool
  | hintIpLimiter _ | hintQuota _ | hintProblem _ _ | hintLimiter _ _ | hintReserve _ _ => true
  | _ => false

/-- The segment calls `streamCompletion`. -/
def startsStream : ServerTrigger → Bool
  | .task (.hintReserve _ _) (.answer true) => true
  | _ => false

/-- The segment ends a stream, with a hint or without one. -/
def endsStream (cfg : Config) : ServerTrigger → Option Bool
  | .task (.hintStream _ _ generated _) .streamEnd =>
    match cfg.sanitizeLLMHint generated cfg.maxLLMHintChars with
    | .ok _ => some true
    | .error _ => some false
  | .task (.hintStream _ _ _ _) (.failed _) => some false
  | _ => none

/-- The segment lets a delivery pass the room's limit. -/
def passesLimit (cfg : Config) (s : Server) : ServerTrigger → Bool
  | .task (.hintStored _) (.hint none) =>
    cfg.enableLLMHintFallback && decide (s.room.llmCallsUsed < cfg.maxLLMCallsPerRoom)
  | _ => false

def Effect.isLlmRequest : Effect → Bool
  | llmRequest _ => true
  | _ => false

/-- How many requests were sent to the model. -/
def llmRequests (out : List Effect) : ℕ := out.countP Effect.isLlmRequest

@[simp] theorem llmRequests_append (out out' : List Effect) :
    llmRequests (out ++ out') = llmRequests out + llmRequests out' :=
  List.countP_append

theorem llmRequests_notes (out : List Effect) : llmRequests out = llmRequests (notes out) := by
  unfold llmRequests notes
  rw [List.countP_filter]
  refine List.countP_congr fun e _ => ?_
  cases e <;> simp [Effect.isLlmRequest, Effect.family]

theorem llmRequests_eq_zero {out : List Effect} (h : ∀ e ∈ notes out, e.isLlmRequest = false) :
    llmRequests out = 0 := by
  rw [llmRequests_notes]
  exact List.countP_eq_zero.mpr fun e he => by simp [h e he]

theorem Task.isStream_of_family {t : Task} (h : t.family ≠ .hint) : t.isStream = false := by
  cases t <;> first | rfl | exact absurd rfl h

theorem Task.pastLimit_of_family {t : Task} (h : t.family ≠ .hint) : t.pastLimit = false := by
  cases t <;> first | rfl | exact absurd rfl h

/-- Whether a stream is marked as running, and the calls counted so far. -/
def Server.streamView (s : Server) : Bool × ℕ := (s.room.hintStreaming, s.room.llmCallsUsed)

/-! ## The step -/

structure StreamStep (cfg : Config) (s : Server) (t : ServerTrigger) (g : Step) : Prop where
  streams : g.next.countP Task.isStream + (endsStream cfg t).isSome.toNat =
    t.taken.countP Task.isStream + (startsStream t).toNat
  flag : g.state.room.hintStreaming =
    (startsStream t || (s.room.hintStreaming && (endsStream cfg t).isNone))
  used : g.state.room.llmCallsUsed = s.room.llmCallsUsed + (endsStream cfg t == some true).toNat
  requests : llmRequests g.out = (startsStream t).toNat
  past : g.next.countP Task.pastLimit + (startsStream t).toNat ≤
    t.taken.countP Task.pastLimit + (passesLimit cfg s t).toNat

variable {cfg : Config} {s : Server} {t : ServerTrigger} {o : Outcome} {g : Step} {d : Delivery}
  {prompt : HintPrompt}

/-- Segments that neither start nor end a stream, nor pass the limit. -/
theorem StreamStep.of_view (hstarts : startsStream t = false) (hends : endsStream cfg t = none)
    (hview : g.state.streamView = s.streamView)
    (hrequests : ∀ e ∈ notes g.out, e.isLlmRequest = false)
    (hstreams : g.next.countP Task.isStream = t.taken.countP Task.isStream)
    (hpast : g.next.countP Task.pastLimit ≤ t.taken.countP Task.pastLimit) :
    StreamStep cfg s t g := by
  obtain ⟨hflag, hused⟩ := Prod.mk.inj hview
  refine ⟨?_, ?_, ?_, ?_, ?_⟩
  · rw [hends, hstarts]
    exact hstreams
  · rw [hends, hstarts, hflag]
    simp
  · rw [hends, hused]
    rfl
  · rw [hstarts]
    exact llmRequests_eq_zero hrequests
  · rw [hstarts]
    exact hpast.trans (Nat.le_add_right _ _)

/-! ## Requests and answers -/

section
variable {socket : SocketId} {seen : Option SeenRequest}

/-- At most deliveries are started. -/
structure StartsDeliveries (s : Server) (g : Step) : Prop where
  view : g.state.streamView = s.streamView
  next : ∀ task ∈ g.next, ∃ d, task = .hintStored d
  out : ∀ e ∈ notes g.out, e.isLlmRequest = false

theorem StartsDeliveries.of_quiet (hview : g.state.streamView = s.streamView) (hnext : g.next = [])
    (hout : notes g.out = []) : StartsDeliveries s g :=
  ⟨hview, by simp [hnext], by simp [hout]⟩

theorem sendPendingHintRequest_streamView (cfg : Config) (g : Step) (socket : SocketId) :
    (sendPendingHintRequest cfg g socket).state.streamView = g.state.streamView := by
  unfold sendPendingHintRequest
  split
  · rfl
  · dsimp only
    split
    · rfl
    · split
      · rfl
      · simp only [Segment.modify_state, Segment.toSocket_state, Segment.syncRoom_state,
          startConsentTimer, Server.clearConsentTimer, Server.setTimeout, Server.clearTimeout]
        split <;> rfl

theorem handleHintRequest_starts : StartsDeliveries s (handleHintRequest cfg s socket) := by
  have hroom : (getHintRequestRejection cfg s socket).1.room = s.room := by
    unfold getHintRequestRejection
    split_ifs <;> rfl
  unfold handleHintRequest
  generalize getHintRequestRejection cfg s socket = r at hroom
  obtain ⟨s', message⟩ := r
  have hview : s'.streamView = s.streamView :=
    congrArg (fun room : Room => (room.hintStreaming, room.llmCallsUsed)) hroom
  cases message with
  | some message => exact .of_quiet hview rfl (by simp)
  | none =>
    dsimp only
    split_ifs
    · exact ⟨hview, fun task hm => ⟨_, List.mem_singleton.mp hm⟩, by simp [deliverHint]⟩
    · have hcontinues := sendPendingHintRequest_continues cfg (.of s') socket
      exact .of_quiet ((sendPendingHintRequest_streamView cfg (.of s') socket).trans hview)
        hcontinues.next hcontinues.out

theorem handleHintApprove_starts : StartsDeliveries s (handleHintApprove s socket seen) := by
  unfold handleHintApprove
  split
  · exact .of_quiet rfl rfl rfl
  · refine ⟨?_, fun task hm => ⟨_, List.mem_singleton.mp hm⟩, ?_⟩
    · simp [deliverHint, clearPendingHintRequest, Server.streamView, clearConsentTimer_room]
    · simp [deliverHint, clearPendingHintRequest, Effect.family, Effect.isLlmRequest]

theorem handleHintDeny_starts : StartsDeliveries s (handleHintDeny s) := by
  unfold handleHintDeny
  split
  · exact .of_quiet rfl rfl rfl
  · obtain ⟨hstate, hnext, hout⟩ :=
      denyPendingHintRequest_spec (.of s.clearConsentTimer) ‹PendingRequest›
    refine .of_quiet ?_ hnext hout
    rw [hstate]
    simp [clearPendingHintRequest, Server.streamView, clearConsentTimer_room]

theorem StartsDeliveries.streamStep {event : ClientEvent} (h : StartsDeliveries s g) :
    StreamStep cfg s (.task (.admitted socket event seen) o) g := by
  have hcount : ∀ p : Task → Bool, (∀ d, p (.hintStored d) = false) → g.next.countP p = 0 := by
    intro p hp
    refine List.countP_eq_zero.mpr fun task hm => ?_
    obtain ⟨d, rfl⟩ := h.next task hm
    simp [hp d]
  exact .of_view rfl rfl h.view h.out (hcount _ fun _ => rfl) (hcount _ fun _ => rfl).le

end

/-! ## Deliveries -/

/-- A delivery that goes on, with the same effect on the counts as the tasks it goes between. -/
theorem StreamStep.of_suspend {task task' : Task} (hstarts : startsStream (.task task o) = false)
    (hends : endsStream cfg (.task task o) = none) (hview : g.state.streamView = s.streamView)
    (hnext : g.next = [task']) (hout : notes g.out = []) (hstream : task'.isStream = task.isStream)
    (hpast : task'.pastLimit = task.pastLimit) : StreamStep cfg s (.task task o) g := by
  refine .of_view hstarts hends hview (by simp [hout]) ?_ ?_
  · rw [hnext, Trigger.taken, List.countP_singleton, List.countP_singleton, hstream]
  · rw [hnext, Trigger.taken, List.countP_singleton, List.countP_singleton, hpast]

/-- A delivery that ends before its stream. -/
theorem StreamStep.of_end {task : Task} (hstarts : startsStream (.task task o) = false)
    (hends : endsStream cfg (.task task o) = none) (hview : g.state.streamView = s.streamView)
    (hnext : g.next.countP Task.isStream = 0 ∧ g.next.countP Task.pastLimit = 0)
    (hout : ∀ e ∈ notes g.out, e.isLlmRequest = false) (hstream : task.isStream = false) :
    StreamStep cfg s (.task task o) g := by
  refine .of_view hstarts hends hview hout ?_ ?_
  · rw [hnext.1, Trigger.taken, List.countP_singleton, hstream]
    rfl
  · rw [hnext.2]
    exact Nat.zero_le _

theorem prepareLLMHintRequest_stream :
    StreamStep cfg s (.task (.hintStored d) (.hint none)) (prepareLLMHintRequest cfg s d) := by
  unfold prepareLLMHintRequest
  split_ifs with hfallback hlimit
  · exact .of_end rfl rfl rfl ⟨rfl, rfl⟩ (by simp) rfl
  · exact .of_end rfl rfl rfl ⟨rfl, rfl⟩ (by simp) rfl
  · have hpasses : passesLimit cfg s (.task (.hintStored d) (.hint none)) = true := by
      simp only [passesLimit, Bool.and_eq_true, decide_eq_true_eq]
      exact ⟨by simpa using hfallback, Nat.lt_of_not_le hlimit⟩
    refine ⟨rfl, ?_, rfl, llmRequests_eq_zero (by simp), ?_⟩
    · simp [startsStream, endsStream]
    · rw [hpasses]
      exact le_rfl

theorem afterHintFailure_stream {task : Task} (reason : Failure)
    (hstarts : startsStream (.task task o) = false) (hends : endsStream cfg (.task task o) = none)
    (hstream : task.isStream = false) :
    StreamStep cfg s (.task task o) (afterHintFailure s d reason) := by
  cases reason <;> exact .of_end hstarts hends rfl ⟨rfl, rfl⟩ (by simp [afterHintFailure]) hstream

theorem afterStoredHint_stream (h : afterStoredHint cfg s d o = some g) :
    StreamStep cfg s (.task (.hintStored d) o) g := by
  unfold afterStoredHint at h
  split at h
  · split_ifs at h
    cases h
    exact .of_end rfl rfl rfl ⟨rfl, rfl⟩
      (by simp [deliverStoredHint, Effect.family, Effect.isLlmRequest]) rfl
  · cases h; exact prepareLLMHintRequest_stream
  · cases h; exact afterHintFailure_stream _ rfl rfl rfl
  · cases h

theorem afterHintIpLimiter_stream (h : afterHintIpLimiter s d o = some g) :
    StreamStep cfg s (.task (.hintIpLimiter d) o) g := by
  unfold afterHintIpLimiter at h
  split at h <;> cases h
  · exact .of_suspend rfl rfl rfl rfl rfl rfl rfl
  · exact .of_end rfl rfl rfl ⟨rfl, rfl⟩ (by simp) rfl
  · exact .of_end rfl rfl rfl ⟨rfl, rfl⟩ (by simp) rfl

theorem afterHintQuota_stream (h : afterHintQuota cfg s d o = some g) :
    StreamStep cfg s (.task (.hintQuota d) o) g := by
  unfold afterHintQuota at h
  split at h
  · split_ifs at h
    · cases h; exact .of_end rfl rfl rfl ⟨rfl, rfl⟩ (by simp) rfl
    · split at h <;> cases h
      exact .of_suspend rfl rfl rfl rfl rfl rfl rfl
  · cases h; exact .of_end rfl rfl rfl ⟨rfl, rfl⟩ (by simp) rfl
  · cases h; exact .of_end rfl rfl rfl ⟨rfl, rfl⟩ (by simp) rfl
  · cases h

theorem afterHintProblem_stream {p : ProblemId} (h : afterHintProblem cfg s d p o = some g) :
    StreamStep cfg s (.task (.hintProblem d p) o) g := by
  unfold afterHintProblem at h
  split at h
  · split_ifs at h
    · cases h; exact .of_end rfl rfl rfl ⟨rfl, rfl⟩ (by simp) rfl
    · cases h; exact .of_suspend rfl rfl rfl rfl rfl rfl rfl
    · cases h; exact .of_suspend rfl rfl rfl rfl rfl rfl rfl
  · cases h; exact .of_end rfl rfl rfl ⟨rfl, rfl⟩ (by simp) rfl
  · cases h; exact .of_end rfl rfl rfl ⟨rfl, rfl⟩ (by simp) rfl
  · cases h

theorem afterHintLimiter_stream (h : afterHintLimiter s d prompt o = some g) :
    StreamStep cfg s (.task (.hintLimiter d prompt) o) g := by
  unfold afterHintLimiter at h
  split at h <;> cases h
  · exact .of_suspend rfl rfl rfl rfl rfl rfl rfl
  · exact .of_end rfl rfl rfl ⟨rfl, rfl⟩ (by simp) rfl

theorem afterHintReserve_stream (h : afterHintReserve s d prompt o = some g) :
    StreamStep cfg s (.task (.hintReserve d prompt) o) g := by
  unfold afterHintReserve at h
  split at h <;> cases h
  · exact ⟨rfl, rfl, rfl, rfl, le_rfl⟩
  · exact .of_end rfl rfl rfl ⟨rfl, rfl⟩ (by simp) rfl
  · exact .of_end rfl rfl rfl ⟨rfl, rfl⟩ (by simp) rfl

theorem failHintStream_stream {generated : JsString} {closing : Bool} (reason : Failure)
    (hends : endsStream cfg (.task (.hintStream d prompt generated closing) o) = some false) :
    StreamStep cfg s (.task (.hintStream d prompt generated closing) o) (failHintStream s d reason) where
  streams := by rw [hends]; rfl
  flag := by simp [hends, startsStream, failHintStream, endHintStream, rejectHintRequest]
  used := by rw [hends]; rfl
  requests := llmRequests_eq_zero (by simp [failHintStream, endHintStream])
  past := Nat.zero_le _

theorem finishHintStream_stream {generated : JsString} {closing : Bool} :
    StreamStep cfg s (.task (.hintStream d prompt generated closing) .streamEnd)
      (finishHintStream cfg s d prompt generated) := by
  unfold finishHintStream
  split
  · rename_i message hsanitized
    refine failHintStream_stream _ ?_
    simp only [endsStream, hsanitized]
  · rename_i fullHint hsanitized
    have hends : endsStream cfg (.task (.hintStream d prompt generated closing) .streamEnd) =
        some true := by
      simp only [endsStream, hsanitized]
    refine ⟨?_, ?_, ?_, llmRequests_eq_zero ?_, Nat.zero_le _⟩
    · rw [hends]; rfl
    · simp [hends, startsStream, endHintStream]
    · rw [hends]; rfl
    · simp [endHintStream, Effect.family, Effect.isLlmRequest]

theorem afterHintStream_stream {generated : JsString} {closing : Bool}
    (h : afterHintStream cfg s d prompt generated closing o = some g) :
    StreamStep cfg s (.task (.hintStream d prompt generated closing) o) g := by
  unfold afterHintStream at h
  split at h
  · split_ifs at h
    cases h
    exact .of_suspend rfl rfl rfl rfl (by simp) rfl rfl
  · cases h; exact finishHintStream_stream
  · cases h; exact failHintStream_stream _ rfl
  · cases h

/-! ## Every segment -/

theorem taken_family (hf : triggerFamily t ≠ .hint) : ∀ task ∈ t.taken, task.family ≠ .hint := by
  intro task hm
  cases t with
  | event e => cases hm
  | task task' o =>
    rw [List.mem_singleton.mp hm]
    cases task' with
    | admitted => exact nofun
    | _ => exact hf

/-- Handlers of other families neither start nor end streams. -/
theorem StreamStep.of_within {f : Family} (h : Within f s g) (hne : f ≠ .hint)
    (hf : triggerFamily t ≠ .hint) : StreamStep cfg s t g := by
  have hcount : ∀ (p : Task → Bool) (tasks : List Task), (∀ task, task.family ≠ .hint → p task = false) →
      (∀ task ∈ tasks, task.family ≠ .hint) → tasks.countP p = 0 :=
    fun p tasks hp htasks => List.countP_eq_zero.mpr fun task hm => by simp [hp task (htasks task hm)]
  have hnext : ∀ task ∈ g.next, task.family ≠ .hint := fun task hm => by rwa [h.next task hm]
  refine .of_view ?_ ?_ ?_ (fun e he => ?_) ?_ ?_
  · unfold startsStream
    split
    · exact absurd rfl hf
    · rfl
  · unfold endsStream
    split
    · exact absurd rfl hf
    · exact absurd rfl hf
    · rfl
  · refine h.observe Server.streamView ?_
    cases f <;> first | exact fun _ => rfl | exact absurd rfl hne
  · have hfamily := h.out e he
    cases e <;> first | rfl | exact absurd (Option.some.inj hfamily).symm hne
  · rw [hcount _ _ (fun _ => Task.isStream_of_family) hnext,
      hcount _ _ (fun _ => Task.isStream_of_family) (taken_family hf)]
  · rw [hcount _ _ (fun _ => Task.pastLimit_of_family) hnext]
    exact Nat.zero_le _

/-- **Streams.** Only the end of a reservation starts a stream, and only the stream itself ends it. -/
theorem fire_stream (h : (server cfg).fire s t = some g) : StreamStep cfg s t g := by
  by_cases hf : triggerFamily t = .hint
  · cases t with
    | event e => cases hf
    | task t o =>
      change resumeTask cfg s t o = some g at h
      cases t with
      | admitted socket event seen =>
        cases o <;> cases h
        refine StartsDeliveries.streamStep ?_
        unfold runHandler
        split
        · exact .of_quiet rfl rfl rfl
        · cases event with
          | hintRequest =>
            dsimp only
            split_ifs
            · exact handleHintRequest_starts
            · exact .of_quiet rfl rfl rfl
          | hintApprove =>
            dsimp only
            split_ifs
            · exact handleHintApprove_starts
            · exact .of_quiet rfl rfl rfl
          | hintDeny =>
            dsimp only
            split_ifs
            · exact handleHintDeny_starts
            · exact .of_quiet rfl rfl rfl
          | _ => cases hf
      | hintStored d => exact afterStoredHint_stream h
      | hintIpLimiter d => exact afterHintIpLimiter_stream h
      | hintQuota d => exact afterHintQuota_stream h
      | hintProblem d p => exact afterHintProblem_stream h
      | hintLimiter d prompt => exact afterHintLimiter_stream h
      | hintReserve d prompt => exact afterHintReserve_stream h
      | hintStream d prompt generated closing => exact afterHintStream_stream h
      | hintFailing d reason =>
        cases o <;> cases h
        exact afterHintFailure_stream reason rfl rfl rfl
      | _ => cases hf
  · exact .of_within (fire_within h) hf hf

end CodeShare
