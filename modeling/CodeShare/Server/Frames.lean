import CodeShare.Server.System

/-! # What each handler leaves alone

Segments fall into families, one for each group of handlers. A segment of a family leaves only tasks
of that family behind, writes only notes of that family and changes only the family's fields;
`Family.erase` blanks exactly these, so that "nothing else changes" is one equation (`fire_within`).
Facts about single fields follow from it.
-/

namespace CodeShare
open Tasks
set_option autoImplicit false

/-! ## Families -/

inductive Family where
  | outside
  | join
  | execution
  | hint
  | problem
  | testCase
  | reveal
  deriving DecidableEq

def ClientEvent.family : ClientEvent → Family
  | userJoin _ => .join
  | problemSelect _ | problemImport _ => .problem
  | codeRun | codeSubmit => .execution
  | hintRequest | hintApprove | hintDeny => .hint
  | solutionReveal => .reveal
  | testcaseAdd _ => .testCase

/-- The family of a task that a handler left behind; an admitted event belongs to no handler yet. -/
def Task.family : Task → Family
  | admitted _ _ _ => .outside
  | joinLimiter _ _ | hydrating _ _ _ => .join
  | executionIpLimiter _ | executionCases _ _ _ | executionRest _ _ _ _ | executionLimiter _ _
  | executionReserve _ _ | executionJudge0 _ _ _ | executionSettling _ _ _ => .execution
  | hintStored _ | hintIpLimiter _ | hintQuota _ | hintProblem _ _ | hintLimiter _ _
  | hintReserve _ _ | hintStream _ _ _ _ | hintFailing _ _ => .hint
  | selecting _ _ | importIpLimiter _ _ | importQuota _ _ | importLimiter _ _ | importReserve _ _
  | importScrape _ _ | importLoad _ _ | importFailing _ _ => .problem
  | addingTestCase _ _ _ => .testCase
  | revealing _ _ => .reveal

/-- The family of the code that a trigger runs. -/
def triggerFamily : ServerTrigger → Family
  | .event _ => .outside
  | .task (.admitted _ event _) _ => event.family
  | .task t _ => t.family

/-! ## Notes -/

/-- The family whose handlers write an effect; messages and lost promises are not looked at. -/
def Effect.family : Effect → Option Family
  | deliver _ _ | unhandledRejection => none
  | judge0Submit _ _ | executionReserved _ | executionFinished _ | customCasesLoaded _ _ =>
    some .execution
  | llmRequest _ | hintCharged _ _ _ | hintApproved _ _ => some .hint
  | importProblem _ | problemSwitched _ => some .problem

/-- The outputs without messages. -/
def notes (out : List Effect) : List Effect := out.filter fun e => e.family.isSome

@[simp] theorem notes_nil : notes [] = [] := rfl

@[simp] theorem notes_append (out out' : List Effect) : notes (out ++ out') = notes out ++ notes out' :=
  List.filter_append _ _

@[simp] theorem notes_cons (e : Effect) (out : List Effect) :
    notes (e :: out) = if e.family.isSome then e :: notes out else notes out :=
  List.filter_cons

/-- What is read from the notes alone. -/
theorem filterMap_notes {α : Type} {F : Effect → Option α} (hF : ∀ e, e.family = none → F e = none)
    (out : List Effect) : out.filterMap F = (notes out).filterMap F := by
  induction out with
  | nil => rfl
  | cons e out ih =>
    rw [notes_cons]
    split_ifs with he
    · rw [List.filterMap_cons, List.filterMap_cons, ih]
    · have hnone : e.family = none := by simpa using he
      rw [List.filterMap_cons, hF e hnone, ih]

/-- Nothing is read from the notes of other families. -/
theorem filterMap_eq_nil_of_notes {α : Type} {F : Effect → Option α} {f : Family}
    (hF : ∀ e, e.family ≠ some f → F e = none) {out : List Effect}
    (hout : ∀ e ∈ notes out, e.family ≠ some f) : out.filterMap F = [] := by
  rw [filterMap_notes (fun e he => hF e (by simp [he])), List.filterMap_eq_nil_iff]
  exact fun e he => hF e (hout e he)

theorem notes_deliveries (sockets : List SocketId) (m : Message) :
    notes (sockets.map (.deliver · m)) = [] := by
  unfold notes
  rw [List.filter_eq_nil_iff]
  intro e he
  obtain ⟨socket, -, rfl⟩ := List.mem_map.mp he
  simp [Effect.family]

section
variable (g : Step) (socket : SocketId) (m : Message)

@[simp] theorem notes_toSocket : notes (g.toSocket socket m).out = notes g.out := by
  unfold Tasks.Segment.toSocket
  rw [Segment.emits_out, notes_append]
  split_ifs
  · exact List.append_nil _
  · exact List.append_nil _

@[simp] theorem notes_toRoom : notes (g.toRoom m).out = notes g.out := by
  unfold Tasks.Segment.toRoom
  rw [Segment.emits_out, notes_append, notes_deliveries, List.append_nil]

@[simp] theorem notes_toOthers : notes (g.toOthers socket m).out = notes g.out := by
  unfold Tasks.Segment.toOthers
  rw [Segment.emits_out, notes_append, notes_deliveries, List.append_nil]

@[simp] theorem notes_syncRoom : notes g.syncRoom.out = notes g.out := by
  unfold Tasks.Segment.syncRoom
  rw [Segment.emits_out, notes_append, notes_deliveries, List.append_nil]

end

section
variable (g : Step) (socket : SocketId) (message : JsString) (x : Execution)
  (errorType : ExecutionErrorType) (seconds : Option ℕ)

@[simp] theorem notes_executionErrorToSocket :
    notes (executionErrorToSocket g x errorType message).out = notes g.out :=
  notes_toSocket g _ _

@[simp] theorem notes_executionErrorToRoom :
    notes (executionErrorToRoom g errorType message).out = notes g.out :=
  notes_toRoom g _

@[simp] theorem notes_settle (reserved : Bool) (failure : Option Failure) :
    notes (settle g x reserved failure).out = notes g.out :=
  rfl

@[simp] theorem notes_rejectHintRequest :
    notes (rejectHintRequest g socket message).out = notes g.out :=
  notes_toSocket g _ _

@[simp] theorem notes_clearPendingHintRequest :
    notes (clearPendingHintRequest g).out = notes g.out :=
  notes_syncRoom _

@[simp] theorem notes_emitHintDelivered : notes (emitHintDelivered g message).out = notes g.out :=
  notes_toRoom g _

@[simp] theorem notes_emitProblemLoadError :
    notes (emitProblemLoadError g socket message).out = notes g.out :=
  notes_toSocket g _ _

@[simp] theorem notes_importFailedToSender :
    notes (importFailedToSender g socket message seconds).out = notes g.out :=
  notes_toSocket g _ _

@[simp] theorem notes_emitTestcaseError :
    notes (emitTestcaseError g socket message).out = notes g.out :=
  notes_toSocket g _ _

@[simp] theorem notes_emitJoinRejected :
    notes (emitJoinRejected g socket message seconds).out = notes g.out :=
  notes_toSocket g _ _

end

/-! ## Erasing a family's fields -/

namespace Server

/-- Users, sockets, timers and tokens; leaving may also end a pending hint request. -/
def eraseSeats (s : Server) : Server :=
  { s with
    room := { s.room with
      users := [], gracePeriodTimers := [], yjsToken := 0, lastActivityAt := 0
      pendingHintRequest := none }
    live := [], joined := [], timers := [], consentTimer := none, registered := true
    fresh := 0, nextTimer := 0, nextSocket := 0 }

/-- The same for what happens outside the handlers, with the clock and the document. -/
def eraseOutside (s : Server) : Server := { s.eraseSeats with now := 0, doc := none }

/-- The lock and the count of executions. -/
def eraseLock (s : Server) : Server :=
  { s with
    room := { s.room with executionInProgress := false, submissionsUsed := 0, lastActivityAt := 0 }
    nextHandler := 0 }

/-- Requests and deliveries of hints. -/
def eraseHints (s : Server) : Server :=
  { s with
    room := { s.room with
      hintsUsed := 0, hintHistory := [], pendingHintRequest := none, hintStreaming := false
      llmCallsUsed := 0 }
    lastHintRequestTime := fun _ => none
    timers := [], consentTimer := none, nextTimer := 0, nextRequest := 0 }

/-- What a new problem resets, and the document. -/
def eraseProblem (s : Server) : Server :=
  { s with
    room := { s.room with
      problemId := none, hintLimit := 0, hintsUsed := 0, hintHistory := []
      pendingHintRequest := none, customTestCases := [], lastActivityAt := 0, importsUsed := 0 }
    doc := none }

/-- The custom test cases. -/
def eraseCases (s : Server) : Server :=
  { s with room := { s.room with customTestCases := [], lastActivityAt := 0 } }

end Server

/-- The state without the fields that a family may change. -/
def Family.erase : Family → Server → Server
  | outside => Server.eraseOutside
  | join => Server.eraseSeats
  | execution => Server.eraseLock
  | hint => Server.eraseHints
  | problem => Server.eraseProblem
  | testCase => Server.eraseCases
  | reveal => id

/-- A segment of a family: outside the erased fields nothing changes, and the new tasks and notes are
of the family. -/
structure Within (f : Family) (s : Server) (g : Step) : Prop where
  state : f.erase g.state = f.erase s
  next : ∀ t ∈ g.next, t.family = f
  out : ∀ e ∈ notes g.out, e.family = some f

namespace Within
variable {f : Family} {s : Server} {g : Step}

theorem of_quiet (hstate : g.state = s) (hnext : g.next = []) (hout : notes g.out = []) :
    Within f s g where
  state := by rw [hstate]
  next := by simp [hnext]
  out := by simp [hout]

theorem of_suspend {t : Task} (hstate : g.state = s) (hnext : g.next = [t]) (hfamily : t.family = f)
    (hout : ∀ e ∈ notes g.out, e.family = some f) : Within f s g where
  state := by rw [hstate]
  next := by simp [hnext, hfamily]
  out := hout

theorem of_state (hstate : f.erase g.state = f.erase s) (hnext : g.next = [])
    (hout : ∀ e ∈ notes g.out, e.family = some f) : Within f s g where
  state := hstate
  next := by simp [hnext]
  out := hout

/-- What the erased fields do not show is as before. -/
theorem observe {α : Type} (h : Within f s g) (φ : Server → α) (hφ : ∀ s, φ (f.erase s) = φ s) :
    φ g.state = φ s := by
  rw [← hφ g.state, h.state, hφ]

end Within

/-- A segment that goes on with less: no new tasks, no notes. -/
structure Continues (f : Family) (g g' : Step) : Prop where
  state : f.erase g'.state = f.erase g.state
  next : g'.next = g.next
  out : notes g'.out = notes g.out

namespace Continues
variable {f : Family} {s s' : Server} {g g' g'' : Step}

theorem refl (f : Family) (g : Step) : Continues f g g := ⟨rfl, rfl, rfl⟩

theorem trans (h : Continues f g g') (h' : Continues f g' g'') : Continues f g g'' :=
  ⟨h'.state.trans h.state, h'.next.trans h.next, h'.out.trans h.out⟩

theorem within (h : Continues f (.of s') g) (hstate : f.erase s' = f.erase s) : Within f s g :=
  .of_state (h.state.trans hstate) h.next (by simp [h.out])

end Continues

variable {cfg : Config} {s : Server} {o : Outcome} {g : Step}

/-! ## Executions -/

section Executions
variable {x : Execution}

theorem createExecutionSession_within (s : Server) (socket : SocketId) (t : ExecutionType) :
    Within .execution s (createExecutionSession s socket t) := by
  unfold createExecutionSession
  split
  · exact .of_quiet rfl rfl (by simp)
  · split_ifs
    · exact .of_quiet rfl rfl (by simp)
    · exact ⟨rfl, by simp [Task.family], by simp⟩

theorem startExecution_within (cfg : Config) (s : Server) (x : Execution) (p : ProblemId) :
    Within .execution s (startExecution cfg s x p) := by
  unfold startExecution
  dsimp only
  split_ifs
  · exact ⟨rfl, by simp [Task.family], by simp⟩
  · exact ⟨rfl, by simp [settle, executionErrorToRoom, Task.family], by simp⟩

theorem afterExecutionIpLimiter_within (h : afterExecutionIpLimiter cfg s x o = some g) :
    Within .execution s g := by
  unfold afterExecutionIpLimiter at h
  split at h
  · split at h <;> cases h
    · exact .of_quiet rfl rfl (by simp)
    · exact startExecution_within cfg s x _
  · cases h; exact .of_quiet rfl rfl (by simp)
  · cases h; exact .of_quiet rfl rfl (by simp [Effect.family])
  · cases h

theorem afterExecutionCases_within {code : JsString} {p : ProblemId}
    (h : afterExecutionCases s x code p o = some g) : Within .execution s g := by
  unfold afterExecutionCases at h
  split at h
  · split_ifs at h
    split at h <;> cases h
    · exact .of_suspend rfl rfl rfl (by simp)
    · exact .of_suspend rfl rfl rfl (by simp [Effect.family])
  · cases h; exact .of_suspend rfl rfl rfl (by simp)
  · cases h

theorem afterExecutionRest_within {code : JsString} {p : ProblemId} {cases : List TestCase}
    (h : afterExecutionRest cfg s x code p cases o = some g) : Within .execution s g := by
  unfold afterExecutionRest at h
  split at h
  · split_ifs at h <;> cases h <;> exact .of_suspend rfl rfl rfl (by simp)
  · cases h; exact .of_suspend rfl rfl rfl (by simp)
  · cases h; exact .of_suspend rfl rfl rfl (by simp)
  · cases h

theorem afterExecutionLimiter_within {loaded : LoadedExecutionResources}
    (h : afterExecutionLimiter s x loaded o = some g) : Within .execution s g := by
  unfold afterExecutionLimiter at h
  split at h <;> cases h <;> exact .of_suspend rfl rfl rfl (by simp)

theorem afterExecutionReserve_within {loaded : LoadedExecutionResources}
    (h : afterExecutionReserve s x loaded o = some g) : Within .execution s g := by
  unfold afterExecutionReserve at h
  split at h <;> cases h
  · exact .of_suspend rfl rfl rfl (by simp [Effect.family])
  · exact .of_suspend rfl rfl rfl (by simp)
  · exact .of_suspend rfl rfl rfl (by simp)

theorem afterExecutionJudge0_within {loaded : LoadedExecutionResources} {nonce : JsString}
    (h : afterExecutionJudge0 cfg s x loaded nonce o = some g) : Within .execution s g := by
  unfold afterExecutionJudge0 at h
  split at h
  · split at h
    · cases h; exact .of_suspend rfl rfl rfl (by simp)
    · split at h <;> cases h <;> exact .of_suspend rfl rfl rfl (by simp)
  · cases h; exact .of_suspend rfl rfl rfl (by simp)
  · cases h

theorem afterExecutionSettling_within (s : Server) (x : Execution) (reserved : Bool)
    (failure : Option Failure) :
    Within .execution s (afterExecutionSettling s x reserved failure) := by
  cases failure <;>
    exact .of_state rfl rfl (by simp [afterExecutionSettling, finishExecution, Effect.family])

end Executions

/-! ## Hints -/

section Hints
variable {d : Delivery} {prompt : HintPrompt}

theorem sendPendingHintRequest_continues (cfg : Config) (g : Step) (socket : SocketId) :
    Continues .hint g (sendPendingHintRequest cfg g socket) := by
  unfold sendPendingHintRequest
  split
  · exact .refl _ _
  · dsimp only
    split
    · exact ⟨rfl, rfl, by simp⟩
    · split
      · exact ⟨rfl, rfl, by simp⟩
      · refine ⟨?_, rfl, by simp⟩
        simp only [Segment.modify_state, Segment.toSocket_state, Segment.syncRoom_state,
          startConsentTimer, Server.clearConsentTimer, Server.setTimeout, Server.clearTimeout]
        split <;> rfl

theorem clearConsentTimer_eraseHints (s : Server) : s.clearConsentTimer.eraseHints = s.eraseHints := by
  unfold Server.clearConsentTimer Server.clearTimeout
  split <;> rfl

theorem handleHintRequest_within (cfg : Config) (s : Server) (socket : SocketId) :
    Within .hint s (handleHintRequest cfg s socket) := by
  have hstate : (getHintRequestRejection cfg s socket).1.eraseHints = s.eraseHints := by
    unfold getHintRequestRejection
    split_ifs <;> rfl
  unfold handleHintRequest
  generalize getHintRequestRejection cfg s socket = r at hstate
  obtain ⟨s', message⟩ := r
  cases message with
  | some message => exact .of_state hstate rfl (by simp)
  | none =>
    dsimp only
    split_ifs
    · exact ⟨hstate, by simp [deliverHint, Task.family], by simp [deliverHint]⟩
    · exact (sendPendingHintRequest_continues cfg _ socket).within hstate

theorem handleHintApprove_within (s : Server) (socket : SocketId) (seen : Option SeenRequest) :
    Within .hint s (handleHintApprove s socket seen) := by
  unfold handleHintApprove
  split
  · exact .of_quiet rfl rfl (by simp)
  · exact ⟨clearConsentTimer_eraseHints s, by simp [deliverHint, clearPendingHintRequest, Task.family],
      by simp [deliverHint, Effect.family]⟩

theorem denyPendingHintRequest_spec (g : Step) (request : PendingRequest) :
    (denyPendingHintRequest g request).state = (clearPendingHintRequest g).state ∧
      (denyPendingHintRequest g request).next = g.next ∧
      notes (denyPendingHintRequest g request).out = notes g.out := by
  unfold denyPendingHintRequest
  dsimp only
  split <;> exact ⟨rfl, rfl, by simp⟩

theorem denyPendingHintRequest_continues (g : Step) (request : PendingRequest) :
    Continues .hint g (denyPendingHintRequest g request) := by
  obtain ⟨hstate, hnext, hout⟩ := denyPendingHintRequest_spec g request
  exact ⟨by rw [hstate]; rfl, hnext, hout⟩

theorem handleHintDeny_within (s : Server) : Within .hint s (handleHintDeny s) := by
  unfold handleHintDeny
  split
  · exact .of_quiet rfl rfl (by simp)
  · exact (denyPendingHintRequest_continues _ _).within (clearConsentTimer_eraseHints s)

theorem prepareLLMHintRequest_within (cfg : Config) (s : Server) (d : Delivery) :
    Within .hint s (prepareLLMHintRequest cfg s d) := by
  unfold prepareLLMHintRequest
  split_ifs
  · exact .of_quiet rfl rfl (by simp)
  · exact .of_quiet rfl rfl (by simp)
  · exact .of_suspend rfl rfl rfl (by simp)

theorem afterHintFailure_within (s : Server) (d : Delivery) (reason : Failure) :
    Within .hint s (afterHintFailure s d reason) := by
  cases reason <;> exact .of_quiet rfl rfl (by simp [afterHintFailure])

theorem afterStoredHint_within (h : afterStoredHint cfg s d o = some g) : Within .hint s g := by
  unfold afterStoredHint at h
  split at h
  · split_ifs at h
    cases h
    exact .of_state rfl rfl (by simp [deliverStoredHint, Effect.family])
  · cases h; exact prepareLLMHintRequest_within cfg s d
  · cases h; exact afterHintFailure_within s d _
  · cases h

theorem afterHintIpLimiter_within (h : afterHintIpLimiter s d o = some g) : Within .hint s g := by
  unfold afterHintIpLimiter at h
  split at h <;> cases h
  · exact .of_suspend rfl rfl rfl (by simp)
  · exact .of_quiet rfl rfl (by simp)
  · exact .of_suspend rfl rfl rfl (by simp)

theorem afterHintQuota_within (h : afterHintQuota cfg s d o = some g) : Within .hint s g := by
  unfold afterHintQuota at h
  split at h
  · split_ifs at h
    · cases h; exact .of_quiet rfl rfl (by simp)
    · split at h <;> cases h
      exact .of_suspend rfl rfl rfl (by simp)
  · cases h; exact .of_quiet rfl rfl (by simp)
  · cases h; exact .of_suspend rfl rfl rfl (by simp)
  · cases h

theorem afterHintProblem_within {p : ProblemId} (h : afterHintProblem cfg s d p o = some g) :
    Within .hint s g := by
  unfold afterHintProblem at h
  split at h
  · split_ifs at h <;> cases h
    · exact .of_quiet rfl rfl (by simp)
    · exact .of_suspend rfl rfl rfl (by simp)
    · exact .of_suspend rfl rfl rfl (by simp)
  · cases h; exact .of_quiet rfl rfl (by simp)
  · cases h; exact .of_suspend rfl rfl rfl (by simp)
  · cases h

theorem afterHintLimiter_within (h : afterHintLimiter s d prompt o = some g) : Within .hint s g := by
  unfold afterHintLimiter at h
  split at h <;> cases h <;> exact .of_suspend rfl rfl rfl (by simp)

theorem afterHintReserve_within (h : afterHintReserve s d prompt o = some g) : Within .hint s g := by
  unfold afterHintReserve at h
  split at h <;> cases h
  · exact ⟨rfl, by simp [Task.family], by simp [Effect.family]⟩
  · exact .of_quiet rfl rfl (by simp)
  · exact .of_suspend rfl rfl rfl (by simp)

theorem finishHintStream_within (cfg : Config) (s : Server) (d : Delivery) (prompt : HintPrompt)
    (generated : JsString) : Within .hint s (finishHintStream cfg s d prompt generated) := by
  unfold finishHintStream
  split
  · exact .of_state rfl rfl (by simp [failHintStream, endHintStream])
  · exact .of_state rfl rfl (by simp [endHintStream, Effect.family])

theorem afterHintStream_within {generated : JsString} {closing : Bool}
    (h : afterHintStream cfg s d prompt generated closing o = some g) : Within .hint s g := by
  unfold afterHintStream at h
  split at h
  · split_ifs at h
    cases h
    exact .of_suspend rfl rfl rfl (by simp)
  · cases h; exact finishHintStream_within cfg s d prompt generated
  · cases h; exact .of_state rfl rfl (by simp [failHintStream, endHintStream])
  · cases h

end Hints

/-! ## Problems, test cases and solutions -/

section Problems
variable {socket : SocketId} {p : ProblemId} {url : JsString}

theorem handleProblemSelect_within (s : Server) (socket : SocketId) (id : Option ProblemId) :
    Within .problem s (handleProblemSelect s socket id) := by
  unfold handleProblemSelect
  split
  · exact .of_quiet rfl rfl (by simp)
  · exact .of_quiet rfl rfl (by simp)
  · exact .of_suspend rfl rfl rfl (by simp)

theorem handleProblemImport_within (cfg : Config) (s : Server) (socket : SocketId)
    (url : Option JsString) : Within .problem s (handleProblemImport cfg s socket url) := by
  unfold handleProblemImport
  split
  · exact .of_quiet rfl rfl (by simp)
  · split_ifs
    · exact .of_quiet rfl rfl (by simp)
    · split
      · exact .of_quiet rfl rfl (by simp)
      · exact .of_suspend rfl rfl rfl (by simp)

theorem loadProblemIntoRoom_within (cfg : Config) (s : Server) (detail : ProblemDetail) :
    Within .problem s (loadProblemIntoRoom cfg (.of s) detail) :=
  .of_state rfl rfl (by simp [loadProblemIntoRoom, Effect.family])

theorem afterSelecting_within (h : afterSelecting cfg s socket p o = some g) : Within .problem s g := by
  unfold afterSelecting at h
  split at h
  · split_ifs at h
    cases h
    exact loadProblemIntoRoom_within cfg s _
  · cases h; exact .of_quiet rfl rfl (by simp)
  · cases h; exact .of_quiet rfl rfl (by simp)
  · cases h

theorem afterImportIpLimiter_within (h : afterImportIpLimiter s socket url o = some g) :
    Within .problem s g := by
  unfold afterImportIpLimiter at h
  split at h
  · split_ifs at h <;> cases h
    · exact .of_quiet rfl rfl (by simp)
    · exact .of_suspend rfl rfl rfl (by simp)
  · cases h; exact .of_quiet rfl rfl (by simp)
  · cases h; exact .of_quiet rfl rfl (by simp [Effect.family])
  · cases h

theorem afterImportQuota_within (h : afterImportQuota cfg s socket url o = some g) :
    Within .problem s g := by
  unfold afterImportQuota at h
  split at h
  · dsimp only at h
    split_ifs at h <;> cases h <;> exact .of_suspend rfl rfl rfl (by simp)
  · cases h; exact .of_quiet rfl rfl (by simp)
  · cases h; exact .of_quiet rfl rfl (by simp [Effect.family])
  · cases h

theorem afterImportLimiter_within (h : afterImportLimiter s socket url o = some g) :
    Within .problem s g := by
  unfold afterImportLimiter at h
  split at h <;> cases h <;> exact .of_suspend rfl rfl rfl (by simp)

theorem afterImportReserve_within (h : afterImportReserve s socket url o = some g) :
    Within .problem s g := by
  unfold afterImportReserve at h
  split at h <;> cases h
  · exact .of_suspend rfl rfl rfl (by simp [Effect.family])
  · exact .of_quiet rfl rfl (by simp)
  · exact .of_suspend rfl rfl rfl (by simp)

theorem afterImportScrape_within (h : afterImportScrape s socket o = some g) : Within .problem s g := by
  unfold afterImportScrape at h
  split at h <;> cases h <;> exact .of_suspend rfl rfl rfl (by simp)

theorem afterImportFailure_within (s : Server) (socket : SocketId) (reason : Failure) :
    Within .problem s (afterImportFailure s socket reason) := by
  cases reason <;> exact .of_quiet rfl rfl (by simp [afterImportFailure])

theorem afterImportLoad_within (h : afterImportLoad cfg s socket p o = some g) :
    Within .problem s g := by
  unfold afterImportLoad at h
  split at h
  · split_ifs at h
    cases h
    exact .of_state rfl rfl (by simp [loadProblemIntoRoom, Effect.family])
  · cases h; exact afterImportFailure_within s socket _
  · cases h; exact afterImportFailure_within s socket _
  · cases h

theorem handleTestcaseAdd_within (s : Server) (socket : SocketId) (data : Option CustomTestCase) :
    Within .testCase s (handleTestcaseAdd s socket data) := by
  rcases handleTestcaseAdd_cases s socket data with ⟨-, heq⟩ | ⟨message, heq⟩ | ⟨testCase, p, -, heq⟩
  · rw [heq]
    exact .of_quiet rfl rfl (by simp)
  · rw [heq]
    exact .of_quiet rfl rfl (by simp)
  · rw [heq]
    exact .of_suspend rfl rfl rfl (by simp)

theorem afterAddingTestCase_within {testCase : CustomTestCase}
    (h : afterAddingTestCase s socket testCase p o = some g) : Within .testCase s g := by
  rcases afterAddingTestCase_cases h with ⟨message, -, rfl⟩ | ⟨found, -, -, rfl⟩
  · exact .of_quiet rfl rfl (by simp)
  · exact .of_state rfl rfl (by simp)

theorem handleSolutionReveal_within (s : Server) (socket : SocketId) :
    Within .reveal s (handleSolutionReveal s socket) := by
  unfold handleSolutionReveal
  split
  · exact .of_quiet rfl rfl (by simp)
  · split_ifs
    · exact .of_quiet rfl rfl (by simp)
    · split
      · exact .of_quiet rfl rfl (by simp)
      · exact .of_suspend rfl rfl rfl (by simp)

theorem afterRevealing_within (h : afterRevealing cfg s socket p o = some g) :
    Within .reveal s g := by
  unfold afterRevealing at h
  split at h
  · split_ifs at h
    split at h <;> cases h <;> exact .of_quiet rfl rfl (by simp)
  · cases h; exact .of_quiet rfl rfl (by simp)
  · cases h; exact .of_quiet rfl rfl (by simp)
  · cases h

end Problems

/-! ## Joining and leaving -/

section Seats
variable {socket : SocketId}

theorem clearConsentTimer_eraseSeats (s : Server) : s.clearConsentTimer.eraseSeats = s.eraseSeats := by
  unfold Server.clearConsentTimer Server.clearTimeout
  split <;> rfl

theorem destroyRoom_eraseSeats (s : Server) : (destroyRoom s).eraseSeats = s.eraseSeats := by
  unfold destroyRoom
  split_ifs <;> rfl

theorem handleDisconnect_continues (g : Step) (socket : SocketId) :
    Continues .join g (handleDisconnect g socket) := by
  unfold handleDisconnect
  split_ifs
  · exact .refl _ _
  · split
    · exact .refl _ _
    · exact ⟨rfl, rfl, by simp⟩

theorem handleRequesterDisconnect_continues (g : Step) :
    Continues .join g (handleRequesterDisconnect g) := by
  unfold handleRequesterDisconnect
  split
  · exact .refl _ _
  · split
    · exact .refl _ _
    · split_ifs
      · exact .refl _ _
      · exact ⟨clearConsentTimer_eraseSeats g.state, rfl, by simp⟩

theorem disconnectSocket_continues (g : Step) (socket : SocketId) :
    Continues .join g (disconnectSocket g socket) := by
  unfold disconnectSocket
  split_ifs
  · dsimp only
    have hclose : Continues .join g (g.modify fun s => { s with
        live := s.live.filter (· ≠ socket)
        joined := s.joined.filter (· ≠ socket) }) := ⟨rfl, rfl, rfl⟩
    have hleave := hclose.trans (handleDisconnect_continues _ socket)
    split_ifs
    · exact hleave.trans (handleRequesterDisconnect_continues _)
    · exact hleave
  · exact .refl _ _

theorem emitJoinedPayload_within {g : Step} (hstate : g.state.eraseSeats = s.eraseSeats)
    (hnext : g.next = []) (hout : notes g.out = []) (socket : SocketId) (user : RoomUserInternal)
    (announced : Option RoomUser) : Within .join s (emitJoinedPayload g socket user announced) where
  state := by
    refine Eq.trans ?_ hstate
    change Server.eraseSeats (emitJoinedPayload g socket user announced).state = _
    unfold emitJoinedPayload
    simp only [Segment.suspend_state, Segment.toSocket_state, Segment.modify_state]
    split_ifs <;> rfl
  next := by simp [emitJoinedPayload, hnext, Task.family]
  out := by simp [emitJoinedPayload, hout]

theorem handleUserJoin_within (s : Server) (socket : SocketId) (payload : Option UserJoinPayload) :
    Within .join s (handleUserJoin s socket payload) := by
  unfold handleUserJoin
  split
  · exact .of_quiet rfl rfl (by simp)
  · split
    · exact .of_quiet rfl rfl (by simp)
    · split
      · exact emitJoinedPayload_within (g := .of s) rfl rfl rfl socket _ none
      · exact .of_suspend rfl rfl rfl (by simp)

theorem takeSeat_within (s : Server) (socket : SocketId) (payload : UserJoinPayload) :
    Within .join s (takeSeat s socket payload) := by
  unfold takeSeat
  split
  · exact emitJoinedPayload_within (s := s) (g := .of (reconnectUser s _ socket)) rfl rfl rfl socket _ _
  · split_ifs
    · have h := disconnectSocket_continues ((Segment.of s).toSocket socket .roomFull) socket
      exact .of_state h.state h.next (by simp [h.out])
    · exact emitJoinedPayload_within (s := s) (g := .of (addUser s _ socket)) rfl rfl rfl socket _ _

theorem afterJoinLimiter_within {payload : UserJoinPayload}
    (h : afterJoinLimiter s socket payload o = some g) : Within .join s g := by
  unfold afterJoinLimiter at h
  split at h <;> cases h
  · exact takeSeat_within s socket payload
  · exact .of_quiet rfl rfl (by simp)
  · exact .of_quiet rfl rfl (by simp [Effect.family])

theorem emitPresenceBroadcast_within {g : Step} (hstate : g.state = s) (hnext : g.next = [])
    (hout : notes g.out = []) (socket : SocketId) (announced : Option RoomUser) :
    Within .join s (emitPresenceBroadcast g socket announced) := by
  cases announced <;> exact .of_quiet hstate hnext (by simp [emitPresenceBroadcast, hout])

theorem afterHydration_within {p : Option ProblemId} {announced : Option RoomUser}
    (h : afterHydration cfg s socket p announced o = some g) : Within .join s g := by
  unfold afterHydration at h
  split at h
  · split_ifs at h
    cases h
    exact emitPresenceBroadcast_within (g := .of s) rfl rfl rfl socket announced
  · split_ifs at h
    cases h
    exact emitPresenceBroadcast_within (g := (Segment.of s).toSocket socket _) rfl rfl (by simp)
      socket announced
  · split_ifs at h
    cases h
    exact emitPresenceBroadcast_within (g := .of s) rfl rfl rfl socket announced
  · split_ifs at h
    cases h
    exact emitPresenceBroadcast_within (g := .of s) rfl rfl rfl socket announced
  · cases h

end Seats

/-! ## Outside the handlers -/

theorem Continues.outside {g g' : Step} (h : Continues .join g g') : Continues .outside g g' where
  state := by
    change g'.state.eraseOutside = g.state.eraseOutside
    unfold Server.eraseOutside
    rw [show g'.state.eraseSeats = g.state.eraseSeats from h.state]
  next := h.next
  out := h.out

theorem handleTimeout_continues (s : Server) (timer : Timer) :
    Continues .join (.of s) (handleTimeout s timer) := by
  unfold handleTimeout
  dsimp only
  split
  · unfold handleGraceTimeout removeDisconnectedUser
    split
    · exact ⟨rfl, rfl, rfl⟩
    · dsimp only
      split_ifs
      · exact ⟨rfl, rfl, rfl⟩
      · exact ⟨rfl, rfl, by simp⟩
      · exact ⟨(destroyRoom_eraseSeats _).trans rfl, rfl, rfl⟩
  · unfold handleConsentTimeout
    dsimp only
    split
    · exact ⟨rfl, rfl, rfl⟩
    · obtain ⟨hstate, hnext, hout⟩ := denyPendingHintRequest_spec
        (.of { s.clearTimeout timer.id with consentTimer := none }) ‹PendingRequest›
      exact ⟨by rw [hstate]; rfl, hnext, hout⟩

theorem authMiddleware_state (s : Server) (socket : SocketId) (event : ClientEvent) :
    (authMiddleware s socket event).state = s := by
  unfold authMiddleware
  split
  · rfl
  · split
    · rfl
    · split
      · rfl
      · split <;> rfl

/-- What the middleware lets pass: an event of a user of the room that no check rejects. -/
theorem authMiddleware_next (s : Server) (socket : SocketId) (event : ClientEvent) :
    (authMiddleware s socket event).next = [] ∨
      (∃ payload, event = .userJoin payload ∧
        (authMiddleware s socket event).next = [.admitted socket event none]) ∨
      ∃ user ∈ s.room.users, user.socketId = some socket ∧ eventRejection s.room user event = none ∧
        (authMiddleware s socket event).next =
          [.admitted socket event (seenRequest s.room user event)] := by
  unfold authMiddleware
  split
  · exact Or.inr (Or.inl ⟨_, rfl, rfl⟩)
  · unfold Server.getRoom
    split
    · exact Or.inl rfl
    · rename_i room hroom
      obtain rfl : s.room = room := by
        split_ifs at hroom
        exact Option.some.inj hroom
      split
      · exact Or.inl rfl
      · rename_i user huser
        split
        · exact Or.inl rfl
        · rename_i hreject
          have hmem := List.mem_of_find?_eq_some huser
          have hsocket := List.find?_some huser
          exact Or.inr (Or.inr ⟨user, hmem, by simpa using hsocket, hreject, rfl⟩)

theorem authMiddleware_out (s : Server) (socket : SocketId) (event : ClientEvent) :
    notes (authMiddleware s socket event).out = [] := by
  unfold authMiddleware
  split
  · rfl
  · split
    · rfl
    · split
      · rfl
      · split
        · simp
        · rfl

theorem handleEvent_within {e : ServerEvent} (h : handleEvent cfg s e = some g) :
    Within .outside s g := by
  unfold handleEvent at h
  split at h
  · cases h; exact .of_state rfl rfl (by simp)
  · split_ifs at h
    cases h
    refine ⟨by rw [authMiddleware_state], fun t ht => ?_, by simp [authMiddleware_out]⟩
    rcases authMiddleware_next s _ _ with hn | ⟨_, -, hn⟩ | ⟨_, -, -, -, hn⟩
    · rw [hn] at ht
      cases ht
    · rw [hn, List.mem_singleton] at ht
      rw [ht]
      rfl
    · rw [hn, List.mem_singleton] at ht
      rw [ht]
      rfl
  · split_ifs at h
    cases h
    exact .of_quiet rfl rfl (by simp)
  · split_ifs at h
    cases h
    exact (disconnectSocket_continues _ _).outside.within rfl
  · split at h
    · cases h
    · split_ifs at h
      cases h
      exact (handleTimeout_continues _ _).outside.within rfl
  · split_ifs at h
    cases h
    have hidle : Continues .join (.of s) (.of (destroyIdleRoom cfg s)) := by
      refine ⟨?_, rfl, rfl⟩
      unfold destroyIdleRoom
      simp only [Segment.of_state]
      split_ifs
      · rfl
      · exact destroyRoom_eraseSeats s
    exact hidle.outside.within rfl
  · cases h; exact .of_state rfl rfl (by simp)
  · cases h; exact .of_state rfl rfl (by simp)

/-- Events leave tasks only behind the middleware. -/
theorem handleEvent_next {e : ServerEvent} (h : handleEvent cfg s e = some g) :
    g.next = [] ∨ ∃ socket event, e = .receive socket event ∧ g = authMiddleware s socket event := by
  unfold handleEvent at h
  split at h
  · cases h; exact .inl rfl
  · split_ifs at h
    cases h
    exact .inr ⟨_, _, rfl, rfl⟩
  · split_ifs at h
    cases h
    exact .inl rfl
  · split_ifs at h
    cases h
    exact .inl (disconnectSocket_continues _ _).next
  · split at h
    · cases h
    · split_ifs at h
      cases h
      exact .inl (handleTimeout_continues _ _).next
  · split_ifs at h
    cases h
    exact .inl rfl
  · cases h; exact .inl rfl
  · cases h; exact .inl rfl

/-! ## Every segment -/

theorem runHandler_within (cfg : Config) (s : Server) (socket : SocketId)
    (seen : Option SeenRequest) (event : ClientEvent) :
    Within event.family s (runHandler cfg s socket seen event) := by
  unfold runHandler
  split
  · exact .of_quiet rfl rfl (by simp)
  · cases event with
    | userJoin payload => exact handleUserJoin_within s socket payload
    | problemSelect id => exact handleProblemSelect_within s socket id
    | problemImport url => exact handleProblemImport_within cfg s socket url
    | codeRun => exact createExecutionSession_within s socket .run
    | codeSubmit => exact createExecutionSession_within s socket .submit
    | hintRequest =>
      dsimp only
      split_ifs
      · exact handleHintRequest_within cfg s socket
      · exact .of_quiet rfl rfl (by simp)
    | hintApprove =>
      dsimp only
      split_ifs
      · exact handleHintApprove_within s socket seen
      · exact .of_quiet rfl rfl (by simp)
    | hintDeny =>
      dsimp only
      split_ifs
      · exact handleHintDeny_within s
      · exact .of_quiet rfl rfl (by simp)
    | solutionReveal => exact handleSolutionReveal_within s socket
    | testcaseAdd testCase => exact handleTestcaseAdd_within s socket testCase

/-- **Footprints.** Every segment of the server stays within its family. -/
theorem fire_within {t : ServerTrigger} (h : (server cfg).fire s t = some g) :
    Within (triggerFamily t) s g := by
  cases t with
  | event e => exact handleEvent_within h
  | task t o =>
    change resumeTask cfg s t o = some g at h
    cases t with
    | admitted socket event seen =>
      cases o <;> cases h
      exact runHandler_within cfg s socket seen event
    | joinLimiter => exact afterJoinLimiter_within h
    | hydrating => exact afterHydration_within h
    | executionIpLimiter => exact afterExecutionIpLimiter_within h
    | executionCases => exact afterExecutionCases_within h
    | executionRest => exact afterExecutionRest_within h
    | executionLimiter => exact afterExecutionLimiter_within h
    | executionReserve => exact afterExecutionReserve_within h
    | executionJudge0 => exact afterExecutionJudge0_within h
    | executionSettling x reserved failure =>
      cases o <;> cases h
      exact afterExecutionSettling_within s x reserved failure
    | hintStored => exact afterStoredHint_within h
    | hintIpLimiter => exact afterHintIpLimiter_within h
    | hintQuota => exact afterHintQuota_within h
    | hintProblem => exact afterHintProblem_within h
    | hintLimiter => exact afterHintLimiter_within h
    | hintReserve => exact afterHintReserve_within h
    | hintStream => exact afterHintStream_within h
    | hintFailing d reason =>
      cases o <;> cases h
      exact afterHintFailure_within s d reason
    | selecting => exact afterSelecting_within h
    | importIpLimiter => exact afterImportIpLimiter_within h
    | importQuota => exact afterImportQuota_within h
    | importLimiter => exact afterImportLimiter_within h
    | importReserve => exact afterImportReserve_within h
    | importScrape => exact afterImportScrape_within h
    | importLoad => exact afterImportLoad_within h
    | importFailing socket reason =>
      cases o <;> cases h
      exact afterImportFailure_within s socket reason
    | addingTestCase => exact afterAddingTestCase_within h
    | revealing => exact afterRevealing_within h

/-- Only the middleware admits events. -/
theorem fire_admits {t : ServerTrigger} {socket : SocketId} {event : ClientEvent}
    {seen : Option SeenRequest} (h : (server cfg).fire s t = some g)
    (hm : .admitted socket event seen ∈ g.next) :
    t = .event (.receive socket event) ∧ g = authMiddleware s socket event := by
  have hf : triggerFamily t = .outside := ((fire_within h).next _ hm).symm
  cases t with
  | task t o =>
    cases t with
    | admitted socket' event' seen' => cases event' <;> cases hf
    | _ => cases hf
  | event e =>
    rcases handleEvent_next h with hnext | ⟨socket', event', rfl, rfl⟩
    · rw [hnext] at hm
      cases hm
    · rcases authMiddleware_next s socket' event' with hn | ⟨_, -, hn⟩ | ⟨user, -, -, -, hn⟩
      · rw [hn] at hm
        cases hm
      · rw [hn, List.mem_singleton, Task.admitted.injEq] at hm
        rw [hm.1, hm.2.1]
        exact ⟨rfl, rfl⟩
      · rw [hn, List.mem_singleton, Task.admitted.injEq] at hm
        rw [hm.1, hm.2.1]
        exact ⟨rfl, rfl⟩

end CodeShare
