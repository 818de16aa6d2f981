import CodeShare.Server.ProblemSteps

/-! # What a segment does to hints

`HintStep` lists the ways in which a segment of the hint handlers treats deliveries, the count and
history of hints, and approvals; `fire_hint` says that there are no others.
-/

namespace CodeShare
open Tasks
set_option autoImplicit false

/-! ## Charges and approvals -/

/-- A hint that was delivered and counted: stored or generated, and for which problem. -/
structure Charge where
  delivery : Delivery
  stored : Bool
  problemId : Option ProblemId

/-- The charge that a segment makes. -/
def charges (cfg : Config) : ServerTrigger → Option Charge
  | .task (.hintStored d) (.hint (some hint)) => some ⟨d, true, hint.problemId⟩
  | .task (.hintStream d prompt generated _) .streamEnd =>
    match cfg.sanitizeLLMHint generated cfg.maxLLMHintChars with
    | .ok _ => some ⟨d, false, prompt.problemId⟩
    | .error _ => none
  | _ => none

/-- The pending request that a segment delivers on an approval, with what the approving user had seen
when its event was admitted. -/
def approves (s : Server) : ServerTrigger → Option (PendingRequest × Option SeenRequest)
  | .task (.admitted socket .hintApprove seen) .go =>
    if socket ∈ s.live ∧ s.registered then s.room.pendingHintRequest.map fun r => (r, seen) else none
  | _ => none

/-- The delivery, if the task is one, is for the problem. -/
def Task.HintFor (p : Option ProblemId) : Task → Prop
  | hintStored d | hintIpLimiter d | hintQuota d => d.problemId = p
  | hintProblem _ problemId => some problemId = p
  | hintLimiter _ prompt | hintReserve _ prompt | hintStream _ prompt _ _ => some prompt.problemId = p
  | _ => True

instance (p : Option ProblemId) (t : Task) : Decidable (t.HintFor p) := by
  cases t <;> unfold Task.HintFor <;> infer_instance

theorem Task.hintFor_of_family {t : Task} (h : t.family ≠ .hint) (p : Option ProblemId) :
    t.HintFor p := by
  cases t <;> trivial

/-- The task is a delivery under way, its stream included. -/
def Task.delivers : Task → Bool
  | hintStored _ | hintIpLimiter _ | hintQuota _ | hintProblem _ _ | hintLimiter _ _ | hintReserve _ _
  | hintStream _ _ _ _ => true
  | _ => false

/-- How many hints were used, and which. -/
def Server.hintView (s : Server) : ℕ × List JsString := (s.room.hintsUsed, s.room.hintHistory)

/-! ## The steps -/

inductive HintStep (cfg : Config) (s : Server) (t : ServerTrigger) (g : Step) : Prop where
  /-- alone in the room -/
  | started (socket : SocketId)
      (hcharge : charges cfg t = none)
      (happrove : approves s t = none)
      (hchecked : hintRequestRefusal s.room = none)
      (halone : s.room.connectedUserCount ≤ 1)
      (hnext : g.next = [.hintStored ⟨socket, s.room.problemId, s.room.hintsUsed⟩])
      (hhints : g.state.hintView = s.hintView)
      (hout : notes g.out = [])
  | approved (socket : SocketId) (request : PendingRequest) (seen : Option SeenRequest)
      (hcharge : charges cfg t = none)
      (happrove : approves s t = some (request, seen))
      (hnext : g.next = [.hintStored ⟨socket, s.room.problemId, s.room.hintsUsed⟩])
      (hhints : g.state.hintView = s.hintView)
      (hout : notes g.out = [.hintApproved request seen])
  | moved (task task' : Task)
      (hcharge : charges cfg t = none)
      (happrove : approves s t = none)
      (htaken : t.taken = [task])
      (hdelivers : task.delivers = true)
      (hnext : g.next = [task'])
      (hstored : ∀ d, task' ≠ .hintStored d)
      (hfor : task.HintFor s.room.problemId → task'.HintFor s.room.problemId)
      (hhints : g.state.hintView = s.hintView)
      (hout : ∀ e ∈ notes g.out, ∃ prompt, e = .llmRequest prompt)
  | ended
      (hcharge : charges cfg t = none)
      (happrove : approves s t = none)
      (hnext : g.next = [])
      (hhints : g.state.hintView = s.hintView)
      (hout : notes g.out = [])
  | charged (charge : Charge) (text : JsString)
      (hcharge : charges cfg t = some charge)
      (happrove : approves s t = none)
      (hnext : g.next = [])
      (hhints : g.state.hintView = (s.room.hintsUsed + 1, s.room.hintHistory ++ [text]))
      (hout : notes g.out = [.hintCharged charge.delivery charge.stored charge.problemId])

variable {cfg : Config} {s : Server} {t : ServerTrigger} {o : Outcome} {g : Step} {d : Delivery}
  {prompt : HintPrompt}

/-! ## Requests and answers -/

section
variable {socket : SocketId} {seen : Option SeenRequest}

theorem hintRequestRefusal_eq_none {room : Room} (h : hintRequestRefusal room = none) :
    room.pendingHintRequest = none := by
  unfold hintRequestRefusal at h
  split_ifs at h with h1 h2 h3 h4 h5
  simpa using h4

theorem hintRequestRefusal_checked {room : Room} (h : hintRequestRefusal room = none) :
    room.hintsUsed < room.hintLimit ∧ room.hintStreaming = false := by
  unfold hintRequestRefusal at h
  split_ifs at h with h1 h2 h3 h4 h5
  exact ⟨Nat.lt_of_not_le h2, Bool.eq_false_iff.mpr h5⟩

theorem sendPendingHintRequest_hintView (cfg : Config) (g : Step) (socket : SocketId) :
    (sendPendingHintRequest cfg g socket).state.hintView = g.state.hintView := by
  unfold sendPendingHintRequest
  split
  · rfl
  · dsimp only
    split
    · rfl
    · split
      · rfl
      · simp only [Segment.modify_state, Segment.toSocket_state, Segment.syncRoom_state,
          startConsentTimer, Server.clearConsentTimer, Server.setTimeout, Server.clearTimeout]
        split <;> rfl

theorem clearConsentTimer_room (s : Server) : s.clearConsentTimer.room = s.room := by
  unfold Server.clearConsentTimer Server.clearTimeout
  split <;> rfl

theorem handleHintRequest_hint (hcharge : charges cfg t = none) (happrove : approves s t = none) :
    HintStep cfg s t (handleHintRequest cfg s socket) := by
  have hroom : (getHintRequestRejection cfg s socket).1.room = s.room := by
    unfold getHintRequestRejection
    split_ifs <;> rfl
  have hfree : (getHintRequestRejection cfg s socket).2 = none → hintRequestRefusal s.room = none := by
    unfold getHintRequestRejection
    split_ifs
    · nofun
    · exact id
  unfold handleHintRequest
  generalize getHintRequestRejection cfg s socket = r at hroom hfree
  obtain ⟨s', message⟩ := r
  have hview : s'.hintView = s.hintView :=
    congrArg (fun room : Room => (room.hintsUsed, room.hintHistory)) hroom
  cases message with
  | some message => exact .ended hcharge happrove rfl hview (by simp)
  | none =>
    dsimp only at hroom ⊢
    rw [hroom]
    split_ifs with halone
    · refine .started socket hcharge happrove (hfree rfl) halone ?_ hview (by simp [deliverHint])
      simp [deliverHint, hroom]
    · have hcontinues := sendPendingHintRequest_continues cfg (.of s') socket
      exact .ended hcharge happrove hcontinues.next
        ((sendPendingHintRequest_hintView cfg (.of s') socket).trans hview) hcontinues.out

theorem handleHintApprove_hint (hlive : socket ∈ s.live ∧ s.registered) :
    HintStep cfg s (.task (.admitted socket .hintApprove seen) .go)
      (handleHintApprove s socket seen) := by
  have happrove : approves s (.task (.admitted socket .hintApprove seen) .go) =
      s.room.pendingHintRequest.map fun r => (r, seen) := if_pos hlive
  unfold handleHintApprove
  split
  · rename_i hpending
    exact .ended rfl (by rw [happrove, hpending, Option.map_none]) rfl rfl rfl
  · rename_i request hpending
    have hroom := clearConsentTimer_room s
    refine .approved socket request seen rfl (by rw [happrove, hpending, Option.map_some]) ?_ ?_
      (by simp [deliverHint, Effect.family])
    · simp [deliverHint, clearPendingHintRequest, hroom]
    · simp [deliverHint, clearPendingHintRequest, Server.hintView, hroom]

theorem handleHintDeny_hint (hcharge : charges cfg t = none) (happrove : approves s t = none) :
    HintStep cfg s t (handleHintDeny s) := by
  unfold handleHintDeny
  split
  · exact .ended hcharge happrove rfl rfl rfl
  · obtain ⟨hstate, hnext, hout⟩ :=
      denyPendingHintRequest_spec (.of s.clearConsentTimer) ‹PendingRequest›
    refine .ended hcharge happrove hnext ?_ hout
    rw [hstate]
    simp [clearPendingHintRequest, Server.hintView, clearConsentTimer_room]

end

/-! ## Deliveries -/

theorem prepareLLMHintRequest_hint (hcharge : charges cfg (.task (.hintStored d) o) = none) :
    HintStep cfg s (.task (.hintStored d) o) (prepareLLMHintRequest cfg s d) := by
  unfold prepareLLMHintRequest
  split_ifs
  · exact .ended hcharge rfl rfl rfl (by simp)
  · exact .ended hcharge rfl rfl rfl (by simp)
  · exact .moved _ _ hcharge rfl rfl rfl rfl nofun id rfl (by simp)

theorem afterHintFailure_hint {task : Task} (reason : Failure)
    (hcharge : charges cfg (.task task o) = none) (happrove : approves s (.task task o) = none) :
    HintStep cfg s (.task task o) (afterHintFailure s d reason) := by
  cases reason <;> exact .ended hcharge happrove rfl rfl (by simp [afterHintFailure])

theorem afterStoredHint_hint (h : afterStoredHint cfg s d o = some g) :
    HintStep cfg s (.task (.hintStored d) o) g := by
  unfold afterStoredHint at h
  split at h
  · rename_i hint
    split_ifs at h
    cases h
    exact .charged ⟨d, true, hint.problemId⟩ hint.hintText rfl rfl rfl rfl
      (by simp [deliverStoredHint, Effect.family])
  · cases h; exact prepareLLMHintRequest_hint rfl
  · cases h; exact afterHintFailure_hint _ rfl rfl
  · cases h

theorem afterHintIpLimiter_hint (h : afterHintIpLimiter s d o = some g) :
    HintStep cfg s (.task (.hintIpLimiter d) o) g := by
  unfold afterHintIpLimiter at h
  split at h <;> cases h
  · exact .moved _ _ rfl rfl rfl rfl rfl nofun id rfl (by simp)
  · exact .ended rfl rfl rfl rfl (by simp)
  · exact .moved _ _ rfl rfl rfl rfl rfl nofun (fun _ => trivial) rfl (by simp)

theorem afterHintQuota_hint (h : afterHintQuota cfg s d o = some g) :
    HintStep cfg s (.task (.hintQuota d) o) g := by
  unfold afterHintQuota at h
  split at h
  · split_ifs at h
    · cases h; exact .ended rfl rfl rfl rfl (by simp)
    · split at h <;> cases h
      rename_i p hproblem
      exact .moved _ _ rfl rfl rfl rfl rfl nofun (fun _ => hproblem.symm) rfl (by simp)
  · cases h; exact .ended rfl rfl rfl rfl (by simp)
  · cases h; exact .moved _ _ rfl rfl rfl rfl rfl nofun (fun _ => trivial) rfl (by simp)
  · cases h

theorem afterHintProblem_hint {p : ProblemId} (h : afterHintProblem cfg s d p o = some g) :
    HintStep cfg s (.task (.hintProblem d p) o) g := by
  unfold afterHintProblem at h
  split at h
  · rename_i problem
    split_ifs at h with hother hsource hlimiter
    all_goals
      have hid : (hintPrompt s problem).problemId = p := not_not.mp hother
    · cases h; exact .ended rfl rfl rfl rfl (by simp)
    · cases h
      refine .moved _ _ rfl rfl rfl rfl rfl nofun (fun hp => ?_) rfl (by simp)
      exact (congrArg some hid).trans hp
    · cases h
      refine .moved _ _ rfl rfl rfl rfl rfl nofun (fun hp => ?_) rfl (by simp)
      exact (congrArg some hid).trans hp
  · cases h; exact .ended rfl rfl rfl rfl (by simp)
  · cases h; exact .moved _ _ rfl rfl rfl rfl rfl nofun (fun _ => trivial) rfl (by simp)
  · cases h

theorem afterHintLimiter_hint (h : afterHintLimiter s d prompt o = some g) :
    HintStep cfg s (.task (.hintLimiter d prompt) o) g := by
  unfold afterHintLimiter at h
  split at h <;> cases h
  · exact .moved _ _ rfl rfl rfl rfl rfl nofun id rfl (by simp)
  · exact .moved _ _ rfl rfl rfl rfl rfl nofun (fun _ => trivial) rfl (by simp)

theorem afterHintReserve_hint (h : afterHintReserve s d prompt o = some g) :
    HintStep cfg s (.task (.hintReserve d prompt) o) g := by
  unfold afterHintReserve at h
  split at h <;> cases h
  · exact .moved _ _ rfl rfl rfl rfl rfl (by simp) id rfl (by simp [Effect.family])
  · exact .ended rfl rfl rfl rfl (by simp)
  · exact .moved _ _ rfl rfl rfl rfl rfl (by simp) (fun _ => trivial) rfl (by simp)

theorem finishHintStream_hint {generated : JsString} {closing : Bool} :
    HintStep cfg s (.task (.hintStream d prompt generated closing) .streamEnd)
      (finishHintStream cfg s d prompt generated) := by
  unfold finishHintStream
  split
  · rename_i message hsanitized
    refine .ended ?_ rfl rfl rfl (by simp [failHintStream, endHintStream])
    simp only [charges, hsanitized]
  · rename_i fullHint hsanitized
    refine .charged ⟨d, false, prompt.problemId⟩ fullHint ?_ rfl rfl rfl
      (by simp [endHintStream, Effect.family])
    simp only [charges, hsanitized]

theorem afterHintStream_hint {generated : JsString} {closing : Bool}
    (h : afterHintStream cfg s d prompt generated closing o = some g) :
    HintStep cfg s (.task (.hintStream d prompt generated closing) o) g := by
  unfold afterHintStream at h
  split at h
  · split_ifs at h
    cases h
    exact .moved _ _ rfl rfl rfl rfl rfl nofun id rfl (by simp)
  · cases h; exact finishHintStream_hint
  · cases h; exact .ended rfl rfl rfl rfl (by simp [failHintStream, endHintStream])
  · cases h

/-- **Hints.** Every segment of the hint handlers is one of the steps listed. -/
theorem fire_hint (h : (server cfg).fire s t = some g) (hf : triggerFamily t = .hint) :
    HintStep cfg s t g := by
  cases t with
  | event e => cases hf
  | task t o =>
    change resumeTask cfg s t o = some g at h
    cases t with
    | admitted socket event seen =>
      cases o <;> cases h
      unfold runHandler
      split
      · rename_i hlive
        refine .ended ?_ ?_ rfl rfl rfl
        · rfl
        · cases event <;> first | rfl | exact if_neg fun hboth => hlive hboth.1
      · rename_i hlive
        rw [not_not] at hlive
        cases event with
        | hintRequest =>
          dsimp only
          split_ifs
          · exact handleHintRequest_hint rfl rfl
          · exact .ended rfl rfl rfl rfl rfl
        | hintApprove =>
          dsimp only
          split_ifs with hregistered
          · exact handleHintApprove_hint ⟨hlive, hregistered⟩
          · exact .ended rfl (if_neg fun hboth => hregistered hboth.2) rfl rfl rfl
        | hintDeny =>
          dsimp only
          split_ifs
          · exact handleHintDeny_hint rfl rfl
          · exact .ended rfl rfl rfl rfl rfl
        | _ => cases hf
    | hintStored d => exact afterStoredHint_hint h
    | hintIpLimiter d => exact afterHintIpLimiter_hint h
    | hintQuota d => exact afterHintQuota_hint h
    | hintProblem d p => exact afterHintProblem_hint h
    | hintLimiter d prompt => exact afterHintLimiter_hint h
    | hintReserve d prompt => exact afterHintReserve_hint h
    | hintStream d prompt generated closing => exact afterHintStream_hint h
    | hintFailing d reason =>
      cases o <;> cases h
      exact afterHintFailure_hint reason rfl rfl
    | _ => cases hf

/-! ## Every segment -/

theorem triggerFamily_of_charges {charge : Charge} (h : charges cfg t = some charge) :
    triggerFamily t = .hint := by
  unfold charges at h
  split at h <;> first | rfl | cases h

theorem triggerFamily_of_approves {r : PendingRequest × Option SeenRequest}
    (h : approves s t = some r) : triggerFamily t = .hint := by
  unfold approves at h
  split at h <;> first | rfl | cases h

/-- The hint fields stay when nothing is loaded and nothing is charged. -/
theorem fire_hintView (h : (server cfg).fire s t = some g) (hload : loads t = none)
    (hcharge : charges cfg t = none) : g.state.hintView = s.hintView := by
  by_cases hf : triggerFamily t = .hint
  · cases fire_hint h hf with
    | charged charge text hcharge' => rw [hcharge] at hcharge'; cases hcharge'
    | started => assumption
    | approved => assumption
    | moved => assumption
    | ended => assumption
  · refine fire_observe h hload fun f hproblem heq => ?_
    cases f <;> first | exact fun _ => rfl | contradiction

theorem fire_hintLimit (h : (server cfg).fire s t = some g) (hload : loads t = none) :
    g.state.room.hintLimit = s.room.hintLimit := by
  refine fire_observe (φ := fun s : Server => s.room.hintLimit) h hload ?_
  rintro f hf -
  cases f <;> first | exact fun _ => rfl | exact absurd rfl hf

theorem fire_charged {charge : Charge} (h : (server cfg).fire s t = some g)
    (hcharge : charges cfg t = some charge) :
    (∃ text, g.state.hintView = (s.room.hintsUsed + 1, s.room.hintHistory ++ [text])) ∧
      g.next = [] ∧ notes g.out = [.hintCharged charge.delivery charge.stored charge.problemId] := by
  cases fire_hint h (triggerFamily_of_charges hcharge) with
  | charged charge' text hcharge' happrove hnext hhints hout =>
    obtain rfl : charge = charge' := Option.some.inj (hcharge.symm.trans hcharge')
    exact ⟨⟨text, hhints⟩, hnext, hout⟩
  | started _ hcharge' => rw [hcharge] at hcharge'; cases hcharge'
  | approved _ _ _ hcharge' => rw [hcharge] at hcharge'; cases hcharge'
  | moved _ _ hcharge' => rw [hcharge] at hcharge'; cases hcharge'
  | ended hcharge' => rw [hcharge] at hcharge'; cases hcharge'

end CodeShare
