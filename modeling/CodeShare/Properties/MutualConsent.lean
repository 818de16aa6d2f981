import CodeShare.Server.HintSteps

/-! # Mutual consent

The middleware compares the answering user with the requester of the request that is pending when the
answer is admitted; the handler delivers whatever request is pending when it runs. A run respects
consent exactly when, whenever an approval runs, the pending request is still the one its sender had
seen.
-/

namespace CodeShare
open Tasks
set_option autoImplicit false

/-- An approval is run for the request that was pending when it was admitted. -/
def AnswersPending (c : ServerConf) (t : ServerTrigger) : Prop :=
  ∀ approval ∈ approves c.shared t, approval.2.map (·.request) = some approval.1

instance (c : ServerConf) (t : ServerTrigger) : Decidable (AnswersPending c t) := by
  unfold AnswersPending
  infer_instance

/-- The approval that an effect notes was given in answer to the request it delivers. -/
def Effect.AnswersRequest (e : Effect) : Prop :=
  ∀ request seen, e = .hintApproved request seen → seen.map (·.request) = some request

variable {cfg : Config} {s : Server} {t : ServerTrigger} {g : Step}

/-! ## Approvals -/

theorem mem_notes {e : Effect} (h : e.family ≠ none) (out : List Effect) :
    e ∈ notes out ↔ e ∈ out := by
  rw [notes, List.mem_filter, Option.isSome_iff_ne_none]
  exact and_iff_left h

/-- A segment notes an approval exactly when it delivers a pending request. -/
theorem mem_approved_iff {request : PendingRequest} {seen : Option SeenRequest}
    (h : (server cfg).fire s t = some g) :
    .hintApproved request seen ∈ g.out ↔ approves s t = some (request, seen) := by
  have hnote : (Effect.hintApproved request seen).family ≠ none := Option.some_ne_none Family.hint
  rw [← mem_notes hnote]
  by_cases hf : triggerFamily t = .hint
  · cases fire_hint h hf with
    | started _ _ happrove _ _ _ _ hout => simp [happrove, hout]
    | approved _ request' seen' _ happrove _ _ hout =>
      rw [happrove, hout, List.mem_singleton, Effect.hintApproved.injEq, Option.some.injEq,
        Prod.mk.injEq]
      exact and_congr eq_comm eq_comm
    | moved _ _ _ happrove _ _ _ _ _ _ hout =>
      rw [happrove]
      refine iff_of_false (fun hm => ?_) nofun
      obtain ⟨prompt, heq⟩ := hout _ hm
      cases heq
    | ended _ happrove _ _ hout => simp [happrove, hout]
    | charged _ _ _ happrove _ _ hout => simp [happrove, hout]
  · refine iff_of_false (fun hm => ?_) fun happrove => hf (triggerFamily_of_approves happrove)
    exact hf (Option.some.inj ((fire_within h).out _ hm)).symm

/-- A delivery starts without consent only when nobody is asked and nobody else is connected. -/
theorem delivery_started {d : Delivery} (h : (server cfg).fire s t = some g)
    (hm : .hintStored d ∈ g.next) :
    (s.room.pendingHintRequest = none ∧ s.room.connectedUserCount ≤ 1) ∨
      ∃ request seen, s.room.pendingHintRequest = some request ∧
        .hintApproved request seen ∈ g.out := by
  have hf : triggerFamily t = .hint := ((fire_within h).next _ hm).symm
  cases fire_hint h hf with
  | started _ _ _ hchecked halone _ _ _ => exact .inl ⟨hintRequestRefusal_eq_none hchecked, halone⟩
  | approved _ request seen _ happrove _ _ _ =>
    refine .inr ⟨request, seen, ?_, (mem_approved_iff h).mpr happrove⟩
    unfold approves at happrove
    split at happrove
    · split_ifs at happrove
      obtain ⟨request', hrequest, heq⟩ := Option.map_eq_some_iff.mp happrove
      rw [hrequest, (Prod.mk.inj heq).1]
    · cases happrove
  | moved task' task'' _ _ _ _ hnext hstored _ _ _ =>
    rw [hnext, List.mem_singleton] at hm
    exact absurd hm.symm (hstored d)
  | ended _ _ hnext _ _ => rw [hnext] at hm; cases hm
  | charged _ _ _ _ hnext _ _ => rw [hnext] at hm; cases hm

/-! ## Admission -/

/-- The middleware admits no answer of the requester. -/
theorem seenRequest_user_ne {room : Room} {user : RoomUserInternal} {event : ClientEvent}
    {seen : SeenRequest} (hreject : eventRejection room user event = none)
    (hseen : seenRequest room user event = some seen) : seen.user ≠ seen.request.requestedBy := by
  have hstate : stateRejection room user event = none := (Option.or_eq_none_iff.mp hreject).2
  unfold seenRequest at hseen
  split_ifs at hseen with hresponse
  obtain ⟨request, hpending, rfl⟩ := Option.map_eq_some_iff.mp hseen
  unfold stateRejection at hstate
  cases event with
  | hintApprove | hintDeny =>
    intro heq
    simp [ClientEvent.requiresNoExecution, ClientEvent.requiresSwitchableProblem,
      ClientEvent.isHintResponse, hpending, show user.id = request.requestedBy from heq] at hstate
  | _ => cases hresponse

theorem next_admitted {socket : SocketId} {event : ClientEvent} {seen : SeenRequest}
    (h : (server cfg).fire s t = some g) (hm : .admitted socket event (some seen) ∈ g.next) :
    seen.user ≠ seen.request.requestedBy := by
  obtain ⟨-, rfl⟩ := fire_admits h hm
  rcases authMiddleware_next s socket event with hn | ⟨_, -, hn⟩ | ⟨user, -, -, hreject, hn⟩
  · rw [hn] at hm
    cases hm
  · rw [hn, List.mem_singleton] at hm
    cases hm
  · rw [hn, List.mem_singleton, Task.admitted.injEq] at hm
    exact seenRequest_user_ne hreject hm.2.2.symm

/-- What an approval noted in the outputs, or still to be run, has seen was not its sender's own
request. -/
structure ConsentInvariant (c : ServerConf) (out : List Effect) : Prop where
  suspended : ∀ socket event seen, Task.admitted socket event (some seen) ∈ c.pool →
    seen.user ≠ seen.request.requestedBy
  noted : ∀ request seen, Effect.hintApproved request (some seen) ∈ out →
    seen.user ≠ seen.request.requestedBy

theorem consent_step {c c' : ServerConf} {past out : List Effect} {rest : List Task}
    (h : ConsentInvariant c past) (hby : (server cfg).StepBy c c' out t g rest) :
    ConsentInvariant c' (past ++ out) where
  suspended socket event seen hm := by
    rcases hby.mem_after hm with hm | hm
    · exact h.suspended socket event seen (hby.mem_of_rest hm)
    · exact next_admitted hby.fire hm
  noted request seen hm := by
    rcases List.mem_append.mp hm with hm | hm
    · exact h.noted request seen hm
    · rw [hby.out] at hm
      have happrove := (mem_approved_iff hby.fire).mp hm
      unfold approves at happrove
      split at happrove
      · rename_i socket seen'
        split_ifs at happrove
        obtain ⟨request', -, heq⟩ := Option.map_eq_some_iff.mp happrove
        obtain ⟨-, rfl⟩ := Prod.mk.inj heq
        exact h.suspended socket .hintApprove seen (hby.mem_of_taken List.mem_cons_self)
      · cases happrove

/-! ## Runs -/

/-- **Mutual consent.** A pending request is only ever delivered by an approval. Every approval that
is run answers the very request it delivers, and comes from somebody else than the requester, exactly
in the runs in which the pending request is still the one seen whenever an approval is run. -/
theorem mutual_consent_iff {mode : RoomMode} {now : Time} {acts : List ServerAct} {c : ServerConf}
    {out : List Effect} (hreach : Reaches cfg mode now acts c out) :
    (∀ t g d, (server cfg).fire c.shared t = some g → .hintStored d ∈ g.next →
      (c.shared.room.pendingHintRequest = none ∧ c.shared.room.connectedUserCount ≤ 1) ∨
        ∃ request seen, c.shared.room.pendingHintRequest = some request ∧
          .hintApproved request seen ∈ g.out) ∧
    ((∀ request seen, .hintApproved request seen ∈ out →
        ∃ user, seen = some ⟨request, user⟩ ∧ user ≠ request.requestedBy) ↔
      Meeting cfg AnswersPending mode now acts) := by
  refine ⟨fun t g d => delivery_started, ?_⟩
  have hconsent : ConsentInvariant c out := Machine.run_preserves_always
    (fun _ _ _ _ _ _ _ h hby => consent_step h hby)
    ⟨fun _ _ _ hm => absurd hm List.not_mem_nil, fun _ _ hm => absurd hm List.not_mem_nil⟩ hreach
  have hanswers : Meeting cfg AnswersPending mode now acts ↔ ∀ e ∈ out, e.AnswersRequest := by
    refine Machine.meets_iff_forall_out (fun c t g hfire => ?_) hreach
    constructor
    · rintro hanswers e he request seen rfl
      exact hanswers (request, seen) ((mem_approved_iff hfire).mp he)
    · rintro hout ⟨request, seen⟩ happrove
      exact hout _ ((mem_approved_iff hfire).mpr happrove) request seen rfl
  rw [hanswers]
  constructor
  · rintro h e he request seen rfl
    obtain ⟨user, rfl, -⟩ := h request seen he
    rfl
  · intro h request seen hm
    obtain ⟨seen, rfl, rfl⟩ := Option.map_eq_some_iff.mp (h _ hm request seen rfl)
    exact ⟨seen.user, rfl, hconsent.noted _ seen hm⟩

/-- The requests that were delivered on an approval, with what its sender had seen. -/
def Effect.approval : Effect → Option (PendingRequest × Option SeenRequest)
  | hintApproved request seen => some (request, seen)
  | _ => none

/-- Two users, the first asks for a problem and the second for a hint. -/
def exampleRequest : List ServerAct :=
  exampleJoin 0 .go ++ exampleJoin 1 .go ++ exampleSelect 0 7 ++
    [.event (.receive 1 .hintRequest), .resume 0 .go]

/-- The first user approves. -/
def exampleConsent : List ServerAct :=
  exampleRequest ++ [.event (.receive 0 .hintApprove), .resume 0 .go]

theorem mutual_consent_iff_example : ∃ c out,
    Reaches plainConfig .collaboration 10000 exampleConsent c out ∧
    out.filterMap Effect.approval = [(⟨⟨3, 10000⟩, 0⟩, some ⟨⟨⟨3, 10000⟩, 0⟩, 1⟩)] ∧
    ∀ request seen, .hintApproved request seen ∈ out →
      ∃ user, seen = some ⟨request, user⟩ ∧ user ≠ request.requestedBy := by
  obtain ⟨c, out, hreach, happrovals⟩ : ∃ c out,
      Reaches plainConfig .collaboration 10000 exampleConsent c out ∧
      out.filterMap Effect.approval = [(⟨⟨3, 10000⟩, 0⟩, some ⟨⟨⟨3, 10000⟩, 0⟩, 1⟩)] :=
    ⟨_, _, rfl, rfl⟩
  have hmeets : Meeting plainConfig AnswersPending .collaboration 10000 exampleConsent := by
    unfold Meeting
    decide
  exact ⟨c, out, hreach, happrovals, (mutual_consent_iff hreach).2.mpr hmeets⟩

/-- An approval, a request and another approval of the first user are admitted before any of them is
run. -/
def exampleOverlap : List ServerAct :=
  exampleRequest ++ [.event (.receive 0 .hintApprove), .event (.receive 0 .hintRequest),
    .event (.receive 0 .hintApprove), .resume 0 .go, .resume 0 .go, .resume 0 .go]

/-- The second approval delivers the first user's own request. -/
theorem own_request_approved : ∃ c out,
    Reaches plainConfig .collaboration 10000 exampleOverlap c out ∧
    .hintApproved ⟨⟨1, 10000⟩, 1⟩ (some ⟨⟨⟨3, 10000⟩, 0⟩, 1⟩) ∈ out ∧
    ¬∀ request seen, .hintApproved request seen ∈ out →
      ∃ user, seen = some ⟨request, user⟩ ∧ user ≠ request.requestedBy := by
  obtain ⟨c, out, hreach, happrovals⟩ : ∃ c out,
      Reaches plainConfig .collaboration 10000 exampleOverlap c out ∧
      out.filterMap Effect.approval =
        [(⟨⟨3, 10000⟩, 0⟩, some ⟨⟨⟨3, 10000⟩, 0⟩, 1⟩),
          (⟨⟨1, 10000⟩, 1⟩, some ⟨⟨⟨3, 10000⟩, 0⟩, 1⟩)] :=
    ⟨_, _, rfl, rfl⟩
  have hown : .hintApproved ⟨⟨1, 10000⟩, 1⟩ (some ⟨⟨⟨3, 10000⟩, 0⟩, 1⟩) ∈ out := by
    have hm : (⟨⟨1, 10000⟩, 1⟩, some ⟨⟨⟨3, 10000⟩, 0⟩, 1⟩) ∈ out.filterMap Effect.approval := by
      rw [happrovals]
      exact List.mem_cons_of_mem _ List.mem_cons_self
    obtain ⟨e, he, happroval⟩ := List.mem_filterMap.mp hm
    cases e <;> cases happroval
    exact he
  refine ⟨c, out, hreach, hown, fun h => ?_⟩
  obtain ⟨user, hseen, -⟩ := h _ _ hown
  cases hseen

end CodeShare
