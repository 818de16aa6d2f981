import CodeShare.Foundations.Origins
import CodeShare.Server.Speakers
import CodeShare.Server.TimerSteps

/-! # Authorization in interviews

The middleware is the only check in front of the handlers. Every suspended handler goes back to an event
of its own family that the middleware let pass; in an interview this is an interviewer's event for the
problem and the solution, and none for hints, since answers need a request and requests are blocked.
-/

namespace CodeShare
open Tasks
set_option autoImplicit false

abbrev ServerOrigin := Origin Server ServerEvent
abbrev TracedConf := Conf Server (Task × ServerOrigin)
abbrev TracedTurn := Turn Server (Task × ServerOrigin) ServerEvent Outcome Effect

/-- The middleware lets the event of a user on the socket pass. -/
def Admits (s : Server) (socket : SocketId) (event : ClientEvent) (user : RoomUserInternal) : Prop :=
  user ∈ s.room.users ∧ user.socketId = some socket ∧ eventRejection s.room user event = none

/-- The origin is an event of a family that the middleware let pass, in an interview without a pending
request. -/
def InterviewOrigin (f : Family) (origin : ServerOrigin) : Prop :=
  ∃ socket event, origin.event = .receive socket event ∧ event.family = f ∧
    origin.state.room.mode = .interview ∧ origin.state.room.pendingHintRequest = none ∧
    (f = .join ∨ ∃ user, Admits origin.state socket event user)

/-- The handler of a task. -/
def Task.handler : Task → Family
  | admitted _ event _ => event.family
  | t => t.family

/-- The event is one for the family's handlers, sent by an interviewer whom the middleware let pass. -/
def ByInterviewer (f : Family) (origin : ServerOrigin) : Prop :=
  ∃ socket event user, origin.event = .receive socket event ∧ event.family = f ∧
    Admits origin.state socket event user ∧ user.role = .interviewer

/-- The solution is shown. -/
def Reveals (out : List Effect) : Prop := ∃ k solution, .deliver k (.solutionRevealed solution) ∈ out

/-- HINT_CHUNK and HINT_DONE. -/
def Message.isHint : Message → Bool
  | hintChunk _ | hintDone _ _ => true
  | _ => false

/-- A hint, or a part of one, is delivered. -/
def GivesHint (out : List Effect) : Prop := ∃ k m, .deliver k m ∈ out ∧ m.isHint = true

theorem givesHint_append {out out' : List Effect} :
    GivesHint (out ++ out') ↔ GivesHint out ∨ GivesHint out' := by
  unfold GivesHint
  simp only [List.mem_append, or_and_right, exists_or]

theorem senders_of_isHint {m : Message} (h : m.isHint = true) : m.senders = [.hint] := by
  cases m <;> first | rfl | cases h

section
variable {cfg : Config} {s : Server} {t : ServerTrigger} {g : Step}

/-! ## Origins -/

/-- An event of the problem or the solution that passes in an interview comes from an interviewer. -/
theorem InterviewOrigin.byInterviewer {f : Family} {origin : ServerOrigin}
    (h : InterviewOrigin f origin) (hf : f = .problem ∨ f = .reveal) : ByInterviewer f origin := by
  obtain ⟨socket, event, hevent, hfamily, hmode, -, hjoin | ⟨user, hadmits⟩⟩ := h
  · rcases hf with rfl | rfl <;> cases hjoin
  · refine ⟨socket, event, user, hevent, hfamily, hadmits, ?_⟩
    have hreject := (Option.or_eq_none_iff.mp hadmits.2.2).1
    subst hfamily
    by_contra hrole
    unfold modeRejection at hreject
    cases event with
    | problemSelect id => simp [hmode, ClientEvent.interviewerOnly, hrole] at hreject
    | problemImport url => simp [hmode, ClientEvent.interviewerOnly, hrole] at hreject
    | solutionReveal => simp [hmode, ClientEvent.interviewerOnly, hrole] at hreject
    | _ => simp [ClientEvent.family] at hf

/-- No event for hints passes. -/
theorem InterviewOrigin.not_hint {origin : ServerOrigin} : ¬ InterviewOrigin .hint origin := by
  rintro ⟨socket, event, -, hfamily, hmode, hpending, hjoin | ⟨user, -, -, hreject⟩⟩
  · cases hjoin
  · obtain ⟨hmodeReject, hstateReject⟩ := Option.or_eq_none_iff.mp hreject
    cases event with
    | hintRequest =>
      simp [modeRejection, hmode, ClientEvent.interviewerOnly, ClientEvent.blockedInInterview]
        at hmodeReject
    | hintApprove =>
      simp [stateRejection, ClientEvent.requiresNoExecution, ClientEvent.requiresSwitchableProblem,
        ClientEvent.isHintResponse, hpending] at hstateReject
    | hintDeny =>
      simp [stateRejection, ClientEvent.requiresNoExecution, ClientEvent.requiresSwitchableProblem,
        ClientEvent.isHintResponse, hpending] at hstateReject
    | _ => cases hfamily

/-- What the middleware leaves behind goes back to the event that it let pass. -/
theorem handleEvent_origin {e : ServerEvent} (h : handleEvent cfg s e = some g)
    (hmode : s.room.mode = .interview) (hpending : s.room.pendingHintRequest = none) :
    ∀ task ∈ g.next, InterviewOrigin task.handler ⟨s, e⟩ := by
  intro task hm
  rcases handleEvent_next h with hnone | ⟨socket, event, rfl, rfl⟩
  · rw [hnone] at hm
    cases hm
  · rcases authMiddleware_next s socket event with hnone | ⟨payload, rfl, hnext⟩ |
      ⟨user, huser, hsocket, hreject, hnext⟩
    · rw [hnone] at hm
      cases hm
    · rw [hnext, List.mem_singleton] at hm
      subst hm
      exact ⟨socket, _, rfl, rfl, hmode, hpending, .inl rfl⟩
    · rw [hnext, List.mem_singleton] at hm
      subst hm
      exact ⟨socket, event, rfl, rfl, hmode, hpending, .inr ⟨user, huser, hsocket, hreject⟩⟩

/-- A handler leaves behind tasks of its own. -/
theorem next_handler {task task' : Task} {o : Outcome}
    (h : (server cfg).fire s (.task task o) = some g) (hm : task' ∈ g.next) :
    task'.handler = task.handler := by
  have hfamily := (fire_within h).next task' hm
  have hsame : triggerFamily (.task task o) = task.handler := by
    cases task <;> rfl
  rw [hsame] at hfamily
  have hother : task.handler ≠ .outside := by
    cases task with
    | admitted _ event _ => cases event <;> nofun
    | _ => nofun
  cases task' with
  | admitted => exact absurd hfamily.symm hother
  | _ => exact hfamily

/-! ## One step -/

/-- Only a request puts one into the room. -/
theorem pending_none (h : (server cfg).fire s t = some g) (hpending : s.room.pendingHintRequest = none)
    (hhint : triggerFamily t ≠ .hint) : g.state.room.pendingHintRequest = none := by
  have hof : ∀ {v : TimerView}, g.state.timerView = v →
      v.pending = s.timerView.pending ∨ v.pending = none →
      g.state.room.pendingHintRequest = none := by
    rintro v rfl (hsame | hnone)
    · exact Eq.trans hsame hpending
    · exact hnone
  have hasked : ∀ requester : RoomUserInternal, requestsConsent cfg s t ≠ some requester := by
    intro requester hrequester
    obtain ⟨socket, seen, rfl, -⟩ := requestsConsent_spec hrequester
    exact hhint rfl
  cases fire_timers h with
  | kept _ hview => exact hof hview (.inl rfl)
  | loaded _ _ hview => exact hof hview (.inr rfl)
  | asked requester _ hrequester => exact absurd hrequester (hasked requester)
  | unheard requester hrequester => exact absurd hrequester (hasked requester)
  | answered _ _ _ _ _ hview => exact hof hview (.inr rfl)
  | lapsed _ _ _ _ _ hview => exact hof hview (.inr rfl)
  | expired _ _ destroyed _ _ _ _ hview => cases destroyed <;> exact hof hview (.inl rfl)
  | closed socket _ _ hview =>
    cases hdrops : s.dropsRequest socket with
    | true =>
      rw [hdrops] at hview
      exact hof hview (.inr rfl)
    | false =>
      rw [hdrops] at hview
      cases hleaver : s.leaver socket <;> rw [hleaver] at hview <;> exact hof hview (.inl rfl)
  | resumed _ _ _ _ _ hview => exact hof hview (.inl rfl)
  | destroyed _ hview => exact hof hview (.inl rfl)

theorem hintsUsed_zero (h : (server cfg).fire s t = some g) (hused : s.room.hintsUsed = 0)
    (hhint : triggerFamily t ≠ .hint) : g.state.room.hintsUsed = 0 := by
  cases hloads : loads t with
  | some p =>
    obtain ⟨hintLimit, importsUsed, hroom⟩ := (fire_switched h hloads).room
    rw [hroom]
    rfl
  | none =>
    have hcharge : charges cfg t = none := by
      by_contra hsome
      obtain ⟨charge, hcharge⟩ := Option.ne_none_iff_exists'.mp hsome
      exact hhint (triggerFamily_of_charges hcharge)
    exact (congrArg Prod.fst (fire_hintView h hloads hcharge)).trans hused

theorem fire_importsUsed (h : (server cfg).fire s t = some g) (hload : loads t = none) :
    g.state.room.importsUsed = s.room.importsUsed := by
  refine fire_observe (φ := fun s : Server => s.room.importsUsed) h hload ?_
  rintro f hf -
  cases f <;> first | exact fun _ => rfl | exact absurd rfl hf

end

/-- An interview in which no hint has been asked for, with the origins of its handlers. -/
structure InterviewInvariant (d : TracedConf) : Prop where
  mode : d.shared.room.mode = .interview
  pending : d.shared.room.pendingHintRequest = none
  hints : d.shared.room.hintsUsed = 0
  origins : ∀ task ∈ d.pool, InterviewOrigin task.1.handler task.2

/-- What an interviewer's event is needed for. -/
structure AuthorizedTurn (past : List TracedTurn) (turn : TracedTurn) : Prop where
  problem : turn.after.shared.room.problemId ≠ turn.before.shared.room.problemId ∨
    turn.after.shared.room.importsUsed ≠ turn.before.shared.room.importsUsed →
      ByInterviewer .problem turn.origin ∧ turn.origin.Among past
  reveal : Reveals turn.out → ByInterviewer .reveal turn.origin ∧ turn.origin.Among past

section
variable {cfg : Config} {d d' : TracedConf} {past : List TracedTurn} {out : List Effect}
  {t : Trigger ServerEvent (Task × ServerOrigin) Outcome}
  {g : Segment Server (Task × ServerOrigin) Effect} {rest : List (Task × ServerOrigin)}

/-- A handler that runs goes back to an event of its family. -/
theorem InterviewInvariant.origin (h : InterviewInvariant d)
    (hby : (server cfg).traced.StepBy d d' out t g rest) (hf : triggerFamily t.plain ≠ .outside) :
    InterviewOrigin (triggerFamily t.plain) (t.origin d.shared) ∧
      ∃ task ∈ d.pool, task.2 = t.origin d.shared := by
  cases t with
  | event e => exact absurd rfl hf
  | task task o =>
    have hm := hby.mem_of_taken (List.mem_singleton_self _)
    have hsame : triggerFamily (.task task.1 o) = task.1.handler := by
      cases task.1 <;> rfl
    refine ⟨?_, task, hm, rfl⟩
    show InterviewOrigin (triggerFamily (.task task.1 o)) task.2
    rw [hsame]
    exact h.origins task hm

theorem InterviewInvariant.not_hint (h : InterviewInvariant d)
    (hby : (server cfg).traced.StepBy d d' out t g rest) : triggerFamily t.plain ≠ .hint := by
  intro hf
  have horigin := (h.origin hby (by rw [hf]; nofun)).1
  rw [hf] at horigin
  exact InterviewOrigin.not_hint horigin

theorem interview_step (h : InterviewInvariant d)
    (hby : (server cfg).traced.StepBy d d' out t g rest) : InterviewInvariant d' := by
  obtain ⟨g', hfire, rfl⟩ := Machine.fire_of_traced hby.fire
  have hhint := h.not_hint hby
  refine ⟨?_, ?_, ?_, fun task hm => ?_⟩
  · have hmode : g'.state.room.mode = d.shared.room.mode := by
      refine (fire_within hfire).observe (·.room.mode) fun s => ?_
      cases triggerFamily t.plain <;> rfl
    rw [hby.shared]
    exact hmode.trans h.mode
  · rw [hby.shared]
    exact pending_none hfire h.pending hhint
  · rw [hby.shared]
    exact hintsUsed_zero hfire h.hints hhint
  · rcases hby.mem_after hm with hm | hm
    · exact h.origins task (hby.mem_of_rest hm)
    · obtain ⟨task', hm', rfl⟩ := List.mem_map.mp hm
      cases t with
      | event e => exact handleEvent_origin hfire h.mode h.pending task' hm'
      | task old o =>
        have hold := h.origins old (hby.mem_of_taken (List.mem_singleton_self _))
        show InterviewOrigin task'.handler old.2
        rw [next_handler hfire hm']
        exact hold

/-- Hints are sent by the hint handlers, and none of them runs. -/
theorem InterviewInvariant.not_givesHint (h : InterviewInvariant d)
    (hby : (server cfg).traced.StepBy d d' out t g rest) : ¬ GivesHint out := by
  obtain ⟨g', hfire, rfl⟩ := Machine.fire_of_traced hby.fire
  have hspeaks : Speaks (triggerFamily t.plain) out := by
    rw [hby.out]
    exact fire_speaks hfire
  rintro ⟨k, m, hm, hhint⟩
  have hsender := hspeaks k m hm
  rw [senders_of_isHint hhint] at hsender
  exact h.not_hint hby (List.mem_singleton.mp hsender)

/-- A segment for the problem or the solution. -/
theorem authorized_step (h : InterviewInvariant d) (hpast : ∀ task ∈ d.pool, task.2.Among past)
    (hby : (server cfg).traced.StepBy d d' out t g rest) : AuthorizedTurn past ⟨d, t, d', out⟩ := by
  obtain ⟨g', hfire, rfl⟩ := Machine.fire_of_traced hby.fire
  have hspeaks : Speaks (triggerFamily t.plain) out := by
    rw [hby.out]
    exact fire_speaks hfire
  have hby' : ∀ f, triggerFamily t.plain = f → f = .problem ∨ f = .reveal →
      ByInterviewer f (t.origin d.shared) ∧ (t.origin d.shared).Among past := by
    rintro f rfl hf
    obtain ⟨horigin, task, hm, htask⟩ := h.origin hby (by rcases hf with hf | hf <;> rw [hf] <;> nofun)
    exact ⟨horigin.byInterviewer hf, htask ▸ hpast task hm⟩
  refine ⟨fun hchanged => ?_, ?_⟩
  · refine hby' .problem ?_ (.inl rfl)
    by_contra hf
    have hload : loads t.plain = none := by
      by_contra hsome
      obtain ⟨p, hp⟩ := Option.ne_none_iff_exists'.mp hsome
      exact hf (triggerFamily_of_loads hp)
    dsimp only at hchanged
    rw [hby.shared] at hchanged
    rcases hchanged with hchanged | hchanged
    · exact hchanged (fire_problemId hfire hload)
    · exact hchanged (fire_importsUsed hfire hload)
  · rintro ⟨k, solution, hm⟩
    exact hby' .reveal (List.mem_singleton.mp (hspeaks k _ hm)) (.inr rfl)

end

/-! ## Runs -/

/-- The room, with the origins of its handlers. -/
def tracedInitial (cfg : Config) (mode : RoomMode) (now : Time) : TracedConf :=
  ⟨initialServer cfg mode now, []⟩

theorem initial_interview (cfg : Config) (now : Time) :
    InterviewInvariant (tracedInitial cfg .interview now) :=
  ⟨rfl, rfl, rfl, List.forall_mem_nil _⟩

theorem interview_run {cfg : Config} {now : Time} {acts : List ServerAct} {d : TracedConf}
    {out : List Effect}
    (hrun : (server cfg).traced.run (tracedInitial cfg .interview now) acts = some (d, out)) :
    InterviewInvariant d ∧ ¬ GivesHint out := by
  refine Machine.run_preserves_always
    (I := fun (d : TracedConf) (out : List Effect) => InterviewInvariant d ∧ ¬ GivesHint out)
    (fun d d' past out t g rest h hby => ⟨interview_step h.1 hby, ?_⟩)
    ⟨initial_interview cfg now, by simp [GivesHint]⟩ hrun
  rw [givesHint_append, not_or]
  exact ⟨h.2, h.1.not_givesHint hby⟩

/-- **Interview authorization.** Every run of an interview is one of the machine with origins; its
segments change the problem and the count of imports, and show a solution, only as the effect of an
earlier event that the middleware let pass for an interviewer, and no hint is given. -/
theorem interview_authorization {cfg : Config} {now : Time} {acts : List ServerAct} {c : ServerConf}
    {out : List Effect} (hreach : Reaches cfg .interview now acts c out) :
    (∃ d, (server cfg).traced.run (tracedInitial cfg .interview now) acts = some (d, out) ∧
      d.plain = c ∧
      ((server cfg).traced.history (tracedInitial cfg .interview now) acts).map Turn.plain =
        (server cfg).history (initial cfg .interview now) acts) ∧
    (∀ past turn later, (server cfg).traced.history (tracedInitial cfg .interview now) acts =
      past ++ turn :: later → AuthorizedTurn past turn) ∧
    c.shared.room.hintsUsed = 0 ∧ c.shared.room.pendingHintRequest = none ∧ ¬ GivesHint out := by
  obtain ⟨d, hrun, hplain, hhistory⟩ := Machine.run_traced (c := tracedInitial cfg .interview now) hreach
  obtain ⟨hinv, hhint⟩ := interview_run hrun
  subst hplain
  refine ⟨⟨d, hrun, rfl, hhistory⟩, fun past turn later hsplit => ?_, hinv.hints, hinv.pending, hhint⟩
  obtain ⟨before, a, after, -, rfl, hbefore, htrigger, hstep⟩ := Machine.history_split hsplit
  obtain ⟨t, g, ht, hby⟩ := Machine.step_by hstep
  obtain rfl := Option.some.inj (htrigger.symm.trans ht)
  exact authorized_step (interview_run hbefore).1 (Machine.origins_among hbefore) hby

/-- The interviewer selects a problem. -/
def exampleInterviewProblem : List ServerAct := exampleJoin 0 .go ++ exampleSelect 0 7

theorem interview_authorization_example : ∃ c out,
    Reaches plainConfig .interview 0 exampleInterviewProblem c out ∧
    c.shared.room.problemId = some 7 ∧
    (∀ past turn later,
      (server plainConfig).traced.history (tracedInitial plainConfig .interview 0)
        exampleInterviewProblem = past ++ turn :: later → AuthorizedTurn past turn) ∧
    c.shared.room.hintsUsed = 0 ∧ c.shared.room.pendingHintRequest = none ∧ ¬ GivesHint out := by
  obtain ⟨c, out, hreach, hproblem⟩ : ∃ c out,
      Reaches plainConfig .interview 0 exampleInterviewProblem c out ∧
      c.shared.room.problemId = some 7 :=
    ⟨_, _, rfl, rfl⟩
  exact ⟨c, out, hreach, hproblem, (interview_authorization hreach).2⟩

end CodeShare
