import CodeShare.Properties.InterviewAuthorization
import CodeShare.Server.Emissions
import CodeShare.Server.HandlerProgress
import CodeShare.Server.StreamSteps

/-! # What members have asked for

In a room of either mode the handlers act only for users of the room. What goes back to one event is a thread:
it sends the handlers' messages and changes their part of the room only if the middleware let the event pass
for a user seated on its socket, and it calls Judge0, the model or the scraper at most once.
-/

namespace CodeShare
open Tasks
set_option autoImplicit false

/-! ## Calls of services -/

/-- Judge0, the model or the scraper is called. -/
def Effect.isServiceCall : Effect → Bool
  | judge0Submit _ _ | llmRequest _ | importProblem _ => true
  | _ => false

def serviceCalls (out : List Effect) : ℕ := out.countP Effect.isServiceCall

/-- Behind its answer the service is called. -/
def Task.atCall : Task → Bool
  | executionReserve _ _ | hintReserve _ _ | importReserve _ _ => true
  | _ => false

/-- The handler may still come to its call. -/
def Task.mayCall : Task → Bool
  | admitted _ _ _
  | executionIpLimiter _ | executionCases _ _ _ | executionRest _ _ _ _ | executionLimiter _ _
  | executionReserve _ _
  | hintStored _ | hintIpLimiter _ | hintQuota _ | hintProblem _ _ | hintLimiter _ _ | hintReserve _ _
  | importIpLimiter _ _ | importQuota _ _ | importLimiter _ _ | importReserve _ _ => true
  | _ => false

theorem serviceCalls_append (out out' : List Effect) :
    serviceCalls (out ++ out') = serviceCalls out + serviceCalls out' :=
  List.countP_append

theorem serviceCalls_notes (out : List Effect) : serviceCalls out = serviceCalls (notes out) := by
  unfold serviceCalls notes
  rw [List.countP_filter]
  refine List.countP_congr fun e _ => ?_
  cases e <;> simp [Effect.isServiceCall, Effect.family]

theorem serviceCalls_eq_zero {out : List Effect} (h : ∀ e ∈ notes out, e.isServiceCall = false) :
    serviceCalls out = 0 := by
  rw [serviceCalls_notes]
  exact List.countP_eq_zero.mpr fun e he => by simp [h e he]

/-- What is left of a handler when it comes to its call. -/
def callThreshold (cfg : Config) : Family → ℕ
  | .hint => cfg.maxLLMHintChars * 2 + 3
  | _ => 3

theorem Task.mayCall_iff (cfg : Config) {task : Task} (h : task.family ≠ .outside) :
    task.mayCall = true ↔ callThreshold cfg task.family ≤ task.remaining cfg := by
  cases task with
  | admitted => exact absurd rfl h
  | hintStream d prompt generated closing =>
    refine iff_of_false Bool.false_ne_true (Nat.not_le.mpr ?_)
    simp only [Task.remaining, Task.family, callThreshold]
    split <;> omega
  | _ => simp [Task.mayCall, callThreshold, Task.family, Task.remaining]

theorem Task.remaining_atCall (cfg : Config) {task : Task} (h : task.atCall = true) :
    task.remaining cfg = callThreshold cfg task.family := by
  cases task <;> first | rfl | cases h

section
variable {cfg : Config} {s : Server} {t : ServerTrigger} {o : Outcome} {g : Step} {task : Task}

/-- The segment makes no call, or it makes the call that its handler has come to. -/
def CallsOnce (task : Task) (g : Step) : Prop :=
  serviceCalls g.out = 0 ∨ serviceCalls g.out = 1 ∧ task.atCall = true

theorem CallsOnce.of_notes (h : notes g.out = []) : CallsOnce task g :=
  .inl (serviceCalls_eq_zero (by simp [h]))

/-- Handlers without a service. -/
theorem CallsOnce.of_within {f : Family} (h : Within f s g) (hf : f ∉ [.execution, .hint, .problem]) :
    CallsOnce task g := by
  refine .inl (serviceCalls_eq_zero fun e he => ?_)
  have hfamily := h.out e he
  cases e <;> first | rfl | (cases hfamily; simp at hf)

theorem execution_callsOnce (h : (server cfg).fire s (.task task o) = some g)
    (hf : triggerFamily (.task task o) = .execution) : CallsOnce task g := by
  have hwithin := fire_within h
  cases fire_lock h with
  | apart _ _ _ hout =>
    refine .of_notes (List.eq_nil_iff_forall_not_mem.mpr fun e he => hout e he ?_)
    rw [hwithin.out e he, hf]
  | opened _ _ _ _ _ hout => exact .of_notes hout
  | locked _ _ _ _ _ _ _ _ _ _ hout => exact .of_notes hout
  | moved _ _ _ _ _ _ _ _ _ _ hout =>
    rcases hout with hout | ⟨x, code, p, -, hout⟩
    · exact .of_notes hout
    · exact .inl (serviceCalls_eq_zero (by simp [hout, Effect.isServiceCall]))
  | reserved x loaded nonce htaken _ _ hout =>
    obtain rfl := List.singleton_inj.mp htaken
    refine .inr ⟨?_, rfl⟩
    rw [serviceCalls_notes, hout]
    rfl
  | finished _ _ _ _ _ _ hout => exact .inl (serviceCalls_eq_zero (by simp [hout, Effect.isServiceCall]))

theorem hint_callsOnce (h : (server cfg).fire s (.task task o) = some g)
    (hf : triggerFamily (.task task o) = .hint) : CallsOnce task g := by
  have hwithin := fire_within h
  have hcalls : serviceCalls g.out = llmRequests g.out := by
    rw [serviceCalls_notes, llmRequests_notes]
    refine List.countP_congr fun e he => ?_
    have hfamily := (hwithin.out e he).trans (congrArg some hf)
    cases e <;> first | rfl | cases hfamily
  have hrequests := (fire_stream h).requests
  cases hstarts : startsStream (.task task o) with
  | false => exact .inl (by rw [hcalls, hrequests, hstarts]; rfl)
  | true =>
    refine .inr ⟨by rw [hcalls, hrequests, hstarts]; rfl, ?_⟩
    unfold startsStream at hstarts
    split at hstarts
    · rename_i hsame
      cases hsame
      rfl
    · cases hstarts

theorem handleProblemSelect_notes (s : Server) (socket : SocketId) (id : Option ProblemId) :
    notes (handleProblemSelect s socket id).out = [] := by
  unfold handleProblemSelect
  split <;> simp

theorem handleProblemImport_notes (s : Server) (socket : SocketId) (url : Option JsString) :
    notes (handleProblemImport cfg s socket url).out = [] := by
  unfold handleProblemImport
  split
  · rfl
  · split_ifs
    · simp
    · split <;> simp

theorem afterImportFailure_notes (s : Server) (socket : SocketId) (reason : Failure) :
    notes (afterImportFailure s socket reason).out = [] := by
  cases reason <;> simp [afterImportFailure]

theorem problem_callsOnce (h : (server cfg).fire s (.task task o) = some g)
    (hf : triggerFamily (.task task o) = .problem) : CallsOnce task g := by
  cases hload : loads (.task task o) with
  | some p =>
    have hout := (fire_switched h hload).out
    exact .inl (serviceCalls_eq_zero (by simp [hout, Effect.isServiceCall]))
  | none =>
    change resumeTask cfg s task o = some g at h
    cases task with
    | admitted socket event seen =>
      cases o <;> cases h
      refine .of_notes ?_
      unfold runHandler
      split
      · rfl
      · cases event with
        | problemSelect id => exact handleProblemSelect_notes s socket id
        | problemImport url => exact handleProblemImport_notes s socket url
        | _ => cases hf
    | selecting socket p =>
      simp only [resumeTask, afterSelecting] at h
      split at h
      · cases hload
      · cases h; exact .of_notes (by simp)
      · cases h; exact .of_notes (by simp)
      · cases h
    | importIpLimiter socket url =>
      simp only [resumeTask, afterImportIpLimiter] at h
      split at h
      · split_ifs at h <;> cases h <;> exact .of_notes (by simp)
      · cases h; exact .of_notes (by simp)
      · cases h; exact .of_notes rfl
      · cases h
    | importQuota socket url =>
      simp only [resumeTask, afterImportQuota] at h
      split at h
      · split_ifs at h <;> cases h <;> exact .of_notes (by simp)
      · cases h; exact .of_notes (by simp)
      · cases h; exact .of_notes rfl
      · cases h
    | importLimiter socket url =>
      simp only [resumeTask, afterImportLimiter] at h
      split at h <;> cases h <;> exact .of_notes (by simp)
    | importReserve socket url =>
      simp only [resumeTask, afterImportReserve] at h
      split at h <;> cases h
      · exact .inr ⟨rfl, rfl⟩
      · exact .of_notes (by simp)
      · exact .of_notes (by simp)
    | importScrape socket url =>
      simp only [resumeTask, afterImportScrape] at h
      split at h <;> cases h <;> exact .of_notes (by simp)
    | importLoad socket p =>
      simp only [resumeTask, afterImportLoad] at h
      split at h
      · cases hload
      · cases h; exact .of_notes (afterImportFailure_notes s socket _)
      · cases h; exact .of_notes (afterImportFailure_notes s socket _)
      · cases h
    | importFailing socket reason =>
      cases o <;> cases h
      exact .of_notes (afterImportFailure_notes s socket reason)
    | _ => cases hf

/-- **A segment makes at most the one call that its handler has come to.** -/
theorem fire_callsOnce (h : (server cfg).fire s (.task task o) = some g) : CallsOnce task g := by
  cases hf : triggerFamily (.task task o) with
  | execution => exact execution_callsOnce h hf
  | hint => exact hint_callsOnce h hf
  | problem => exact problem_callsOnce h hf
  | _ => exact .of_within (fire_within h) (by simp [hf])

/-- Only a stream goes on with a text. -/
theorem nonempty_of_resume (h : resumeTask cfg s task o = some g) (hstream : task.isStream = false) :
    o.Nonempty := by
  cases o with
  | chunk text => cases task <;> first | cases h | cases hstream
  | _ => trivial

/-- A stream is behind its call. -/
theorem stream_mayCall (h : resumeTask cfg s task o = some g) (hstream : task.isStream = true) :
    g.next.countP Task.mayCall = 0 := by
  cases task with
  | hintStream d prompt generated closing =>
    simp only [resumeTask, afterHintStream] at h
    split at h
    · split_ifs at h
      cases h
      rfl
    · cases h
      unfold finishHintStream
      split <;> rfl
    · cases h; rfl
    · cases h
  | _ => cases hstream

/-- An admitted event is before its handler's call; any other task is of its handler's family. -/
theorem Task.admitted_or (task : Task) (o : Outcome) : task.mayCall = true ∧ task.atCall = false ∨
    triggerFamily (.task task o) = task.family ∧ task.family ≠ .outside := by
  cases task with
  | admitted => exact .inl ⟨rfl, rfl⟩
  | _ => exact .inr ⟨rfl, nofun⟩

/-- A handler that leaves a call to come had it to come, and has not come to it. -/
theorem mayCall_before {task' : Task} (hfamily : task'.family = triggerFamily (.task task o))
    (hless : task'.remaining cfg < task.remaining cfg) (hmay : task'.mayCall = true) :
    task.mayCall = true ∧ task.atCall = false := by
  rcases task.admitted_or o with hadmitted | ⟨hsame, hne⟩
  · exact hadmitted
  · rw [hsame] at hfamily
    have hle := (Task.mayCall_iff cfg (by rwa [hfamily])).mp hmay
    rw [hfamily] at hle
    refine ⟨(Task.mayCall_iff cfg hne).mpr (by omega), ?_⟩
    by_contra hat
    have hreached := Task.remaining_atCall cfg (Bool.not_eq_false _ ▸ hat)
    omega

/-- **The calls of a handler.** What has been called and what may still be called is at most what could. -/
theorem fire_calls (h : (server cfg).fire s (.task task o) = some g) :
    serviceCalls g.out + g.next.countP Task.mayCall ≤ task.mayCall.toNat := by
  have hcalls := fire_callsOnce h
  have hmay : task.atCall = true → task.mayCall = true := by cases task <;> simp [Task.atCall, Task.mayCall]
  have hquiet : g.next.countP Task.mayCall = 0 →
      serviceCalls g.out + g.next.countP Task.mayCall ≤ task.mayCall.toNat := by
    intro hnext
    rcases hcalls with hnone | ⟨hone, hat⟩
    · omega
    · rw [hnext, hone, hmay hat]
      rfl
  cases hstream : task.isStream with
  | true => exact hquiet (stream_mayCall h hstream)
  | false =>
    rcases resume_leaves (nonempty_of_resume h hstream) h with hnext | ⟨task', hnext, hless⟩
    · exact hquiet (by rw [hnext]; rfl)
    · by_cases hcall : task'.mayCall = true
      · have hfamily := (fire_within h).next task' (by simp [hnext])
        have hpos := task.remaining_pos cfg
        have hlighter : task'.remaining cfg < task.remaining cfg := by omega
        obtain ⟨hbefore, hat⟩ := mayCall_before hfamily hlighter hcall
        rcases hcalls with hnone | ⟨-, hat'⟩
        · simp [hnone, hnext, hcall, hbefore]
        · rw [hat] at hat'
          cases hat'
      · exact hquiet (by simp [hnext, hcall])

end

/-! ## Mandates -/

/-- The thread begins with an event for the family's handlers that the middleware let pass for a user of the
room. -/
def ByMember (f : Family) (turns : List ServerTurn) : Prop :=
  ∃ first rest socket event user, turns = first :: rest ∧ first.trigger = .event (.receive socket event) ∧
    event.family = f ∧ Admits first.before.shared socket event user

/-- A member asked for one of these families. -/
def ByMemberFor (fs : List Family) (turns : List ServerTurn) : Prop := ∃ f ∈ fs, ByMember f turns

/-- What a segment of a thread needs a member for. A message is one of the segment's family, which is a join,
the outside (an event as it comes in, the end of a socket, a timer), or what a member asked for. -/
structure Mandated (turns : List ServerTurn) (turn : ServerTurn) : Prop where
  effects : ∀ e ∈ turn.out, ∀ f, e.family = some f → ByMember f turns
  messages : ∀ k m, .deliver k m ∈ turn.out → ∃ f ∈ m.senders, triggerFamily turn.trigger = f ∧
    (f = .outside ∨ f = .join ∨ ByMember f turns)
  problem : turn.after.shared.room.problemId ≠ turn.before.shared.room.problemId ∨
    turn.after.shared.room.importsUsed ≠ turn.before.shared.room.importsUsed → ByMember .problem turns
  execution : turn.after.shared.room.executionInProgress ≠ turn.before.shared.room.executionInProgress ∨
    turn.after.shared.room.submissionsUsed ≠ turn.before.shared.room.submissionsUsed →
      ByMember .execution turns
  stream : turn.after.shared.room.hintStreaming ≠ turn.before.shared.room.hintStreaming ∨
    turn.after.shared.room.llmCallsUsed ≠ turn.before.shared.room.llmCallsUsed → ByMember .hint turns
  hints : turn.after.shared.room.hintsUsed ≠ turn.before.shared.room.hintsUsed ∨
    turn.after.shared.room.hintHistory ≠ turn.before.shared.room.hintHistory →
      ByMemberFor [.hint, .problem] turns
  cases : turn.after.shared.room.customTestCases ≠ turn.before.shared.room.customTestCases →
    ByMemberFor [.testCase, .problem] turns

/-- A thread with its tasks: its calls, made and to come, are at most one, and its tasks are a join or a
member's. -/
structure MandatedThread (turns : List ServerTurn) (ts : List Task) : Prop where
  begun : turns ≠ []
  calls : serviceCalls (turns.flatMap Turn.out) + ts.countP Task.mayCall ≤ 1
  waiting : ∀ task ∈ ts, task.handler = .join ∨ ByMember task.handler turns
  mandated : ∀ turn ∈ turns, Mandated turns turn

section
variable {cfg : Config} {turns : List ServerTurn} {turn : ServerTurn}

theorem ByMember.append {f : Family} (h : ByMember f turns) (later : List ServerTurn) :
    ByMember f (turns ++ later) := by
  obtain ⟨first, rest, socket, event, user, rfl, hrest⟩ := h
  exact ⟨first, rest ++ later, socket, event, user, rfl, hrest⟩

theorem ByMemberFor.append {fs : List Family} (h : ByMemberFor fs turns) (later : List ServerTurn) :
    ByMemberFor fs (turns ++ later) := by
  obtain ⟨f, hf, hmember⟩ := h
  exact ⟨f, hf, hmember.append later⟩

theorem Mandated.append (h : Mandated turns turn) (later : List ServerTurn) :
    Mandated (turns ++ later) turn where
  effects e he f hf := (h.effects e he f hf).append later
  messages k m hm := by
    obtain ⟨f, hf, hsame, hfor⟩ := h.messages k m hm
    exact ⟨f, hf, hsame, hfor.imp_right (Or.imp_right (·.append later))⟩
  problem hne := (h.problem hne).append later
  execution hne := (h.execution hne).append later
  stream hne := (h.stream hne).append later
  hints hne := (h.hints hne).append later
  cases hne := (h.cases hne).append later

/-- A field that changes is one of the segment's family. -/
theorem Within.changed {α : Type} {s : Server} {g : Step} {f : Family} (h : Within f s g) (φ : Server → α)
    (fs : List Family) (hφ : ∀ f ∉ fs, ∀ s, φ (f.erase s) = φ s) (hne : φ g.state ≠ φ s) : f ∈ fs := by
  by_contra hf
  exact hne (h.observe φ (hφ f hf))

/-- The segments of a family that a member asked for, and those of no handler's. -/
theorem mandated_of_fire {t : ServerTrigger} {g : Step} {f : Family} (htrigger : turn.trigger = t)
    (hfire : (server cfg).fire turn.before.shared t = some g) (hshared : turn.after.shared = g.state)
    (hout : turn.out = g.out) (hf : triggerFamily t = f)
    (hmember : f = .outside ∨ f = .join ∨ ByMember f turns) : Mandated turns turn := by
  have hwithin := fire_within hfire
  have hspeaks := fire_speaks hfire
  rw [hf] at hwithin hspeaks
  have hfor : ∀ fs : List Family, .outside ∉ fs → .join ∉ fs → f ∈ fs → ByMemberFor fs turns := by
    intro fs houtside hjoin hmem
    rcases hmember with rfl | rfl | hmember
    · exact absurd hmem houtside
    · exact absurd hmem hjoin
    · exact ⟨f, hmem, hmember⟩
  have hone : ∀ f' : Family, f' ≠ .outside → f' ≠ .join → f ∈ [f'] → ByMember f' turns := by
    intro f' houtside hjoin hmem
    obtain ⟨f'', hf'', hby⟩ := hfor [f'] (by simpa using houtside.symm) (by simpa using hjoin.symm) hmem
    exact List.mem_singleton.mp hf'' ▸ hby
  refine ⟨fun e he f' hf' => ?_, fun k m hm => ?_, fun hne => ?_, fun hne => ?_, fun hne => ?_, fun hne => ?_,
    fun hne => ?_⟩
  · have hnote : e ∈ notes g.out := by
      rw [← hout]
      exact List.mem_filter.mpr ⟨he, by simp [hf']⟩
    have hsame := hwithin.out e hnote
    rw [hf'] at hsame
    obtain rfl := Option.some.inj hsame
    refine hone f' ?_ ?_ (List.mem_singleton_self _) <;> (rintro rfl; cases e <;> cases hf')
  · rw [hout] at hm
    exact ⟨f, hspeaks k m hm, htrigger ▸ hf, hmember⟩
  · rw [hshared] at hne
    refine hone .problem nofun nofun ?_
    rcases hne with hne | hne
    · exact hwithin.changed (·.room.problemId) _ (fun f hf _ => by cases f <;> first | rfl | simp at hf) hne
    · exact hwithin.changed (·.room.importsUsed) _ (fun f hf _ => by cases f <;> first | rfl | simp at hf) hne
  · rw [hshared] at hne
    refine hone .execution nofun nofun ?_
    rcases hne with hne | hne
    · exact hwithin.changed (·.room.executionInProgress) _
        (fun f hf _ => by cases f <;> first | rfl | simp at hf) hne
    · exact hwithin.changed (·.room.submissionsUsed) _
        (fun f hf _ => by cases f <;> first | rfl | simp at hf) hne
  · rw [hshared] at hne
    refine hone .hint nofun nofun ?_
    rcases hne with hne | hne
    · exact hwithin.changed (·.room.hintStreaming) _
        (fun f hf _ => by cases f <;> first | rfl | simp at hf) hne
    · exact hwithin.changed (·.room.llmCallsUsed) _
        (fun f hf _ => by cases f <;> first | rfl | simp at hf) hne
  · rw [hshared] at hne
    refine hfor [.hint, .problem] (by decide) (by decide) ?_
    rcases hne with hne | hne
    · exact hwithin.changed (·.room.hintsUsed) _ (fun f hf _ => by cases f <;> first | rfl | simp at hf) hne
    · exact hwithin.changed (·.room.hintHistory) _ (fun f hf _ => by cases f <;> first | rfl | simp at hf) hne
  · rw [hshared] at hne
    refine hfor [.testCase, .problem] (by decide) (by decide) ?_
    exact hwithin.changed (·.room.customTestCases) _ (fun f hf _ => by cases f <;> first | rfl | simp at hf) hne

/-! ## Threads -/

/-- The middleware lets an event through for a member, or it is a join. -/
theorem MandatedThread.begin {e : ServerEvent} {g : Step} {rest : List Task}
    (htrigger : turn.trigger = .event e)
    (hby : (server cfg).StepBy turn.before turn.after turn.out (.event e) g rest) :
    MandatedThread [turn] g.next := by
  have hfire : handleEvent cfg turn.before.shared e = some g := hby.fire
  have hcalls : serviceCalls turn.out = 0 := by
    refine serviceCalls_eq_zero fun effect he => ?_
    rw [hby.out] at he
    have hfamily := (fire_within hby.fire).out effect he
    cases effect <;> first | rfl | cases hfamily
  have hnext : g.next.countP Task.mayCall ≤ 1 ∧
      ∀ task ∈ g.next, task.handler = .join ∨ ByMember task.handler [turn] := by
    rcases handleEvent_next hfire with hnone | ⟨socket, event, rfl, rfl⟩
    · simp [hnone]
    · rcases authMiddleware_next turn.before.shared socket event with hnone | ⟨payload, rfl, hnext⟩ |
        ⟨user, huser, hsocket, hreject, hnext⟩
      · simp [hnone]
      · simp [hnext, Task.mayCall, Task.handler, ClientEvent.family]
      · rw [hnext]
        refine ⟨by simp [Task.mayCall], fun task hm => ?_⟩
        rw [List.mem_singleton.mp hm]
        exact .inr ⟨turn, [], socket, event, user, rfl, htrigger, rfl, huser, hsocket, hreject⟩
  refine ⟨List.cons_ne_nil _ _, ?_, hnext.2, fun turn' hm => ?_⟩
  · rw [List.flatMap_singleton, hcalls]
    omega
  · rw [List.mem_singleton.mp hm]
    exact mandated_of_fire htrigger hby.fire hby.shared hby.out rfl (.inl rfl)

/-- A handler goes on in its member's name, and has one call at most. -/
theorem MandatedThread.step {task : Task} {o : Outcome} {g : Step} {rest ts : List Task}
    (h : MandatedThread turns (task :: ts)) (htrigger : turn.trigger = .task task o)
    (hby : (server cfg).StepBy turn.before turn.after turn.out (.task task o) g rest) :
    MandatedThread (turns ++ [turn]) (ts ++ g.next) := by
  have hsame : triggerFamily (.task task o) = task.handler := by cases task <;> rfl
  have hmember : task.handler = .join ∨ ByMember task.handler (turns ++ [turn]) :=
    (h.waiting task List.mem_cons_self).imp_right fun hmember => hmember.append _
  refine ⟨List.append_ne_nil_of_left_ne_nil h.begun _, ?_, fun task' hm => ?_, fun turn' hm => ?_⟩
  · have hcalls := h.calls
    have hmore := fire_calls hby.fire
    rw [List.countP_cons] at hcalls
    rw [← hby.out] at hmore
    rw [List.flatMap_append, List.flatMap_singleton, serviceCalls_append, List.countP_append]
    cases hmay : task.mayCall <;> simp only [hmay, Bool.toNat_false, Bool.toNat_true, if_true, if_false,
      Bool.false_eq_true] at hcalls hmore <;> omega
  · rcases List.mem_append.mp hm with hm | hm
    · exact (h.waiting task' (List.mem_cons_of_mem _ hm)).imp_right fun hmember => hmember.append _
    · rwa [next_handler hby.fire hm]
  · rcases List.mem_append.mp hm with hm | hm
    · exact (h.mandated turn' hm).append _
    · rw [List.mem_singleton.mp hm]
      exact mandated_of_fire htrigger hby.fire hby.shared hby.out hsame (.inr hmember)

theorem MandatedThread.perm {ts ts' : List Task} (hperm : ts.Perm ts') (h : MandatedThread turns ts) :
    MandatedThread turns ts' where
  begun := h.begun
  calls := by
    rw [← hperm.countP_eq]
    exact h.calls
  waiting task hm := h.waiting task (hperm.mem_iff.mpr hm)
  mandated := h.mandated

end

/-! ## Runs -/

/-- **The members' mandate.** Every run falls into threads, one for each event. A thread calls the services
behind the server at most once, and its segments act on the room only for a member whose event it began with. -/
theorem members_mandate {cfg : Config} {mode : RoomMode} {now : Time} {acts : List ServerAct} {c : ServerConf}
    {out : List Effect} (hreach : Reaches cfg mode now acts c out) :
    ∃ d, ReachesThreaded cfg mode now acts d out ∧ d.base = c ∧
      (∀ turn ∈ (server cfg).history (initial cfg mode now) acts,
        ∃ k < d.shared.2, turn ∈ threadTurns cfg mode now acts k) ∧
      ∀ k < d.shared.2, serviceCalls ((threadTurns cfg mode now acts k).flatMap Turn.out) ≤ 1 ∧
        ∀ turn ∈ threadTurns cfg mode now acts k, Mandated (threadTurns cfg mode now acts k) turn := by
  obtain ⟨d, hthreaded, hbase⟩ := Machine.run_threaded (c := ⟨(initialServer cfg mode now, 0), []⟩) hreach
  have hok := Machine.thread_rule (P := fun _ _ => True) (J := MandatedThread)
    (fun _ _ _ hperm h => h.perm hperm) (fun turn e g others _ htrigger hby => .begin htrigger hby)
    (fun turns turn task o g others ts h _ htrigger hby => h.step htrigger hby) (Machine.meets_true _ _) hthreaded
  refine ⟨d, hthreaded, hbase, fun turn hturn => ?_, fun k hk => ?_⟩
  · have hhistory := (Machine.run_of_threaded hthreaded).2
    change (server cfg).history (initial cfg mode now) acts = _ at hhistory
    rw [hhistory] at hturn
    obtain ⟨turn', hmem, rfl⟩ := List.mem_map.mp hturn
    refine ⟨turn'.thread, hok.turns turn' hmem, ?_⟩
    exact List.mem_map_of_mem (List.mem_filter.mpr ⟨hmem, by simp⟩)
  · have hthread := hok.threads k hk
    exact ⟨Nat.le_of_add_right_le hthread.calls, hthread.mandated⟩

/-- A user imports a problem. -/
def exampleMemberImport : List ServerAct := exampleJoin 0 .go ++
  [.event (.receive 0 (.problemImport (some (js "https://leetcode.com/problems/two-sum/")))), .resume 0 .go,
    .resume 0 .allowed, .resume 0 (.answer true), .resume 0 (.answer true)]

theorem members_mandate_example : ∃ c out,
    Reaches plainConfig .collaboration 0 exampleMemberImport c out ∧ serviceCalls out = 1 ∧
    ∃ d, ReachesThreaded plainConfig .collaboration 0 exampleMemberImport d out ∧ d.base = c ∧
      (∀ turn ∈ (server plainConfig).history (initial plainConfig .collaboration 0) exampleMemberImport,
        ∃ k < d.shared.2, turn ∈ threadTurns plainConfig .collaboration 0 exampleMemberImport k) ∧
      ∀ k < d.shared.2,
        serviceCalls ((threadTurns plainConfig .collaboration 0 exampleMemberImport k).flatMap Turn.out) ≤ 1 ∧
        ∀ turn ∈ threadTurns plainConfig .collaboration 0 exampleMemberImport k,
          Mandated (threadTurns plainConfig .collaboration 0 exampleMemberImport k) turn := by
  obtain ⟨c, out, hreach, hcalls⟩ : ∃ c out,
      Reaches plainConfig .collaboration 0 exampleMemberImport c out ∧ serviceCalls out = 1 :=
    ⟨_, _, rfl, rfl⟩
  exact ⟨c, out, hreach, hcalls, members_mandate hreach⟩

end CodeShare
