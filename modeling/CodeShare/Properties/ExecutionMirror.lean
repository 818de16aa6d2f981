import CodeShare.Client.Mirror
import CodeShare.Properties.ExecutionLock

/-! # The client's view of an execution

A client takes `execution:started` as the beginning of an execution and any result or error as its end.
An attempt that is refused is answered with the same error, a sync behind the result shows the lock
that `finally` has not released yet, and the count of submissions is told by syncs alone. Apart from
these the client knows whether an execution is on.
-/

namespace CodeShare
open Tasks
set_option autoImplicit false

/-- An execution that has been announced shows as one in progress; when no handler is active none
shows, and the submissions that are used are known. -/
structure MirrorsExecution (clock : ℕ → Time) (state : ClientRoomState) (k : SocketId) (c : ServerConf)
    (out : List Effect) : Prop where
  announced : (∃ task ∈ c.pool, task.awaitsOutcome = true) →
    (clientState clock state (messagesTo k out)).executionInProgress = true
  idle : (∀ task ∈ c.pool, task.execution = none) →
    (clientState clock state (messagesTo k out)).executionInProgress = false
  used : (∀ task ∈ c.pool, task.execution = none) →
    (clientState clock state (messagesTo k out)).submissionsUsed = c.shared.room.submissionsUsed

/-- The client is refused an attempt only when no execution is announced, and it sees no sync between
a result and the end of its handler. -/
def SparesFlag (cfg : Config) (k : SocketId) (c : ServerConf) (t : ServerTrigger) : Prop :=
  (k ∈ c.shared.joined →
    (refusesExecution c.shared t = some k → c.pool.countP Task.awaitsOutcome = 0) ∧
    (syncs cfg c.shared t = true → c.pool.countP Task.answered = 0)) ∧
  (answering c.shared t = some k → c.pool.countP Task.answered = 0)

/-- No execution that counts ends while the client is there. -/
def SparesCount (k : SocketId) (c : ServerConf) (t : ServerTrigger) : Prop :=
  k ∈ c.shared.joined → countsSubmission t = false

instance (cfg : Config) (k : SocketId) (c : ServerConf) (t : ServerTrigger) :
    Decidable (SparesFlag cfg k c t) := by
  unfold SparesFlag
  infer_instance

instance (k : SocketId) (c : ServerConf) (t : ServerTrigger) : Decidable (SparesCount k c t) := by
  unfold SparesCount
  infer_instance

/-! ## Handlers in the pool -/

theorem countP_holdsLock_eq (pool : List Task) :
    pool.countP Task.holdsLock = pool.countP Task.awaitsOutcome + pool.countP Task.answered := by
  induction pool with
  | nil => rfl
  | cons task pool ih =>
    rw [List.countP_cons, List.countP_cons, List.countP_cons, ih, Task.holdsLock_eq]
    cases task with
    | executionSettling x reserved failure =>
      cases failure <;> simp [Task.awaitsOutcome, Task.answered] <;> omega
    | _ => simp [Task.awaitsOutcome, Task.answered] <;> omega

theorem countP_of_holdsLock {tasks : List Task} (h : tasks.countP Task.holdsLock = 0) :
    tasks.countP Task.awaitsOutcome = 0 ∧ tasks.countP Task.answered = 0 := by
  rw [countP_holdsLock_eq] at h
  omega

variable {cfg : Config} {c c' : ServerConf} {past out : List Effect} {t : ServerTrigger} {g : Step}
  {rest : List Task} {k : SocketId} {v : Shown}

/-- Segments of other handlers leave those of executions where they are. -/
theorem countP_apart (hby : (server cfg).StepBy c c' out t g rest)
    (hf : triggerFamily t ≠ .execution) :
    c'.pool.countP Task.awaitsOutcome = c.pool.countP Task.awaitsOutcome ∧
    c'.pool.countP Task.answered = c.pool.countP Task.answered ∧
    g.state.countView = c.shared.countView := by
  have hwithin := fire_within hby.fire
  have htaken : t.taken.countP Task.holdsLock = 0 := by
    cases t with
    | event e => rfl
    | task task o =>
      cases task <;> first | rfl | exact absurd rfl hf
  have hnext : g.next.countP Task.holdsLock = 0 := by
    refine countP_holdsLock_of_not_execution fun task hm => ?_
    by_contra hx
    exact hf ((hwithin.next task hm).symm.trans (Task.family_of_execution hx))
  obtain ⟨htaken₁, htaken₂⟩ := countP_of_holdsLock htaken
  obtain ⟨hnext₁, hnext₂⟩ := countP_of_holdsLock hnext
  have hawaits := hby.countP_after Task.awaitsOutcome
  have hanswered := hby.countP_after Task.answered
  refine ⟨by omega, by omega, hwithin.observe Server.countView ?_⟩
  generalize triggerFamily t = f at hf
  cases f <;> first | exact fun _ => rfl | exact absurd rfl hf

/-! ## Segments of other handlers -/

def Message.isSync : Message → Bool
  | roomSync _ => true
  | _ => false

theorem Message.isSync_of_quiet {m : Message} (h : m.quiet = true) :
    m.isSync = false ∧ m.isExecution = false := by
  cases m <;> first | exact ⟨rfl, rfl⟩ | cases h

/-- A part of the copy that only syncs and messages about executions touch. -/
theorem Announces.spared {α : Type} {f : Shown → α} (hannounces : Announces cfg c.shared t g)
    (hf : ∀ m : Message, m.isSync = false ∧ m.isExecution = false → m.Spares f)
    (hcount : c.shared.joined.count k = 1) (hjoined : k ∈ g.state.joined)
    (hnot : ∀ user announced users fresh, ¬ AnswersJoin c.shared t g k user announced users fresh)
    (hview : f g.state.room.shown = f c.shared.room.shown)
    (hsyncs : syncs cfg c.shared t = true → f v = f c.shared.room.shown)
    (hreplies : ¬ Replies c.shared t g) (clock : ℕ → Time) : f (heard clock v k g.out) = f v := by
  have hspares : (∀ m ∈ messagesTo k g.out, m.Spares f) → f (heard clock v k g.out) = f v :=
    Shown.receiveAll_spares clock
  have hfirst : ∀ {received : List Message}, messagesTo k g.out =
      List.replicate (c.shared.joined.count k) (.roomSync g.state.room.toSyncPayload) ++ received →
      (∀ m ∈ received, m.Spares f) → syncs cfg c.shared t = true →
      f (heard clock v k g.out) = f v := by
    intro received hout hreceived hsync
    rw [heard_first (f := f) (v := v) clock hcount hout rfl hreceived, hsyncs hsync, hview]
  cases hannounces with
  | quiet _ hout => exact hspares fun m hm => hf m (Message.isSync_of_quiet (hout k m hm))
  | connected _ hout =>
    refine hspares ?_
    rw [hout k]
    exact List.forall_mem_nil _
  | replies h => exact absurd h hreplies
  | hintRefused socket message _ _ hout =>
    refine hspares ?_
    rw [hout k]
    exact spares_replicate (hf _ ⟨rfl, rfl⟩) _
  | hintDelivered charge fullHint remaining _ _ hout =>
    refine hspares ?_
    rw [hout k]
    exact spares_replicate (hf _ ⟨rfl, rfl⟩) _
  | hintAsked requester hrequester _ _ hout =>
    refine hfirst (hout k) (spares_flatMap fun _ _ => hf _ ⟨rfl, rfl⟩) ?_
    unfold syncs
    rw [hrequester]
    rfl
  | hintAnswered requester hanswers _ hout =>
    refine hfirst (hout k) (spares_flatMap fun _ _ => hf _ ⟨rfl, rfl⟩) ?_
    unfold syncs
    rw [hanswers, Bool.or_true, Bool.true_or]
  | loaded detail after _ hafter _ hout =>
    refine hspares ?_
    rw [hout k]
    exact List.forall_mem_append.mpr ⟨spares_replicate (hf _ ⟨rfl, rfl⟩) _,
      spares_flatMap fun m hm => hf m (Message.isSync_of_quiet (hafter m hm))⟩
  | testCaseAdded testCase _ hout =>
    refine hspares ?_
    rw [hout k]
    exact spares_replicate (hf _ ⟨rfl, rfl⟩) _
  | joined socket user announced users fresh hanswers =>
    refine hspares ?_
    rw [(hanswers.unheard hnot).2]
    exact List.forall_mem_nil _
  | hydrated socket p announced hends =>
    refine hspares ?_
    rw [hends.out k]
    exact List.forall_mem_append.mpr
      ⟨spares_flatMap fun _ _ => hf _ ⟨rfl, rfl⟩, spares_flatMap fun _ _ => hf _ ⟨rfl, rfl⟩⟩
  | closed socket before hcloses hlive hbefore hview' hout =>
    have hquiet : ∀ m ∈ before k, m.Spares f :=
      fun m hm => hf m (Message.isSync_of_quiet (hbefore k m hm))
    have hjoined' : g.state.joined = c.shared.joined.filter (· ≠ socket) :=
      congrArg RoomView.joined hview'
    cases hdrops : c.shared.dropsRequest socket with
    | true =>
      have hsync : syncs cfg c.shared t = true := by
        unfold syncs
        rw [hcloses]
        simp [hlive, hdrops]
      rw [heard_closed (v := v) clock hcount (hjoined' ▸ hjoined) (hsyncs hsync) (fun _ => hview)
        hquiet (fun _ => hf _ ⟨rfl, rfl⟩) (hout k), hsyncs hsync, hview]
    | false =>
      refine hspares ?_
      rw [hout k, hdrops, if_neg Bool.false_ne_true, List.append_nil]
      exact List.forall_mem_append.mpr ⟨hquiet, spares_flatMap fun _ _ => hf _ ⟨rfl, rfl⟩⟩
  | removed userId rotated _ _ hout =>
    refine hspares ?_
    rw [hout k]
    split_ifs
    · exact spares_replicate (hf _ ⟨rfl, rfl⟩) _
    · exact List.forall_mem_nil _

/-! ## The flag -/

/-- What a client shows is whether a handler awaits an outcome. -/
def ShowsAwaiting (v : Shown) (c : ServerConf) : Prop :=
  c.pool.countP Task.awaitsOutcome = v.executionInProgress.toNat

/-- A segment of an execution handler. -/
theorem Replies.flag (hreplies : Replies c.shared t g) (hcount : c.shared.joined.count k = 1)
    (hby : (server cfg).StepBy c c' out t g rest) (hlock : LockInvariant c past)
    (hrefuses : refusesExecution c.shared t = some k → c.pool.countP Task.awaitsOutcome = 0)
    (clock : ℕ → Time) (hv : ShowsAwaiting v c) : ShowsAwaiting (heard clock v k g.out) c' := by
  have howned : c.pool.countP Task.holdsLock = c.shared.room.executionInProgress.toNat := hlock.owned
  have hone := c.shared.room.executionInProgress.toNat_le
  have hafter := hby.countP_after Task.awaitsOutcome
  have hanswered := hby.countP_after Task.answered
  rw [countP_holdsLock_eq] at howned
  unfold ShowsAwaiting at hv ⊢
  unfold heard
  cases hreplies with
  | silent hawaits _ _ hout =>
    rw [hout k, Shown.receiveAll_nil]
    omega
  | refused socket errorType message hsocket htaken hnext _ hout =>
    have htaken' := (countP_of_holdsLock htaken).1
    rw [hnext, List.countP_nil] at hafter
    rw [hout k]
    by_cases hk : socket = k
    · subst hk
      have hnone := hrefuses hsocket
      have hflag : v.executionInProgress = false := by
        cases hv' : v.executionInProgress with
        | false => rfl
        | true => rw [hv', hnone] at hv; cases hv
      have hfalse : (v.receiveAll clock (List.replicate (reaches c.shared.live socket socket)
          (.executionError errorType message))).executionInProgress = false :=
        Shown.receiveAll_induction (p := fun w => w.executionInProgress = false) hflag
          fun m hm now w hw => by rw [List.eq_of_mem_replicate hm]; rfl
      rw [hfalse, Bool.toNat_false]
      omega
    · rw [reaches_ne hk, List.replicate_zero, Shown.receiveAll_nil]
      omega
  | started executionType task htaken hfree hnext hawaits _ hout =>
    have htaken' := (countP_of_holdsLock htaken).1
    rw [hfree, Bool.toNat_false] at howned
    rw [hnext, List.countP_singleton, hawaits, if_pos rfl] at hafter
    rw [hout k, hcount, List.replicate_one]
    change c'.pool.countP Task.awaitsOutcome = 1
    omega
  | tooLong executionType task errorType message htaken hfree hnext htask _ hout =>
    have htaken' := (countP_of_holdsLock htaken).1
    have hidle : task.awaitsOutcome = false := by
      cases task with
      | executionSettling x reserved failure => cases failure <;> first | rfl | cases htask
      | _ => cases htask
    rw [hfree, Bool.toNat_false] at howned
    rw [hnext, List.countP_singleton, hidle, if_neg Bool.false_ne_true] at hafter
    rw [hout k, hcount, List.replicate_one, List.replicate_one]
    change c'.pool.countP Task.awaitsOutcome = 0
    omega
  | replied task task' reply htaken hawaits hnext htask _ hout =>
    have hidle : task'.awaitsOutcome = false := by
      cases task' with
      | executionSettling x reserved failure => cases failure <;> first | rfl | cases htask
      | _ => cases htask
    rw [htaken, hnext, List.countP_singleton, List.countP_singleton, hawaits, hidle, if_pos rfl,
      if_neg Bool.false_ne_true] at hafter
    have hfalse : (v.receiveAll clock [reply.message]).executionInProgress = false := by
      cases reply <;> rfl
    rw [hout k, hcount, List.replicate_one, hfalse, Bool.toNat_false]
    omega
  | finished x reserved failure htaken _ hnext _ hout =>
    rw [htaken, hnext, List.countP_nil, List.countP_singleton] at hafter hanswered
    rw [hout k]
    cases failure with
    | none =>
      -- the result went out before, so nobody awaits one
      rw [if_neg (by exact Bool.false_ne_true)] at hafter
      rw [if_pos (by rfl)] at hanswered
      change c'.pool.countP Task.awaitsOutcome = v.executionInProgress.toNat
      omega
    | some reason =>
      rw [if_pos (by rfl)] at hafter
      rw [Option.toList_some, List.flatMap_singleton, hcount, List.replicate_one]
      change c'.pool.countP Task.awaitsOutcome = 0
      omega

/-- One segment, seen by a client in the room that does not join anew. -/
theorem showsAwaiting_step (hby : (server cfg).StepBy c c' out t g rest) (hlock : LockInvariant c past)
    (hcount : c.shared.joined.count k = 1) (hjoined : k ∈ g.state.joined)
    (hnot : ∀ user announced users fresh, ¬ AnswersJoin c.shared t g k user announced users fresh)
    (hrefuses : refusesExecution c.shared t = some k → c.pool.countP Task.awaitsOutcome = 0)
    (hsyncs : syncs cfg c.shared t = true → c.pool.countP Task.answered = 0) (clock : ℕ → Time)
    (hv : ShowsAwaiting v c) : ShowsAwaiting (heard clock v k g.out) c' := by
  by_cases hreplies : Replies c.shared t g
  · exact hreplies.flag hcount hby hlock hrefuses clock hv
  · have hf : triggerFamily t ≠ .execution := fun hf => hreplies (fire_replies hby.fire hf)
    obtain ⟨hawaits, hanswered, hview⟩ := countP_apart hby hf
    have howned : c.pool.countP Task.holdsLock = c.shared.room.executionInProgress.toNat := hlock.owned
    rw [countP_holdsLock_eq] at howned
    unfold ShowsAwaiting at hv ⊢
    have hspared : (heard clock v k g.out).executionInProgress = v.executionInProgress := by
      refine (fire_announces hby.fire).spared (f := Shown.executionInProgress) (fun m hm now w => ?_)
        hcount hjoined hnot (congrArg Prod.fst hview) (fun hsync => ?_) hreplies clock
      · cases m <;> first | rfl | (cases hm.1; done) | cases hm.2
      · -- without an answered handler the lock is that of the announced execution
        have hsame : v.executionInProgress.toNat = c.shared.room.executionInProgress.toNat := by
          have hnone := hsyncs hsync
          omega
        have hroom : c.shared.room.shown.executionInProgress =
            c.shared.room.executionInProgress := rfl
        rw [hroom]
        cases hv' : v.executionInProgress <;> cases hr : c.shared.room.executionInProgress <;>
          first | rfl | (rw [hv', hr] at hsame; cases hsame)
    rw [hspared, hawaits, hv]

/-! ## The count -/

/-- One segment, seen by a client in the room that does not join anew. -/
theorem submissionsUsed_step (hby : (server cfg).StepBy c c' out t g rest)
    (hcount : c.shared.joined.count k = 1) (hjoined : k ∈ g.state.joined)
    (hnot : ∀ user announced users fresh, ¬ AnswersJoin c.shared t g k user announced users fresh)
    (hfree : countsSubmission t = false) (clock : ℕ → Time)
    (hv : v.submissionsUsed = c.shared.room.submissionsUsed) :
    (heard clock v k g.out).submissionsUsed = g.state.room.submissionsUsed := by
  by_cases hreplies : Replies c.shared t g
  · have hspared : (heard clock v k g.out).submissionsUsed = v.submissionsUsed := by
      refine Shown.receiveAll_spares (f := Shown.submissionsUsed) clock fun m hm now w => ?_
      have hm' := hreplies.isExecution k m hm
      cases m <;> first | rfl | cases hm'
    rw [hspared, hv]
    cases hreplies with
    | silent _ _ hview => exact (congrArg Prod.snd hview).symm
    | refused _ _ _ _ _ _ hview => exact (congrArg Prod.snd hview).symm
    | started _ _ _ _ _ _ hview => exact (congrArg Prod.snd hview).symm
    | tooLong _ _ _ _ _ _ _ _ hview => exact (congrArg Prod.snd hview).symm
    | replied _ _ _ _ _ _ _ hview => exact (congrArg Prod.snd hview).symm
    | finished x reserved failure htaken hcounts hnext hview =>
      obtain rfl : reserved = false := hcounts.symm.trans hfree
      exact (congrArg Prod.snd hview).symm
  · have hf : triggerFamily t ≠ .execution := fun hf => hreplies (fire_replies hby.fire hf)
    have hview := congrArg Prod.snd (countP_apart hby hf).2.2
    have hspared : (heard clock v k g.out).submissionsUsed = v.submissionsUsed := by
      refine (fire_announces hby.fire).spared (f := Shown.submissionsUsed) (fun m hm now w => ?_)
        hcount hjoined hnot hview (fun _ => hv) hreplies clock
      cases m <;> first | rfl | cases hm.1
    rw [hspared, hv]
    exact hview.symm

/-! ## Runs -/

section
variable {mode : RoomMode} {now : Time} {acts : List ServerAct}

/-- The flag says whether an announced execution has not been answered yet. -/
theorem flag_mirrors (clock : ℕ → Time) (v : Shown) (hreach : Reaches cfg mode now acts c out)
    (hmeets : Meeting cfg (SparesFlag cfg k) mode now acts) (hjoined : k ∈ c.shared.joined) :
    ShowsAwaiting (heard clock v k out) c := by
  refine mirror_run (A := ShowsAwaiting) (I := LockInvariant) (P := SparesFlag cfg k)
    (initial_lock cfg mode now) (fun _ _ _ _ _ _ _ h _ hby => lock_step h hby) ?_ ?_ clock v hmeets
    hreach hjoined
  · intro c c' past out t g rest user announced users fresh hlock hP hby hanswers
    have hnone : c'.pool.countP Task.answered = 0 := by
      have hbefore := hP.2 hanswers.answering
      have hcount := hby.countP_after Task.answered
      rw [hanswers.next, List.countP_singleton] at hcount
      have hidle : (Task.hydrating k c.shared.room.problemId announced).answered = false := rfl
      rw [hidle, if_neg Bool.false_ne_true] at hcount
      omega
    have howned : c'.pool.countP Task.holdsLock = c'.shared.room.executionInProgress.toNat :=
      (lock_step hlock hby).owned
    rw [countP_holdsLock_eq, hnone, hby.shared] at howned
    exact howned
  · intro c c' past out t g rest v clock hlock hcount hjoined hlive hA hP hby hnot
    have hbefore : k ∈ c.shared.joined := List.count_pos_iff.mp (by omega)
    exact showsAwaiting_step hby hlock hcount hjoined hnot (hP.1 hbefore).1 (hP.1 hbefore).2 clock hA

/-- The count is that of the room. -/
theorem count_mirrors (clock : ℕ → Time) (v : Shown) (hreach : Reaches cfg mode now acts c out)
    (hmeets : Meeting cfg (fun c t => SparesCount k c t) mode now acts)
    (hjoined : k ∈ c.shared.joined) :
    (heard clock v k out).submissionsUsed = c.shared.room.submissionsUsed := by
  refine mirror_run (A := fun v c => v.submissionsUsed = c.shared.room.submissionsUsed)
    (I := fun _ _ => True) (P := SparesCount k) trivial (fun _ _ _ _ _ _ _ _ _ _ => trivial) ?_ ?_
    clock v hmeets hreach hjoined
  · intro c c' past out t g rest user announced users fresh _ _ hby _
    rw [hby.shared]
    rfl
  · intro c c' past out t g rest v clock _ hcount hjoined hlive hA hP hby hnot
    have hbefore : k ∈ c.shared.joined := List.count_pos_iff.mp (by omega)
    rw [hby.shared]
    exact submissionsUsed_step hby hcount hjoined hnot (hP hbefore) clock hA

end

/-- **Execution mirror.** A client shows the executions of the room in every run in which it is refused
no attempt while one is announced, it sees no sync between a result and the end of the handler, and no
execution that counts ends while it is there. -/
theorem execution_mirrors {cfg : Config} {mode : RoomMode} {now : Time} {acts : List ServerAct}
    {c : ServerConf} {out : List Effect} {k : SocketId} (clock : ℕ → Time) (state : ClientRoomState)
    (hreach : Reaches cfg mode now acts c out)
    (hflag : Meeting cfg (SparesFlag cfg k) mode now acts)
    (hcount : Meeting cfg (SparesCount k) mode now acts) (hjoined : k ∈ c.shared.joined) :
    MirrorsExecution clock state k c out := by
  have hheard : (clientState clock state (messagesTo k out)).shown = heard clock state.shown k out :=
    shown_clientState clock state (messagesTo k out)
  have hshows := flag_mirrors clock state.shown hreach hflag hjoined
  have hused := count_mirrors clock state.shown hreach hcount hjoined
  rw [← hheard] at hshows hused
  refine ⟨fun hannounced => ?_, fun hidle => ?_, fun _ => hused⟩
  · have hpos : 0 < c.pool.countP Task.awaitsOutcome := List.countP_pos_iff.mpr hannounced
    have hone := (clientState clock state (messagesTo k out)).executionInProgress.toNat_le
    rw [hshows] at hpos
    exact Bool.toNat_eq_one.mp (Nat.le_antisymm hone hpos)
  · have hnone : c.pool.countP Task.awaitsOutcome = 0 :=
      (countP_of_holdsLock (countP_holdsLock_of_not_execution hidle)).1
    rw [hshows] at hnone
    exact Bool.toNat_eq_zero.mp hnone

/-- Two users press the button at the same time; the first execution starts, the second is refused. -/
def exampleRunTwice : List ServerAct :=
  exampleJoin 0 .go ++ exampleJoin 1 .go ++ exampleSelect 0 7 ++
    [.event (.receive 0 .codeRun), .event (.receive 1 .codeRun), .resume 0 .go, .resume 0 .go,
      .resume 0 .allowed, .resume 0 .allowed]

theorem execution_mirrors_example : ∃ c out,
    Reaches plainConfig .collaboration 0 exampleRunTwice c out ∧ 0 ∈ c.shared.joined ∧
    (∃ task ∈ c.pool, task.awaitsOutcome = true) ∧
    MirrorsExecution id initialRoomState 0 c out := by
  obtain ⟨c, out, hreach, hjoined, hawaits⟩ : ∃ c out,
      Reaches plainConfig .collaboration 0 exampleRunTwice c out ∧ 0 ∈ c.shared.joined ∧
      ∃ task ∈ c.pool, task.awaitsOutcome = true :=
    ⟨_, _, rfl, by decide, _, List.mem_singleton_self _, rfl⟩
  have hflag : Meeting plainConfig (SparesFlag plainConfig 0) .collaboration 0 exampleRunTwice := by
    unfold Meeting
    decide
  have hcount : Meeting plainConfig (SparesCount 0) .collaboration 0 exampleRunTwice := by
    unfold Meeting
    decide
  exact ⟨c, out, hreach, hjoined, hawaits,
    execution_mirrors id initialRoomState hreach hflag hcount hjoined⟩

/-- The one who is refused takes the other's execution for ended. -/
theorem execution_shown_ended : ¬ ∀ (acts : List ServerAct) (c : ServerConf) (out : List Effect)
    (k : SocketId), Reaches plainConfig .collaboration 0 acts c out → k ∈ c.shared.joined →
    MirrorsExecution id initialRoomState k c out := by
  intro hclaim
  obtain ⟨c, out, hreach, hjoined, hawaits, hclient⟩ : ∃ c out,
      Reaches plainConfig .collaboration 0 exampleRunTwice c out ∧ 1 ∈ c.shared.joined ∧
      (∃ task ∈ c.pool, task.awaitsOutcome = true) ∧
      (clientState id initialRoomState (messagesTo 1 out)).executionInProgress = false :=
    ⟨_, _, rfl, by decide, ⟨_, List.mem_singleton_self _, rfl⟩, rfl⟩
  have h := (hclaim _ c out 1 hreach hjoined).announced hawaits
  rw [hclient] at h
  cases h

end CodeShare
