import CodeShare.Client.Mirror

/-! # The live mirror

A client that joined before any problem was selected shows the problem, the hints and the custom test
cases of the room, whatever happens there. Only what a join sends behind its hydration could disturb
this, and without a problem nothing is hydrated.
-/

namespace CodeShare
open Tasks
set_option autoImplicit false

/-! ## Problem, hints and test cases -/

/-- The problem with its hints and test cases. -/
def Shown.work (v : Shown) : Option ProblemId × ℕ × ℕ × List CustomTestCase :=
  (v.problemId, v.hintsUsed, v.hintLimit, v.customTestCases)

theorem Shown.work_eq_iff {v : Shown} {room : Room} : v.work = room.shown.work ↔
    v.problemId = room.problemId ∧ v.hintsUsed = room.hintsUsed ∧ v.hintLimit = room.hintLimit ∧
      v.customTestCases = room.customTestCases.map fun t => t.toCustomTestCase := by
  simp only [Shown.work, Prod.mk.injEq]
  exact Iff.rfl

theorem Message.spares_work_of_quiet {m : Message} (h : m.quiet = true) : m.Spares Shown.work := by
  intro now v
  rw [Shown.receive_quiet h]

theorem Message.spares_work_of_isExecution {m : Message} (h : m.isExecution = true) :
    m.Spares Shown.work := by
  intro now v
  cases m <;> first | rfl | cases h

variable {cfg : Config} {s : Server} {t : ServerTrigger} {g : Step} {k : SocketId} {v : Shown}

/-- One segment, seen by a client in the room that does not join anew and is not hydrated. -/
theorem Announces.work (hannounces : Announces cfg s t g) (hcount : s.joined.count k = 1)
    (hjoined : k ∈ g.state.joined)
    (hnot : ∀ user announced users fresh, ¬ AnswersJoin s t g k user announced users fresh)
    (hdetail : ∀ detail, rehydrates t ≠ some (k, detail))
    (clock : ℕ → Time) (hv : v.work = s.room.shown.work) :
    (heard clock v k g.out).work = g.state.room.shown.work := by
  have hkept : ∀ {w : RoomView}, g.state.roomView = w → w.shown.work = s.room.shown.work →
      (∀ m ∈ messagesTo k g.out, m.Spares Shown.work) →
      (heard clock v k g.out).work = g.state.room.shown.work := by
    rintro w rfl hsame hout
    exact heard_kept clock hv hsame hout
  cases hannounces with
  | quiet hview hout =>
    exact hkept hview rfl fun m hm => Message.spares_work_of_quiet (hout k m hm)
  | connected hview hout =>
    refine hkept hview rfl ?_
    rw [hout k]
    exact List.forall_mem_nil _
  | replies hreplies hview =>
    obtain ⟨flag, used, hview⟩ := hview
    exact hkept hview rfl fun m hm =>
      Message.spares_work_of_isExecution (hreplies.isExecution k m hm)
  | hintRefused socket message _ hview hout =>
    refine hkept hview rfl ?_
    rw [hout k]
    exact spares_replicate (fun _ _ => rfl) _
  | hintDelivered charge fullHint remaining _ hview hout =>
    refine heard_first clock hcount ((hout k).trans (List.append_nil _).symm) ?_ (List.forall_mem_nil _)
    obtain ⟨hproblem, hused, hlimit, hcases⟩ := Shown.work_eq_iff.mp hv
    rw [← shown_roomView g.state, hview]
    change (v.problemId, v.hintsUsed + 1, v.hintLimit, v.customTestCases) = _
    rw [hproblem, hused, hlimit, hcases]
    rfl
  | hintAsked requester _ _ hview hout =>
    exact heard_first clock hcount (hout k) rfl (spares_flatMap fun _ _ _ _ => rfl)
  | hintAnswered requester _ hview hout =>
    exact heard_first clock hcount (hout k) rfl (spares_flatMap fun _ _ _ _ => rfl)
  | loaded detail after _ hafter hview hout =>
    refine heard_first clock hcount (hout k) ?_ (spares_flatMap fun m hm =>
      Message.spares_work_of_quiet (hafter m hm))
    rw [← shown_roomView g.state, hview]
    rfl
  | testCaseAdded testCase hview hout =>
    refine heard_first clock hcount ((hout k).trans (List.append_nil _).symm) ?_ (List.forall_mem_nil _)
    obtain ⟨hproblem, hused, hlimit, hcases⟩ := Shown.work_eq_iff.mp hv
    rw [← shown_roomView g.state, hview]
    change (v.problemId, v.hintsUsed, v.hintLimit, v.customTestCases ++ [testCase.toCustomTestCase]) = _
    rw [hproblem, hused, hlimit, hcases]
    change _ = (_, _, _, (s.room.customTestCases ++ [testCase]).map fun t => t.toCustomTestCase)
    rw [List.map_append]
    rfl
  | joined socket user announced users fresh hanswers =>
    refine hkept hanswers.view rfl ?_
    rw [(hanswers.unheard hnot).2]
    exact List.forall_mem_nil _
  | hydrated socket p announced hends =>
    exact hkept hends.view rfl (hends.spares hdetail fun _ _ _ _ => rfl)
  | closed socket before _ _ hbefore hview hout =>
    have hjoined' : g.state.joined = s.joined.filter (· ≠ socket) := congrArg RoomView.joined hview
    have hsame : g.state.room.shown.work = s.room.shown.work := by
      rw [← shown_roomView g.state, hview]
      rfl
    exact heard_closed clock hcount (hjoined' ▸ hjoined) hv (fun _ => hsame)
      (fun m hm => Message.spares_work_of_quiet (hbefore k m hm)) (fun _ _ _ => rfl) (hout k)
  | removed userId rotated _ hview hout =>
    refine hkept hview rfl ?_
    rw [hout k]
    split_ifs
    · exact spares_replicate (fun _ _ => rfl) _
    · exact List.forall_mem_nil _

/-! ## Runs -/

/-- The client joins at most while no problem is selected. -/
def JoinsBeforeProblem (k : SocketId) (c : ServerConf) (t : ServerTrigger) : Prop :=
  answering c.shared t = some k → c.shared.room.problemId = none

instance (k : SocketId) (c : ServerConf) (t : ServerTrigger) : Decidable (JoinsBeforeProblem k c t) := by
  unfold JoinsBeforeProblem
  infer_instance

/-- No problem is on its way to the client. -/
def HydratesNothing (k : SocketId) (c : ServerConf) : Prop :=
  ∀ p announced, .hydrating k p announced ∈ c.pool → p = none

theorem hydratesNothing_step {c c' : ServerConf} {out : List Effect} {rest : List Task}
    (h : HydratesNothing k c) (hP : JoinsBeforeProblem k c t)
    (hby : (server cfg).StepBy c c' out t g rest) : HydratesNothing k c' := by
  intro p announced hm
  rcases hby.mem_after hm with hm | hm
  · exact h p announced (hby.mem_of_rest hm)
  · obtain ⟨user, users, fresh, hanswers⟩ := fire_hydrating hby.fire hm
    rw [hanswers.next, List.mem_singleton, Task.hydrating.injEq] at hm
    rw [hm.2.1]
    exact hP hanswers.answering

/-- A hydration without a problem delivers none. -/
theorem HydratesNothing.rehydrates_ne {c c' : ServerConf} {out : List Effect} {rest : List Task}
    (h : HydratesNothing k c) (hby : (server cfg).StepBy c c' out t g rest) (detail : ProblemDetail) :
    rehydrates t ≠ some (k, detail) := by
  intro hdelivered
  unfold rehydrates at hdelivered
  split at hdelivered
  · rename_i socket p announced detail'
    obtain ⟨rfl, -⟩ := Prod.mk.inj (Option.some.inj hdelivered)
    obtain rfl := h p announced (hby.mem_of_taken (List.mem_singleton_self _))
    have hfire := hby.fire
    cases hfire
  · cases hdelivered

/-- **Live mirror.** Of a client that joins before any problem is selected, problem, hints and test
cases are those of the room, after any run in which it stays. -/
theorem live_mirror {cfg : Config} {mode : RoomMode} {now : Time} {acts : List ServerAct}
    {c : ServerConf} {out : List Effect} {k : SocketId} (clock : ℕ → Time) (state : ClientRoomState)
    (hreach : Reaches cfg mode now acts c out)
    (hmeets : Meeting cfg (JoinsBeforeProblem k) mode now acts) (hjoined : k ∈ c.shared.joined) :
    let client := clientState clock state (messagesTo k out)
    client.problemId = c.shared.room.problemId ∧
    client.hintsUsed = c.shared.room.hintsUsed ∧
    client.hintLimit = c.shared.room.hintLimit ∧
    client.customTestCases = c.shared.room.customTestCases.map fun t => t.toCustomTestCase := by
  have h : (heard clock state.shown k out).work = c.shared.room.shown.work := by
    refine mirror_run (A := fun v c => v.work = c.shared.room.shown.work)
      (I := fun c _ => HydratesNothing k c) (P := JoinsBeforeProblem k) ?_ ?_ ?_ ?_ clock state.shown
      hmeets hreach hjoined
    · exact fun _ _ hm => absurd hm List.not_mem_nil
    · exact fun c c' past out t g rest hI hP hby => hydratesNothing_step hI hP hby
    · intro c c' past out t g rest user announced users fresh _ _ hby _
      rw [hby.shared]
    · intro c c' past out t g rest v clock hI hcount hjoined hlive hA hP hby hnot
      rw [hby.shared]
      exact (fire_announces hby.fire).work hcount hjoined hnot (hI.rehydrates_ne hby) clock hA
  have hheard : (clientState clock state (messagesTo k out)).shown = heard clock state.shown k out :=
    shown_clientState clock state (messagesTo k out)
  rw [← hheard] at h
  exact Shown.work_eq_iff.mp h

/-- A test case is added behind a selection, and a partner joins. -/
def exampleWork : List ServerAct :=
  exampleJoin 0 .go ++ exampleSelect 0 7 ++
    [.event (.receive 0 (.testcaseAdd (some ⟨[], .null⟩))), .resume 0 .go,
      .resume 0 (.boilerplate none)] ++
    exampleJoin 1 (.detail (some (exampleDetail 7)))

theorem live_mirror_example : ∃ c out,
    Reaches plainConfig .collaboration 0 exampleWork c out ∧ 0 ∈ c.shared.joined ∧
    c.shared.room.customTestCases.length = 1 ∧
    let client := clientState id initialRoomState (messagesTo 0 out)
    client.problemId = c.shared.room.problemId ∧
    client.hintsUsed = c.shared.room.hintsUsed ∧
    client.hintLimit = c.shared.room.hintLimit ∧
    client.customTestCases = c.shared.room.customTestCases.map fun t => t.toCustomTestCase := by
  obtain ⟨c, out, hreach, hjoined, hcases⟩ : ∃ c out,
      Reaches plainConfig .collaboration 0 exampleWork c out ∧ 0 ∈ c.shared.joined ∧
      c.shared.room.customTestCases.length = 1 :=
    ⟨_, _, rfl, by decide, rfl⟩
  have hmeets : Meeting plainConfig (JoinsBeforeProblem 0) .collaboration 0 exampleWork := by
    unfold Meeting
    decide
  exact ⟨c, out, hreach, hjoined, hcases, live_mirror id initialRoomState hreach hmeets hjoined⟩

end CodeShare
