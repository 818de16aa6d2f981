import CodeShare.Properties.HintBudget

/-! # Hints belong to the problem in the room

A delivery reads the problem once and charges whatever problem is there when it ends. Runs in which a
problem is put into the room only while no delivery for another problem is suspended charge every hint
to its own problem.
-/

namespace CodeShare
open Tasks
set_option autoImplicit false

/-- A problem is put into the room only while no hint for another problem is on its way. -/
def LoadsBetweenDeliveries (c : ServerConf) (t : ServerTrigger) : Prop :=
  ∀ p ∈ loads t, ∀ task ∈ c.pool, task.HintFor (some p)

instance (c : ServerConf) (t : ServerTrigger) : Decidable (LoadsBetweenDeliveries c t) :=
  inferInstanceAs (Decidable (∀ p ∈ loads t, ∀ task ∈ c.pool, task.HintFor (some p)))

structure OwnershipInvariant (c : ServerConf) (out : List Effect) : Prop where
  suspended : ∀ task ∈ c.pool, task.HintFor c.shared.room.problemId
  charged : ∀ charge ∈ (hintLog out).charges, charge.problemId = c.shared.room.problemId

theorem initial_ownership (cfg : Config) (mode : RoomMode) (now : Time) :
    OwnershipInvariant (initial cfg mode now) [] :=
  ⟨nofun, nofun⟩

section
variable {cfg : Config} {s : Server} {c c' : ServerConf} {past out : List Effect} {t : ServerTrigger}
  {g : Step} {rest : List Task}

/-- A charge is for the problem of the delivery that makes it. -/
theorem charge_problemId {charge : Charge} {p : Option ProblemId}
    (h : (server cfg).fire s t = some g) (hcharge : charges cfg t = some charge)
    (htaken : ∀ task ∈ t.taken, task.HintFor p) : charge.problemId = p := by
  unfold charges at hcharge
  split at hcharge
  · rename_i d hint
    cases hcharge
    have hdelivery : d.problemId = p := htaken (.hintStored d) List.mem_cons_self
    change afterStoredHint cfg s d (.hint (some hint)) = some g at h
    simp only [afterStoredHint] at h
    split_ifs at h with hproblem
    exact hproblem.symm.trans hdelivery
  · rename_i d prompt generated closing
    split at hcharge <;> cases hcharge
    exact htaken (.hintStream d prompt generated closing) List.mem_cons_self
  · cases hcharge

/-- New deliveries are for the problem in the room. -/
theorem next_hintFor (h : (server cfg).fire s t = some g)
    (htaken : ∀ task ∈ t.taken, task.HintFor s.room.problemId) :
    ∀ task ∈ g.next, task.HintFor s.room.problemId := by
  intro task hm
  by_cases hf : triggerFamily t = .hint
  · cases fire_hint h hf with
    | started socket _ _ _ _ hnext _ _ =>
      rw [hnext, List.mem_singleton] at hm
      rw [hm]
      rfl
    | approved socket _ _ _ _ hnext _ _ =>
      rw [hnext, List.mem_singleton] at hm
      rw [hm]
      rfl
    | moved task' task'' _ _ htask _ hnext _ hfor _ _ =>
      rw [hnext, List.mem_singleton] at hm
      rw [hm]
      exact hfor (htaken task' (by simp [htask]))
    | ended _ _ hnext _ _ => rw [hnext] at hm; cases hm
    | charged _ _ _ _ hnext _ _ => rw [hnext] at hm; cases hm
  · refine Task.hintFor_of_family ?_ _
    rw [(fire_within h).next task hm]
    exact hf

theorem ownership_step (h : OwnershipInvariant c past) (hbetween : LoadsBetweenDeliveries c t)
    (hby : (server cfg).StepBy c c' out t g rest) : OwnershipInvariant c' (past ++ out) := by
  cases hload : loads t with
  | some p =>
    have hswitched := fire_switched hby.fire hload
    have hproblem : c'.shared.room.problemId = some p := by
      obtain ⟨hintLimit, importsUsed, hroom⟩ := hswitched.room
      rw [hby.shared, hroom]
      rfl
    refine ⟨fun task hm => ?_, ?_⟩
    · rw [hproblem]
      rcases hby.mem_after hm with hm | hm
      · exact hbetween p hload task (hby.mem_of_rest hm)
      · rw [hswitched.next] at hm
        cases hm
    · rw [hintLog_switched hby hload]
      exact nofun
  | none =>
    have hproblem := fire_problemId hby.fire hload
    rw [← hby.shared] at hproblem
    have htaken : ∀ task ∈ t.taken, task.HintFor c.shared.room.problemId :=
      fun task hm => h.suspended task (hby.mem_of_taken hm)
    refine ⟨fun task hm => ?_, ?_⟩
    · rw [hproblem]
      rcases hby.mem_after hm with hm | hm
      · exact h.suspended task (hby.mem_of_rest hm)
      · exact next_hintFor hby.fire htaken task hm
    · rw [hproblem]
      cases hcharge : charges cfg t with
      | some charge =>
        rw [hintLog_charged hby hcharge]
        exact forall_mem_concat h.charged (charge_problemId hby.fire hcharge htaken)
      | none =>
        rw [hintLog_kept hby hload hcharge]
        exact h.charged

end

/-! ## Runs -/

/-- **Hints belong to the problem they were requested for**, in runs that put a problem into the room
only between deliveries: every hint charged since the last switch is one of the room's problem, these
charges are all that was used and recorded, and every delivery under way, streams included, is for
that problem. -/
theorem hints_belong_to_problem {cfg : Config} {mode : RoomMode} {now : Time} {acts : List ServerAct}
    {c : ServerConf} {out : List Effect} (hmeets : Meeting cfg LoadsBetweenDeliveries mode now acts)
    (hreach : Reaches cfg mode now acts c out) :
    (∀ charge ∈ (hintLog out).charges, charge.problemId = c.shared.room.problemId) ∧
    c.shared.room.hintsUsed = (hintLog out).charges.length ∧
    c.shared.room.hintHistory.length = (hintLog out).charges.length ∧
    ∀ task ∈ c.pool, task.HintFor c.shared.room.problemId := by
  have h : OwnershipInvariant c out := Machine.run_preserves
    (fun _ _ _ _ _ _ _ h hbetween hby => ownership_step h hbetween hby)
    (initial_ownership cfg mode now) hmeets hreach
  have hlog := log_run hreach
  exact ⟨h.charged, hlog.hintsUsed.symm, hlog.hintHistory.symm, h.suspended⟩

theorem hints_belong_to_problem_example : ∃ c out,
    Reaches plainConfig .collaboration 10000 exampleHintRun c out ∧
    c.shared.room.problemId = some 7 ∧ c.shared.room.hintsUsed = 1 ∧
    (∀ charge ∈ (hintLog out).charges, charge.problemId = c.shared.room.problemId) ∧
    c.shared.room.hintsUsed = (hintLog out).charges.length ∧
    c.shared.room.hintHistory.length = (hintLog out).charges.length ∧
    ∀ task ∈ c.pool, task.HintFor c.shared.room.problemId := by
  obtain ⟨c, out, hreach, hproblem, hused⟩ : ∃ c out,
      Reaches plainConfig .collaboration 10000 exampleHintRun c out ∧
      c.shared.room.problemId = some 7 ∧ c.shared.room.hintsUsed = 1 :=
    ⟨_, _, rfl, rfl, rfl⟩
  have hmeets : Meeting plainConfig LoadsBetweenDeliveries .collaboration 10000 exampleHintRun := by
    unfold Meeting
    decide
  exact ⟨c, out, hreach, hproblem, hused, hints_belong_to_problem hmeets hreach⟩

/-- Problem 8 is loaded while a hint for problem 7 is looked up: the hint is charged to problem 8. -/
theorem hint_charged_to_other_problem : ∃ c out,
    Reaches plainConfig .collaboration 10000
      (exampleJoin 0 .go ++ exampleSelect 0 7 ++
        [.event (.receive 0 .hintRequest), .resume 0 .go,
          .event (.receive 0 (.problemSelect (some 8))), .resume 1 .go,
          .resume 1 (.detail (some (exampleDetail 8))), .resume 0 exampleHint]) c out ∧
    c.shared.room.problemId = some 8 ∧ c.shared.room.hintsUsed = 1 ∧
    c.shared.room.hintHistory = [js "Use a map."] ∧
    (hintLog out).charges.map (·.problemId) = [some 7] :=
  ⟨_, _, rfl, rfl, rfl, rfl, rfl⟩

end CodeShare
