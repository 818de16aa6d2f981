import CodeShare.Foundations.EarlyChecks
import CodeShare.Server.ProblemSteps

/-! # The import limit of a room

`validateProblemImport` compares the counter with the limit before several awaits, and the counter is
incremented behind the last of them. The counter is right; it stays within the limit exactly when the
comparison would still succeed at the end.
-/

namespace CodeShare
open Tasks
set_option autoImplicit false

/-- The imported problem that a segment loads into the room. -/
def imports : ServerTrigger → Option ProblemId
  | .task (.importLoad _ _) (.detail (some detail)) => some detail.id
  | _ => none

/-- The imported problems that a run has loaded into the room. -/
def importedProblems (turns : List ServerTurn) : List ProblemId :=
  turns.filterMap fun turn => imports turn.trigger

def ImportsInLimit (c : ServerConf) : Prop := c.shared.room.importsUsed ≤ c.shared.room.importLimit

/-- The comparison with the limit, when the imported problem is about to be loaded. -/
def LimitAtEnd (c : ServerConf) (t : ServerTrigger) : Prop :=
  imports t ≠ none → c.shared.room.importsUsed < c.shared.room.importLimit

instance (c : ServerConf) (t : ServerTrigger) : Decidable (LimitAtEnd c t) := by
  unfold LimitAtEnd
  infer_instance

/-! ## One step -/

section
variable {cfg : Config} {s : Server} {t : ServerTrigger} {g : Step}

theorem imports_of_loads (h : loads t = none) : imports t = none := by
  unfold imports
  split
  · cases h
  · rfl

theorem fire_imports (h : (server cfg).fire s t = some g) :
    g.state.room.importsUsed = s.room.importsUsed + (imports t).toList.length ∧
      g.state.room.importLimit = s.room.importLimit := by
  cases hload : loads t with
  | none =>
    rw [imports_of_loads hload]
    constructor
    · refine fire_observe (φ := fun s : Server => s.room.importsUsed) h hload ?_
      rintro f hf -
      cases f <;> first | exact fun _ => rfl | exact absurd rfl hf
    · refine fire_observe (φ := fun s : Server => s.room.importLimit) h hload ?_
      rintro f - -
      cases f <;> exact fun _ => rfl
  | some p =>
    unfold loads at hload
    split at hload
    · rename_i socket problemId detail
      change afterSelecting cfg s socket problemId (.detail (some detail)) = some g at h
      simp only [afterSelecting] at h
      split_ifs at h
      obtain rfl := Option.some.inj h
      exact ⟨rfl, rfl⟩
    · rename_i socket problemId detail
      change afterImportLoad cfg s socket problemId (.detail (some detail)) = some g at h
      simp only [afterImportLoad] at h
      split_ifs at h
      obtain rfl := Option.some.inj h
      exact ⟨rfl, rfl⟩
    · cases hload

end

/-! ## Runs -/

section
variable {cfg : Config} {mode : RoomMode} {now : Time} {acts : List ServerAct} {c : ServerConf}
  {out : List Effect}

theorem importsUsed_run (hreach : Reaches cfg mode now acts c out) :
    c.shared.room.importsUsed =
      (importedProblems ((server cfg).history (initial cfg mode now) acts)).length := by
  refine Machine.run_history_preserves (P := fun _ _ _ => True)
    (I := fun past c => c.shared.room.importsUsed = (importedProblems past).length) ?_ rfl
    (fun _ _ _ _ => trivial) hreach
  intro past c c' out t g rest h _ hby
  have hsegment : importedProblems (past ++ [⟨c, t, c', out⟩]) =
      importedProblems past ++ (imports t).toList := by
    unfold importedProblems
    rw [List.filterMap_append]
    cases himports : imports t <;> simp [himports]
  rw [hsegment, List.length_append, ← h, hby.shared, (fire_imports hby.fire).1]

/-- The counter is the number of imported problems that were loaded, and stays within the limit exactly
in the runs in which the limit is not yet reached whenever an imported problem is about to be loaded. -/
theorem import_limit_iff (hreach : Reaches cfg mode now acts c out) :
    c.shared.room.importsUsed =
        (importedProblems ((server cfg).history (initial cfg mode now) acts)).length ∧
      ((server cfg).Always ImportsInLimit (initial cfg mode now) acts ↔
        Meeting cfg LimitAtEnd mode now acts) := by
  refine ⟨importsUsed_run hreach, Iff.symm ?_⟩
  refine Machine.meets_iff_always (R := fun _ _ => True) ?_ (Nat.zero_le _)
    (Machine.meets_true _ _) hreach
  intro c c' out t g rest h _ hby
  obtain ⟨hused, hlimit⟩ := fire_imports hby.fire
  unfold ImportsInLimit LimitAtEnd at *
  rw [hby.shared, hused, hlimit]
  cases himports : imports t with
  | none => exact iff_of_true (fun hne => absurd rfl hne) h
  | some p =>
    rw [Option.toList_some, List.length_singleton]
    exact ⟨fun hlt => hlt nofun, fun hle _ => hle⟩

end

/-- An import that is about to load a problem, behind the given number of others. -/
def exampleImport (others : ℕ) (p : ProblemId) : List ServerAct :=
  [.event (.receive 0 (.problemImport (some (js "https://leetcode.com/problems/two-sum/")))),
    .resume others .go, .resume others .allowed, .resume others (.answer true),
    .resume others (.answer true), .resume others (.imported p)]

/-- One guest joins and imports a problem. -/
def singleImport : List ServerAct :=
  exampleJoin 0 .go ++ exampleImport 0 7 ++ [.resume 0 (.detail (some (exampleDetail 7)))]

theorem import_limit_iff_example : ∃ c out,
    Reaches plainConfig .collaboration 0 singleImport c out ∧ c.shared.room.importsUsed = 1 ∧
    c.shared.room.importsUsed = (importedProblems ((server plainConfig).history
      (initial plainConfig .collaboration 0) singleImport)).length ∧
    ((server plainConfig).Always ImportsInLimit (initial plainConfig .collaboration 0) singleImport ↔
      Meeting plainConfig LimitAtEnd .collaboration 0 singleImport) := by
  obtain ⟨c, out, hreach, hused⟩ : ∃ c out,
      Reaches plainConfig .collaboration 0 singleImport c out ∧
        c.shared.room.importsUsed = 1 := ⟨_, _, rfl, rfl⟩
  exact ⟨c, out, hreach, hused, import_limit_iff hreach⟩

/-- Four imports overlap in a room that may import three problems. -/
def overlappingImports : List ServerAct :=
  exampleJoin 0 .go ++
    (exampleImport 0 7 ++ exampleImport 1 8 ++ exampleImport 2 9 ++ exampleImport 3 10) ++
    [.resume 0 (.detail (some (exampleDetail 7))), .resume 0 (.detail (some (exampleDetail 8))),
      .resume 0 (.detail (some (exampleDetail 9))), .resume 0 (.detail (some (exampleDetail 10)))]

theorem import_limit_exceeded : ∃ c out,
    Reaches plainConfig .collaboration 0 overlappingImports c out ∧
    c.shared.room.importLimit = 3 ∧ c.shared.room.importsUsed = 4 :=
  ⟨_, _, rfl, rfl, rfl⟩

/-! ## Imports apart -/

/-- The import has passed its comparison with the limit. -/
def Task.importChecked : Task → Bool
  | importQuota _ _ | importLimiter _ _ | importReserve _ _ | importScrape _ _ | importLoad _ _ => true
  | _ => false

/-- An imported problem is loaded only while no other import waits behind the comparison. -/
def ImportsApart (c : ServerConf) (t : ServerTrigger) : Prop :=
  imports t ≠ none → c.pool.countP Task.importChecked ≤ 1

section
variable {cfg : Config} {s : Server} {t : ServerTrigger} {g : Step}

theorem importChecked_of_imports (h : imports t ≠ none) :
    t.taken.countP Task.importChecked = 1 ∧ loads t ≠ none := by
  unfold imports at h
  split at h
  · exact ⟨rfl, nofun⟩
  · exact absurd rfl h

/-- The handlers themselves compare nothing. -/
theorem runHandler_unchecked {socket : SocketId} {event : ClientEvent} {seen : Option SeenRequest}
    (hfamily : event.family = .problem) :
    ∀ task ∈ (runHandler cfg s socket seen event).next, task.importChecked = false := by
  unfold runHandler
  split
  · exact nofun
  · cases event with
    | problemSelect id =>
      dsimp only
      unfold handleProblemSelect
      split <;> simp [emitProblemLoadError, Segment.suspend, Task.importChecked]
    | problemImport url =>
      dsimp only
      unfold handleProblemImport
      split
      · exact nofun
      · split_ifs
        · simp [importFailedToSender]
        · split <;> simp [importFailedToSender, Segment.suspend, Task.importChecked]
    | _ => cases hfamily

/-- Only the comparison lets an import go on. -/
theorem fire_importChecked (h : (server cfg).fire s t = some g) {task : Task} (hm : task ∈ g.next)
    (hchecked : task.importChecked = true) :
    (∃ task' ∈ t.taken, task'.importChecked = true) ∨ s.room.importsUsed < s.room.importLimit := by
  have hfamily : triggerFamily t = .problem := by
    rw [← (fire_within h).next task hm]
    cases task <;> first | rfl | cases hchecked
  cases t with
  | event e => cases hfamily
  | task t o =>
    cases t with
    | admitted socket event seen =>
      change resumeTask cfg s _ o = some g at h
      cases o <;> cases h
      rw [runHandler_unchecked hfamily task hm] at hchecked
      cases hchecked
    | selecting socket p =>
      change afterSelecting cfg s socket p o = some g at h
      unfold afterSelecting at h
      split at h
      · split_ifs at h
        cases h
        cases hm
      all_goals cases h; try cases hm
    | importIpLimiter socket url =>
      change afterImportIpLimiter s socket url o = some g at h
      unfold afterImportIpLimiter at h
      split at h
      · split_ifs at h with hlimit
        · cases h
          cases hm
        · exact .inr (Nat.lt_of_not_le hlimit)
      all_goals cases h; try cases hm
    | importFailing socket reason =>
      change resumeTask cfg s _ o = some g at h
      cases o <;> cases h
      cases reason <;> cases hm
    | importQuota | importLimiter | importReserve | importScrape | importLoad =>
      exact .inl ⟨_, List.mem_singleton_self _, rfl⟩
    | _ => cases hfamily

end

/-- Imports that do not overlap behind their comparison with the limit stay within it. -/
theorem limitAtEnd_of_apart {cfg : Config} {mode : RoomMode} {now : Time} {acts : List ServerAct}
    {c : ServerConf} {out : List Effect} (happart : Meeting cfg ImportsApart mode now acts)
    (hreach : Reaches cfg mode now acts c out) : Meeting cfg LimitAtEnd mode now acts := by
  have hkept : ∀ {s t g}, (server cfg).fire s t = some g → imports t = none →
      s.room.importsUsed < s.room.importLimit → g.state.room.importsUsed < g.state.room.importLimit := by
    intro s t g h hnone hlt
    obtain ⟨hused, hlimit⟩ := fire_imports h
    rwa [hused, hlimit, hnone]
  refine Machine.meets_of_relied
    (fun s task => task.importChecked = true → s.room.importsUsed < s.room.importLimit) ?_ ?_ ?_ happart hreach nofun
  · intro c c' out t g rest hP hby task hm hrelies hchecked
    by_cases hnone : imports t = none
    · exact hkept hby.fire hnone (hrelies hchecked)
    · have hone := (importChecked_of_imports hnone).1
      have hother : task.importChecked = false := hby.alone ((hP hnone).trans hone.ge) task hm
      rw [hother] at hchecked
      cases hchecked
  · intro c c' out t g rest hP hby hrelies task hm hchecked
    by_cases hnone : imports t = none
    · rcases fire_importChecked hby.fire hm hchecked with ⟨task', htaken, hchecked'⟩ | hlt
      · exact hkept hby.fire hnone (hrelies task' htaken hchecked')
      · exact hkept hby.fire hnone hlt
    · obtain ⟨p, hload⟩ := Option.ne_none_iff_exists'.mp (importChecked_of_imports hnone).2
      rw [(fire_switched hby.fire hload).next] at hm
      cases hm
  · intro c c' out t g rest hP hby hrelied himports
    obtain ⟨task, htaken, hchecked⟩ :=
      List.countP_pos_iff.mp ((importChecked_of_imports himports).1 ▸ Nat.one_pos)
    exact hrelied task (hby.mem_of_taken htaken) hchecked

end CodeShare
