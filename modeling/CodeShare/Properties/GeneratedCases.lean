import CodeShare.Services.Generation
import Mathlib.Data.List.Nodup

/-! # Generated cases of one problem

Two runs that have both counted no hidden case insert behind each other, and the conflict clause drops only
the indexes that collide. The hidden cases of a problem stay within the limit and come from one run exactly
when every insert finds none of them in the table, or nothing to insert.
-/

namespace CodeShare.Generation
open Tasks
set_option autoImplicit false

/-- The hidden cases of a problem are within the limit and come from one run. -/
structure HiddenBounded (maxCases : ℕ) (table : List TestCaseRow) (p : ProblemId) : Prop where
  bounded : countHidden table p ≤ maxCases
  distinct : (orderIndexes table p).Nodup
  single : ∃ run, ∀ row ∈ hiddenCases table p, row.storedBy = some run

/-- The rows of an insert that is executed. -/
def inserts : GeneratorTrigger → Option (GenerationRun × List TestCaseRow)
  | .task (.createMany x rows) .executed | .task (.createMany x rows) .executedAndLost => some (x, rows)
  | _ => none

/-- An insert for the problem finds no hidden case in the table, or nothing to insert. -/
def InsertsFirst (p : ProblemId) (c : GeneratorConf) (t : GeneratorTrigger) : Prop :=
  ∀ insert ∈ inserts t, insert.1.context.problemId = p →
    countHidden c.shared.table p = 0 ∨
      ∀ row ∈ insert.2, row.orderIndex ∈ orderIndexes c.shared.table row.problemId

instance (p : ProblemId) (c : GeneratorConf) (t : GeneratorTrigger) : Decidable (InsertsFirst p c t) :=
  inferInstanceAs (Decidable (∀ insert ∈ inserts t, _))

/-! ## Inserting -/

section
variable {table rows : List TestCaseRow} {row : TestCaseRow} {p : ProblemId}

theorem orderIndexes_append (table rows : List TestCaseRow) (p : ProblemId) :
    orderIndexes (table ++ rows) p = orderIndexes table p ++ orderIndexes rows p := by
  simp [orderIndexes]

theorem hiddenCases_append (table rows : List TestCaseRow) (p : ProblemId) :
    hiddenCases (table ++ rows) p = hiddenCases table p ++ hiddenCases rows p := by
  simp [hiddenCases]

theorem insertRow_indexed (h : Indexed table) (row : TestCaseRow) : Indexed (insertRow table row) := by
  unfold insertRow
  split_ifs with htaken
  · exact h
  · intro p
    rw [orderIndexes_append]
    by_cases hp : row.problemId = p
    · subst hp
      have hrow : orderIndexes [row] row.problemId = [row.orderIndex] := by simp [orderIndexes]
      rw [hrow]
      exact List.nodup_append.mpr ⟨h _, List.nodup_singleton _, by
        rintro i hi _ hm rfl
        rw [List.mem_singleton.mp hm] at hi
        exact htaken hi⟩
    · have hrow : orderIndexes [row] p = [] := by simp [orderIndexes, hp]
      rw [hrow, List.append_nil]
      exact h p

theorem createMany_indexed (h : Indexed table) (rows : List TestCaseRow) :
    Indexed (createMany table rows) := by
  induction rows generalizing table with
  | nil => exact h
  | cons row rows ih => exact ih (insertRow_indexed h row)

/-- An insert adds some of its rows behind the table. -/
theorem createMany_append (table rows : List TestCaseRow) :
    ∃ added, createMany table rows = table ++ added ∧ added.Sublist rows := by
  induction rows generalizing table with
  | nil => exact ⟨[], (List.append_nil table).symm, List.Sublist.refl _⟩
  | cons row rows ih =>
    obtain ⟨added, hadded, hsub⟩ := ih (insertRow table row)
    rw [insertRow] at hadded
    split_ifs at hadded with htaken
    · refine ⟨added, ?_, hsub.cons row⟩
      rw [createMany, List.foldl_cons, insertRow, if_pos htaken]
      exact hadded
    · refine ⟨row :: added, ?_, hsub.cons_cons row⟩
      rw [createMany, List.foldl_cons, insertRow, if_neg htaken]
      rw [List.append_assoc] at hadded
      exact hadded

theorem createMany_taken (h : ∀ row ∈ rows, row.orderIndex ∈ orderIndexes table row.problemId) :
    createMany table rows = table := by
  induction rows with
  | nil => rfl
  | cons row rows ih =>
    rw [createMany, List.foldl_cons, insertRow, if_pos (h row List.mem_cons_self)]
    exact ih fun row' hrow' => h row' (List.mem_cons_of_mem _ hrow')

/-- A row whose index is free gets in, or another one with its index. -/
theorem createMany_adds {added : List TestCaseRow} (hadded : createMany table rows = table ++ added)
    (hm : row ∈ rows) (hfree : row.orderIndex ∉ orderIndexes table row.problemId) : added ≠ [] := by
  rintro rfl
  rw [List.append_nil] at hadded
  have htaken : ∀ rows table, row ∈ rows →
      row.orderIndex ∈ orderIndexes (createMany table rows) row.problemId := by
    intro rows
    induction rows with
    | nil =>
      intro table hm
      cases hm
    | cons first rows ih =>
      intro table hm
      rw [createMany, List.foldl_cons]
      rcases List.mem_cons.mp hm with rfl | hm
      · obtain ⟨added, happend, -⟩ := createMany_append (insertRow table row) rows
        rw [createMany] at happend
        rw [happend, orderIndexes_append]
        apply List.mem_append_left
        unfold insertRow
        split_ifs with h
        · exact h
        · rw [orderIndexes_append]
          exact List.mem_append_right _ (by simp [orderIndexes])
      · exact ih _ hm
  exact hfree (hadded ▸ htaken rows table hm)

end

/-! ## One segment -/

def GenerationTask.owner : GenerationTask → GenerationRun
  | .countHidden x | .generateCases x | .verifyCases x _ _ _ | .maxOrderIndex x _ | .createMany x _ => x

/-- A row that a run inserts. -/
structure NewFor (x : GenerationRun) (row : TestCaseRow) : Prop where
  problemId : row.problemId = x.context.problemId
  hidden : row.isVisible = false
  storedBy : row.storedBy = some x.run

/-- A run has no more cases than the limit allows. -/
def GenerationTask.Sized (maxCases : ℕ) : GenerationTask → Prop
  | .countHidden _ | .generateCases _ => True
  | .verifyCases _ verified batch remaining =>
    verified.length + (batch ++ remaining).length ≤ maxCases
  | .maxOrderIndex _ verified => verified.length ≤ maxCases
  | .createMany x rows => rows.length ≤ maxCases ∧ ∀ row ∈ rows, NewFor x row

/-- What a task leaves behind: at most one task of the same run, and only its insert writes. A run that
has written starts with the guard again. -/
structure Advances (maxCases : ℕ) (s : Generator) (task : GenerationTask) (o : GenerationOutcome)
    (g : GenerationStep) : Prop where
  table : g.state.table =
    ((inserts (.task task o)).map fun insert => createMany s.table insert.2).getD s.table
  nextRun : g.state.nextRun = s.nextRun
  one : g.next.length ≤ 1
  owner : ∀ task' ∈ g.next, task'.owner.run = task.owner.run ∧ task'.owner.context = task.owner.context
  sized : task.Sized maxCases → ∀ task' ∈ g.next, task'.Sized maxCases
  guarded : ∀ task' ∈ g.next, (inserts (.task task o)).isSome = true ∨
    (∃ x, task = .countHidden x ∧ 0 < countHidden s.table x.context.problemId) →
      ∃ x, task' = .countHidden x

section
variable {cfg : GeneratorConfig} {s : Generator} {x : GenerationRun} {o : GenerationOutcome}
  {g : GenerationStep} {maxCases : ℕ} {task : GenerationTask}

theorem Advances.of_finish (hinserts : inserts (.task task o) = none) (how : GenerationEnd) :
    Advances maxCases s task o (finish s how) := by
  refine ⟨?_, rfl, Nat.zero_le _, nofun, fun _ => nofun, nofun⟩
  rw [hinserts]
  rfl

theorem Advances.of_suspend {task' : GenerationTask} (hinserts : inserts (.task task o) = none)
    (howner : task'.owner.run = task.owner.run ∧ task'.owner.context = task.owner.context)
    (hsized : task.Sized maxCases → task'.Sized maxCases)
    (hguarded : (∃ x, task = .countHidden x ∧ 0 < countHidden s.table x.context.problemId) →
      ∃ x, task' = .countHidden x) :
    Advances maxCases s task o ((Segment.of s).suspend task') := by
  have hnext : ∀ {P : GenerationTask → Prop}, P task' →
      ∀ t ∈ ((Segment.of s).suspend task' : GenerationStep).next, P t := by
    intro P h t ht
    rw [List.mem_singleton.mp ht]
    exact h
  refine ⟨?_, rfl, Nat.le_refl _, hnext howner, fun h => hnext (hsized h), hnext ?_⟩
  · rw [hinserts]
    rfl
  · rintro (h | h)
    · rw [hinserts] at h
      cases h
    · exact hguarded h

theorem attemptFailed_advances (task : GenerationTask) (hinserts : inserts (.task task o) = none) :
    Advances maxCases s task o (attemptFailed s task.owner) := by
  unfold attemptFailed
  split_ifs
  · exact .of_suspend hinserts ⟨rfl, rfl⟩ (fun _ => trivial) (fun _ => ⟨_, rfl⟩)
  · exact .of_finish hinserts _

theorem verifyNext_advances {verified remaining : List ParsedJson}
    (hinserts : inserts (.task task o) = none) (howner : task.owner = x)
    (hguard : ∀ x, task ≠ .countHidden x)
    (hsized : task.Sized maxCases → verified.length + remaining.length ≤ maxCases) :
    Advances maxCases s task o (verifyNext s x verified remaining) := by
  subst howner
  have hguarded : ∀ {task' : GenerationTask}, (∃ x, task = .countHidden x ∧
      0 < countHidden s.table x.context.problemId) → ∃ x, task' = .countHidden x := by
    rintro _ ⟨x, rfl, -⟩
    exact absurd rfl (hguard x)
  unfold verifyNext
  split_ifs with hremaining
  · refine .of_suspend hinserts ⟨rfl, rfl⟩ (fun h => ?_) hguarded
    change verified.length + (remaining.take batchSize ++ remaining.drop batchSize).length ≤ maxCases
    rw [List.take_append_drop]
    exact hsized h
  · exact .of_finish hinserts _
  · refine .of_suspend hinserts ⟨rfl, rfl⟩ (fun h => ?_) hguarded
    exact (Nat.le_add_right _ _).trans (hsized h)

theorem structuralValidation_length {parameterNames : List JsString}
    {visibleOutputs cases validated : List ParsedJson}
    (h : structuralValidation maxCases parameterNames visibleOutputs cases = some validated) :
    validated.length ≤ maxCases := by
  unfold structuralValidation at h
  split_ifs at h
  obtain rfl := Option.some.inj h
  exact List.length_take_le _ _

theorem afterGenerateCases_advances (h : afterGenerateCases cfg s x o = some g) :
    Advances cfg.maxCases s (.generateCases x) o g := by
  cases o with
  | answered raw =>
    unfold afterGenerateCases at h
    dsimp only at h
    split at h
    · obtain rfl := Option.some.inj h
      exact .of_finish rfl _
    · rename_i validated hvalidated
      obtain rfl := Option.some.inj h
      obtain ⟨cases, -, hcases⟩ := Option.bind_eq_some_iff.mp hvalidated
      refine verifyNext_advances rfl rfl (fun _ => nofun) fun _ => ?_
      rw [List.length_nil, Nat.zero_add]
      exact structuralValidation_length hcases
    · obtain rfl := Option.some.inj h
      exact attemptFailed_advances (.generateCases x) rfl
  | failed =>
    obtain rfl := Option.some.inj h
    exact attemptFailed_advances (.generateCases x) rfl
  | executed | executedAndLost | settled _ => cases h

theorem afterCountHidden_advances (h : afterCountHidden s x o = some g) :
    Advances maxCases s (.countHidden x) o g := by
  cases o with
  | executed =>
    unfold afterCountHidden at h
    dsimp only at h
    split_ifs at h with hcount <;> obtain rfl := Option.some.inj h
    · exact .of_finish rfl _
    · refine .of_suspend rfl ⟨rfl, rfl⟩ (fun _ => trivial) ?_
      rintro ⟨x', hx, hcount'⟩
      obtain rfl := GenerationTask.countHidden.inj hx
      exact absurd hcount' hcount
  | failed =>
    obtain rfl := Option.some.inj h
    exact attemptFailed_advances (.countHidden x) rfl
  | executedAndLost | answered _ | settled _ => cases h

theorem afterVerifyCases_advances {verified batch remaining : List ParsedJson}
    (h : afterVerifyCases cfg s x verified batch remaining o = some g) :
    Advances maxCases s (.verifyCases x verified batch remaining) o g := by
  cases o with
  | settled answers =>
    unfold afterVerifyCases at h
    dsimp only at h
    split_ifs at h with hlength
    obtain rfl := Option.some.inj h
    refine verifyNext_advances rfl rfl (fun _ => nofun) fun hsized => ?_
    have hpassed : ∀ q : ParsedJson × Option JsString → Bool,
        ((batch.zip answers).filter q).length ≤ batch.length := by
      intro q
      refine (List.length_filter_le q _).trans ?_
      rw [List.length_zip, hlength, min_self]
    change verified.length + (batch ++ remaining).length ≤ maxCases at hsized
    rw [List.length_append] at hsized
    rw [List.length_append, List.length_map, Nat.add_assoc]
    exact (Nat.add_le_add_left (Nat.add_le_add_right (hpassed _) _) _).trans hsized
  | executed | executedAndLost | answered _ | failed => cases h

theorem afterMaxOrderIndex_advances {verified : List ParsedJson}
    (h : afterMaxOrderIndex s x verified o = some g) :
    Advances maxCases s (.maxOrderIndex x verified) o g := by
  cases o with
  | executed =>
    obtain rfl := Option.some.inj h
    refine .of_suspend rfl ⟨rfl, rfl⟩ (fun hsized => ⟨?_, fun row hrow => ?_⟩) ?_
    · rw [List.length_mapIdx]
      exact hsized
    · obtain ⟨i, hi, rfl⟩ := List.mem_mapIdx.mp hrow
      exact ⟨rfl, rfl, rfl⟩
    · rintro ⟨_, hx, -⟩
      cases hx
  | failed =>
    obtain rfl := Option.some.inj h
    exact attemptFailed_advances (.maxOrderIndex x verified) rfl
  | executedAndLost | answered _ | settled _ => cases h

theorem afterCreateMany_advances {rows : List TestCaseRow} (h : afterCreateMany s x rows o = some g) :
    Advances maxCases s (.createMany x rows) o g := by
  cases o with
  | executed =>
    obtain rfl := Option.some.inj h
    exact ⟨rfl, rfl, Nat.zero_le _, nofun, fun _ => nofun, nofun⟩
  | executedAndLost =>
    obtain rfl := Option.some.inj h
    unfold attemptFailed
    split_ifs
    · refine ⟨rfl, rfl, Nat.le_refl _, fun task' ht => ?_, fun _ task' ht => ?_, fun task' ht _ => ?_⟩ <;>
        rw [List.mem_singleton.mp ht]
      · exact ⟨rfl, rfl⟩
      · trivial
      · exact ⟨_, rfl⟩
    · exact ⟨rfl, rfl, Nat.zero_le _, nofun, fun _ => nofun, nofun⟩
  | failed =>
    obtain rfl := Option.some.inj h
    exact attemptFailed_advances (.createMany x rows) rfl
  | answered _ | settled _ => cases h

theorem fire_advances (h : (generator cfg).fire s (.task task o) = some g) :
    Advances cfg.maxCases s task o g := by
  cases task with
  | countHidden x => exact afterCountHidden_advances h
  | generateCases x => exact afterGenerateCases_advances h
  | verifyCases x verified batch remaining => exact afterVerifyCases_advances h
  | maxOrderIndex x verified => exact afterMaxOrderIndex_advances h
  | createMany x rows => exact afterCreateMany_advances h

end

/-! ## Runs -/

/-- What holds of the runs at work and of the rows that runs have stored. -/
structure Tracked (maxCases : ℕ) (c : GeneratorConf) : Prop where
  indexed : Indexed c.shared.table
  stored : ∀ row ∈ c.shared.table, ∀ run, row.storedBy = some run → run < c.shared.nextRun
  started : ∀ task ∈ c.pool, task.owner.run < c.shared.nextRun
  apart : (c.pool.map (·.owner.run)).Nodup
  sized : ∀ task ∈ c.pool, task.Sized maxCases
  guarded : ∀ task ∈ c.pool, ∀ row ∈ c.shared.table, row.storedBy = some task.owner.run →
    row ∈ hiddenCases c.shared.table task.owner.context.problemId ∧ ∃ x, task = .countHidden x

section
variable {cfg : GeneratorConfig} {c c' : GeneratorConf} {out : List GenerationEnd} {t : GeneratorTrigger}
  {g : GenerationStep} {rest : List GenerationTask}

theorem initial_tracked (maxCases : ℕ) (stored : Stored) : Tracked maxCases stored.initial where
  indexed := stored.indexed
  stored row hrow run hrun := by
    rw [stored.unattributed row hrow] at hrun
    cases hrun
  started := nofun
  apart := List.nodup_nil
  sized := nofun
  guarded := nofun

/-- The rows that a segment adds to the table are those of its insert. -/
theorem added_rows (h : Tracked cfg.maxCases c) (hby : (generator cfg).StepBy c c' out t g rest) :
    ∃ added, c'.shared.table = c.shared.table ++ added ∧
      (inserts t = none ∧ added = [] ∨ ∃ x rows o, t = .task (.createMany x rows) o ∧ inserts t = some (x, rows) ∧
        createMany c.shared.table rows = c.shared.table ++ added ∧ added.Sublist rows ∧
        rows.length ≤ cfg.maxCases ∧ ∀ row ∈ rows, NewFor x row) := by
  rw [hby.shared]
  cases t with
  | event context =>
    obtain rfl := Option.some.inj hby.fire
    exact ⟨[], (List.append_nil _).symm, .inl ⟨rfl, rfl⟩⟩
  | task task o =>
    have hadvances := fire_advances hby.fire
    have hm : task ∈ c.pool := hby.mem_of_taken (List.mem_singleton_self _)
    rw [hadvances.table]
    cases hinserts : inserts (.task task o) with
    | none => exact ⟨[], (List.append_nil _).symm, .inl ⟨rfl, rfl⟩⟩
    | some insert =>
      obtain ⟨x, rows⟩ := insert
      obtain rfl : task = .createMany x rows := by
        unfold inserts at hinserts
        split at hinserts <;> cases hinserts
        all_goals
          rename_i heq
          cases heq
          rfl
      obtain ⟨added, hadded, hsub⟩ := createMany_append c.shared.table rows
      obtain ⟨hlength, hnew⟩ := h.sized _ hm
      exact ⟨added, hadded, .inr ⟨x, rows, o, rfl, rfl, hadded, hsub, hlength, hnew⟩⟩

theorem mem_hiddenCases {table : List TestCaseRow} {row : TestCaseRow} {p : ProblemId} :
    row ∈ hiddenCases table p ↔ row ∈ table ∧ row.problemId = p ∧ row.isVisible = false := by
  simp [hiddenCases]

theorem countHidden_pos {table : List TestCaseRow} {row : TestCaseRow} {p : ProblemId}
    (h : row ∈ hiddenCases table p) : 0 < countHidden table p := List.length_pos_of_mem h

/-- A run starts with the guard, and no row is its. -/
theorem tracked_start (h : Tracked cfg.maxCases c) {context : GenerationContext}
    (hby : (generator cfg).StepBy c c' out (.event context) g rest) : Tracked cfg.maxCases c' := by
  have hfire := Option.some.inj hby.fire
  have htable : c'.shared.table = c.shared.table := by rw [hby.shared, ← hfire]; rfl
  have hnextRun : c'.shared.nextRun = c.shared.nextRun + 1 := by rw [hby.shared, ← hfire]; rfl
  have hpool : c'.pool = rest ++ [.countHidden ⟨c.shared.nextRun, 0, context⟩] := by
    rw [hby.after, ← hfire]
    rfl
  have hmem : ∀ task ∈ c'.pool, task ∈ c.pool ∨ task = .countHidden ⟨c.shared.nextRun, 0, context⟩ := by
    intro task hm
    rw [hpool] at hm
    rcases List.mem_append.mp hm with hm | hm
    · exact .inl (hby.mem_of_rest hm)
    · exact .inr (List.mem_singleton.mp hm)
  refine ⟨?_, ?_, ?_, ?_, ?_, ?_⟩
  · rw [htable]
    exact h.indexed
  · rw [htable, hnextRun]
    exact fun row hrow run hrun => (h.stored row hrow run hrun).trans (Nat.lt_succ_self _)
  · intro task hm
    rw [hnextRun]
    rcases hmem task hm with hm | rfl
    · exact (h.started task hm).trans (Nat.lt_succ_self _)
    · exact Nat.lt_succ_self _
  · have hrest : rest.Perm c.pool := hby.before
    rw [hpool, List.map_append]
    refine List.nodup_append.mpr ⟨(hrest.map _).nodup_iff.mpr h.apart, List.nodup_singleton _, ?_⟩
    rintro run hrun _ hm rfl
    obtain ⟨task, htask, rfl⟩ := List.mem_map.mp hrun
    have hlt := h.started task (hrest.mem_iff.mp htask)
    rw [List.mem_singleton.mp hm] at hlt
    exact absurd hlt (lt_irrefl _)
  · intro task hm
    rcases hmem task hm with hm | rfl
    · exact h.sized task hm
    · trivial
  · intro task hm row hrow hstored
    rw [htable] at hrow ⊢
    rcases hmem task hm with hm | rfl
    · exact h.guarded task hm row hrow hstored
    · exact absurd (h.stored row hrow _ hstored) (lt_irrefl _)

theorem tracked_advance (h : Tracked cfg.maxCases c) {task : GenerationTask} {o : GenerationOutcome}
    (hby : (generator cfg).StepBy c c' out (.task task o) g rest) : Tracked cfg.maxCases c' := by
  have hadvances := fire_advances hby.fire
  have hm : task ∈ c.pool := hby.mem_of_taken (List.mem_singleton_self _)
  obtain ⟨added, htable, hadded⟩ := added_rows h hby
  have hnextRun : c'.shared.nextRun = c.shared.nextRun := by rw [hby.shared, hadvances.nextRun]
  have hapart : ((task :: rest).map (·.owner.run)).Nodup :=
    (hby.before.map _).nodup_iff.mpr h.apart
  rw [List.map_cons, List.nodup_cons] at hapart
  have hnew : ∀ row ∈ added, row.storedBy = some task.owner.run ∧
      row ∈ hiddenCases c'.shared.table task.owner.context.problemId ∧
      (inserts (.task task o)).isSome = true := by
    intro row hrow
    rcases hadded with ⟨-, rfl⟩ | ⟨x, rows, o', ht, hinserts, -, hsub, -, hrows⟩
    · cases hrow
    · cases ht
      have hfor := hrows row (hsub.subset hrow)
      refine ⟨hfor.storedBy, mem_hiddenCases.mpr ⟨?_, hfor.problemId, hfor.hidden⟩, ?_⟩
      · rw [htable]
        exact List.mem_append_right _ hrow
      · rw [hinserts]
        rfl
  have hkept : ∀ {p row}, row ∈ hiddenCases c.shared.table p → row ∈ hiddenCases c'.shared.table p := by
    intro p row hrow
    rw [htable, hiddenCases_append]
    exact List.mem_append_left _ hrow
  refine ⟨?_, ?_, ?_, ?_, ?_, ?_⟩
  · rw [hby.shared, hadvances.table]
    cases inserts (.task task o) with
    | none => exact h.indexed
    | some insert => exact createMany_indexed h.indexed insert.2
  · intro row hrow run hrun
    rw [hnextRun]
    rw [htable] at hrow
    rcases List.mem_append.mp hrow with hrow | hrow
    · exact h.stored row hrow run hrun
    · rw [(hnew row hrow).1] at hrun
      exact Option.some.inj hrun ▸ h.started task hm
  · intro task' hm'
    rw [hnextRun]
    rcases hby.mem_after hm' with hm' | hm'
    · exact h.started task' (hby.mem_of_rest hm')
    · rw [(hadvances.owner task' hm').1]
      exact h.started task hm
  · rw [hby.after, List.map_append]
    refine List.nodup_append.mpr ⟨hapart.2, ?_, ?_⟩
    · have hone := hadvances.one
      match hnext : g.next with
      | [] => exact List.nodup_nil
      | [_] => exact List.nodup_singleton _
      | _ :: _ :: _ =>
        rw [hnext, List.length_cons, List.length_cons] at hone
        omega
    · rintro run hrun _ hm' rfl
      obtain ⟨task', htask', rfl⟩ := List.mem_map.mp hm'
      rw [(hadvances.owner task' htask').1] at hrun
      exact hapart.1 hrun
  · intro task' hm'
    rcases hby.mem_after hm' with hm' | hm'
    · exact h.sized task' (hby.mem_of_rest hm')
    · exact hadvances.sized (h.sized task hm) task' hm'
  · intro task' hm' row hrow hstored
    rw [htable] at hrow
    rcases hby.mem_after hm' with hm' | hm'
    · -- a run that waits for something else
      rcases List.mem_append.mp hrow with hrow | hrow
      · obtain ⟨hhidden, hcounting⟩ := h.guarded task' (hby.mem_of_rest hm') row hrow hstored
        exact ⟨hkept hhidden, hcounting⟩
      · rw [(hnew row hrow).1] at hstored
        exact absurd (List.mem_map.mpr ⟨task', hm', (Option.some.inj hstored).symm⟩) hapart.1
    · obtain ⟨hrun, hcontext⟩ := hadvances.owner task' hm'
      rw [hcontext]
      rcases List.mem_append.mp hrow with hrow | hrow
      · rw [hrun] at hstored
        obtain ⟨hhidden, x, rfl⟩ := h.guarded task hm row hrow hstored
        exact ⟨hkept hhidden,
          hadvances.guarded task' hm' (.inr ⟨x, rfl, countHidden_pos hhidden⟩)⟩
      · obtain ⟨-, hhidden, hinserts⟩ := hnew row hrow
        exact ⟨hhidden, hadvances.guarded task' hm' (.inl hinserts)⟩

theorem tracked_step (h : Tracked cfg.maxCases c) (hby : (generator cfg).StepBy c c' out t g rest) :
    Tracked cfg.maxCases c' := by
  cases t with
  | event context => exact tracked_start h hby
  | task task o => exact tracked_advance h hby

theorem hiddenCases_of_other {rows : List TestCaseRow} {x : GenerationRun} {p : ProblemId}
    (hrows : ∀ row ∈ rows, NewFor x row) (hp : x.context.problemId ≠ p) : hiddenCases rows p = [] := by
  rw [hiddenCases, List.filter_eq_nil_iff]
  intro row hrow
  simp [(hrows row hrow).problemId, hp]

/-- An insert into an empty place. -/
theorem hiddenBounded_first {table added : List TestCaseRow} {x : GenerationRun} {maxCases : ℕ}
    {p : ProblemId} (hnone : countHidden table p = 0) (hrows : ∀ row ∈ added, NewFor x row)
    (hlength : added.length ≤ maxCases) (hdistinct : (orderIndexes (table ++ added) p).Nodup) :
    HiddenBounded maxCases (table ++ added) p := by
  have hsame : hiddenCases (table ++ added) p = hiddenCases added p := by
    rw [hiddenCases_append, List.length_eq_zero_iff.mp hnone, List.nil_append]
  refine ⟨?_, hdistinct, x.run, fun row hrow => ?_⟩
  · rw [countHidden, hsame]
    exact (List.length_filter_le _ _).trans hlength
  · rw [hsame] at hrow
    exact (hrows row (mem_hiddenCases.mp hrow).1).storedBy

/-- A run that inserts has not inserted before. -/
theorem single_of_insert (h : Tracked cfg.maxCases c) {x : GenerationRun} {rows : List TestCaseRow}
    {o : GenerationOutcome}
    (hby : (generator cfg).StepBy c c' out (.task (.createMany x rows) o) g rest) :
    ∀ row ∈ c.shared.table, row.storedBy ≠ some x.run := by
  intro row hrow hstored
  have hm : .createMany x rows ∈ c.pool := hby.mem_of_taken (List.mem_singleton_self _)
  obtain ⟨-, _, hcounting⟩ := h.guarded _ hm row hrow hstored
  cases hcounting

/-- An insert that finds hidden cases mixes runs, as far as it inserts anything. -/
theorem hiddenBounded_step {p : ProblemId} (h : HiddenBounded cfg.maxCases c.shared.table p)
    (htracked : Tracked cfg.maxCases c) (hby : (generator cfg).StepBy c c' out t g rest) :
    InsertsFirst p c t ↔ HiddenBounded cfg.maxCases c'.shared.table p := by
  have hdistinct := (tracked_step htracked hby).indexed p
  obtain ⟨added, htable, hadded⟩ := added_rows htracked hby
  constructor
  · intro hfirst
    rw [htable] at hdistinct ⊢
    rcases hadded with ⟨-, rfl⟩ | ⟨x, rows, o, rfl, hinserts, hcreate, hsub, hlength, hrows⟩
    · rwa [List.append_nil]
    have hnew : ∀ row ∈ added, NewFor x row := fun row hrow => hrows row (hsub.subset hrow)
    by_cases hp : x.context.problemId = p
    · rcases hfirst _ hinserts hp with hnone | htaken
      · exact hiddenBounded_first hnone hnew (hsub.length_le.trans hlength) hdistinct
      · rwa [← hcreate, createMany_taken htaken]
    · have hsame : hiddenCases (c.shared.table ++ added) p = hiddenCases c.shared.table p := by
        rw [hiddenCases_append, hiddenCases_of_other hnew hp, List.append_nil]
      refine ⟨?_, hdistinct, ?_⟩
      · rw [countHidden, hsame]
        exact h.bounded
      · rw [hsame]
        exact h.single
  · intro hbounded insert hinsert hp
    rcases hadded with ⟨hnone, -⟩ | ⟨x, rows, o, rfl, hinserts, hcreate, hsub, hlength, hrows⟩
    · cases hnone.symm.trans hinsert
    by_contra hnot
    rw [not_or] at hnot
    obtain rfl := Option.some.inj (hinserts.symm.trans hinsert)
    obtain ⟨hsome, hfree⟩ := hnot
    simp only [not_forall] at hfree
    obtain ⟨row, hrow, hfree⟩ := hfree
    obtain ⟨old, hold⟩ := List.exists_mem_of_ne_nil _ (fun h => hsome (List.length_eq_zero_iff.mpr h))
    obtain ⟨new, hnew⟩ := List.exists_mem_of_ne_nil _ (createMany_adds hcreate hrow hfree)
    obtain ⟨run, hsingle⟩ := hbounded.single
    rw [htable, hiddenCases_append] at hsingle
    have hfor := hrows new (hsub.subset hnew)
    have hnewBy := hsingle new (List.mem_append_right _
      (mem_hiddenCases.mpr ⟨hnew, hfor.problemId.trans hp, hfor.hidden⟩))
    have holdBy := hsingle old (List.mem_append_left _ hold)
    rw [hfor.storedBy] at hnewBy
    exact single_of_insert htracked hby old (mem_hiddenCases.mp hold).1 (holdBy.trans hnewBy.symm)

end

/-! ## Any number of runs -/

/-- **Generated cases are bounded.** Along a run that starts without hidden cases of a problem these stay
within the limit, have indexes of their own and come from a single call of `generateForProblem`, if and only
if every insert for the problem finds no hidden case or inserts nothing. -/
theorem hidden_cases_bounded_iff {cfg : GeneratorConfig} {stored : Stored} {p : ProblemId}
    (hnone : countHidden stored.table p = 0) {acts : List GeneratorAct} {c : GeneratorConf}
    {out : List GenerationEnd} (hrun : (generator cfg).run stored.initial acts = some (c, out)) :
    (generator cfg).Always (fun c => HiddenBounded cfg.maxCases c.shared.table p) stored.initial acts ↔
      (generator cfg).Meets (InsertsFirst p) stored.initial acts := by
  have htracked := Machine.meets_of_invariant (M := generator cfg)
    (fun _ _ _ _ _ _ h hby => tracked_step h hby) (initial_tracked cfg.maxCases stored) acts
  refine (Machine.meets_iff_always (fun _ _ _ _ _ _ h htracked hby => hiddenBounded_step h htracked hby)
    ⟨?_, stored.indexed p, 0, fun row hrow => ?_⟩ htracked hrun).symm
  · exact hnone.trans_le (Nat.zero_le _)
  · exact absurd (countHidden_pos hrow) hnone.not_gt

/-! ## Two rooms -/

/-- Every answer of the model is a case whose output is 1, and the answer to it. -/
def exampleGenerator : GeneratorConfig where
  parse raw :=
    if raw = js "cases" then
      some (.arr [.obj [(js "input", .obj [(js "n", .bool true)]), (js "expectedOutput", .ofInt 1)]])
    else some (.ofInt 1)
  maxCases := 1

/-- One visible case is stored. -/
def exampleTable : Stored where
  table := [⟨7, (ParsedJson.obj [(js "n", .bool false)]).stringify, js "0", true, 0, none⟩]
  indexed p := by
    unfold orderIndexes
    by_cases hp : 7 = p
    · simp [hp]
    · simp [hp]
  unattributed := by simp

def exampleContext : GenerationContext := ⟨7, [js "n"], [.ofInt 0]⟩

/-- A run that is on its own: the task at `position` of the pool goes on until it has chosen its indexes. -/
def examplePrepared (position : ℕ) : List GeneratorAct :=
  [.resume position .executed, .resume position (.answered (js "cases")),
    .resume position (.settled [some (js "1")]), .resume position .executed]

/-- The second run counts when the first has inserted. -/
def exampleOneByOne : List GeneratorAct :=
  .event exampleContext :: examplePrepared 0 ++
    [.resume 0 .executed, .event exampleContext, .resume 0 .executed]

theorem hidden_cases_bounded_example : ∃ c out,
    (generator exampleGenerator).run exampleTable.initial exampleOneByOne = some (c, out) ∧
    c.shared.table.map (fun row => (row.orderIndex, row.storedBy)) = [(0, none), (1, some 0)] ∧
    (generator exampleGenerator).Always (fun c => HiddenBounded 1 c.shared.table 7)
      exampleTable.initial exampleOneByOne := by
  have hrun : ((generator exampleGenerator).run exampleTable.initial exampleOneByOne).map
      (fun r => r.1.shared.table.map fun row => (row.orderIndex, row.storedBy)) =
      some [(0, none), (1, some 0)] := by decide +kernel
  have hmeets : (generator exampleGenerator).Meets (InsertsFirst 7) exampleTable.initial
      exampleOneByOne := by decide +kernel
  obtain ⟨⟨c, out⟩, hrun, htable⟩ := Option.map_eq_some_iff.mp hrun
  exact ⟨c, out, hrun, htable, (hidden_cases_bounded_iff (by decide +kernel) hrun).mpr hmeets⟩

/-- Both runs count before one of them inserts; the second chooses its indexes when the first has
inserted. -/
def exampleBothCount : List GeneratorAct :=
  [.event exampleContext, .event exampleContext, .resume 0 .executed, .resume 0 .executed,
    .resume 0 (.answered (js "cases")), .resume 0 (.answered (js "cases")),
    .resume 0 (.settled [some (js "1")]), .resume 0 (.settled [some (js "1")]),
    .resume 0 .executed, .resume 1 .executed, .resume 0 .executed, .resume 0 .executed]

theorem two_runs_insert : ∃ c out,
    (generator exampleGenerator).run exampleTable.initial exampleBothCount = some (c, out) ∧
    countHidden exampleTable.table 7 = 0 ∧ countHidden c.shared.table 7 = 2 ∧
    ¬ HiddenBounded exampleGenerator.maxCases c.shared.table 7 := by
  have hrun : ((generator exampleGenerator).run exampleTable.initial exampleBothCount).map
      (fun r => countHidden r.1.shared.table 7) = some 2 := by decide +kernel
  obtain ⟨⟨c, out⟩, hrun, hcount⟩ := Option.map_eq_some_iff.mp hrun
  refine ⟨c, out, hrun, by decide +kernel, hcount, fun hbounded => ?_⟩
  have hle := hbounded.bounded
  rw [hcount] at hle
  exact absurd hle (by decide)

end CodeShare.Generation
