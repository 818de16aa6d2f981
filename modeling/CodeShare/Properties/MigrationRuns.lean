import CodeShare.Database.Migrations
import CodeShare.Foundations.Holdings

/-! # Every migration is carried out once

In any interleaving of runs, with failing statements and killed processes: what a script does is committed at
most once, and together with its row; a run gets to a script only when the earlier ones are committed; and no
failure keeps a later run from completing.
-/

namespace CodeShare.Migrations
open Tasks
set_option autoImplicit false

/-! ## What runs know -/

/-- What was found applied still is, and the files before this one are. -/
structure MigrationRun.Ok (applied : List JsString) (x : MigrationRun) : Prop where
  appliedSet : x.appliedSet ⊆ applied
  visited : ∃ visited, x.files = visited ++ x.file :: x.remaining ∧ visited ⊆ applied ∧
    x.appliedCount + x.skippedCount = visited.length

/-- The run of a task that is at one of its scripts. -/
def MigrationTask.run? : MigrationTask → Option MigrationRun
  | beginning x | executing x _ | inserting x _ | committing x _ => some x
  | connecting _ | creatingTable _ | selecting _ | rollingBack _ | ending _ _ => none

/-- What the transaction of a run has done when the run waits. -/
def MigrationTask.Transacts : MigrationTask → Prop
  | executing _ tx => tx = some ⟨[], []⟩
  | inserting x tx => tx = some ⟨[x.file], []⟩
  | committing x tx => tx = some ⟨[x.file], [x.file]⟩
  | connecting _ | creatingTable _ | selecting _ | beginning _ | rollingBack _ | ending _ _ => True

/-- The rows that the transaction of a task has inserted. -/
def MigrationTask.inserted (task : MigrationTask) : List JsString := uncommitted task.transaction

def MigrationLog.Ok (applied : List JsString) : MigrationLog → Prop
  | completed files appliedCount skippedCount =>
    files ⊆ applied ∧ appliedCount + skippedCount = files.length
  | failed => True

theorem MigrationRun.Ok.mono {applied applied' : List JsString} {x : MigrationRun} (h : x.Ok applied)
    (hsub : applied ⊆ applied') : x.Ok applied' where
  appliedSet := List.Subset.trans h.appliedSet hsub
  visited := by
    obtain ⟨visited, hfiles, hvisited, hcount⟩ := h.visited
    exact ⟨visited, hfiles, List.Subset.trans hvisited hsub, hcount⟩

theorem MigrationLog.Ok.mono {applied applied' : List JsString} {log : MigrationLog} (h : log.Ok applied)
    (hsub : applied ⊆ applied') : log.Ok applied' := by
  cases log with
  | completed files appliedCount skippedCount => exact ⟨List.Subset.trans h.1 hsub, h.2⟩
  | failed => trivial

/-- A segment leaves runs and logs that are right about what is applied then. -/
structure LeavesOk (g : MigrationStep) : Prop where
  tasks : ∀ task ∈ g.next, task.Transacts ∧ ∀ x, task.run? = some x → x.Ok g.state.applied
  logs : ∀ log ∈ g.out, log.Ok g.state.applied

/-- No segment leaves a task that is at a script. -/
theorem LeavesOk.of_idle {g : MigrationStep} (hnext : ∀ task ∈ g.next, task.run? = none)
    (hout : ∀ log ∈ g.out, log = .failed) : LeavesOk g where
  tasks task hm := by
    have hidle := hnext task hm
    refine ⟨?_, fun x hx => by rw [hidle] at hx; cases hx⟩
    cases task with
    | executing | inserting | committing => cases hidle
    | connecting | creatingTable | selecting | beginning | rollingBack | ending => trivial
  logs log hm := by
    rw [hout log hm]
    trivial

theorem LeavesOk.of_run {db : MigrationDatabase} {task : MigrationTask} {x : MigrationRun}
    (htransacts : task.Transacts) (htask : task.run? = some x) (h : x.Ok db.applied) :
    LeavesOk ⟨db, [], [task]⟩ where
  tasks other hm := by
    obtain rfl := List.mem_singleton.mp hm
    refine ⟨htransacts, fun y hy => ?_⟩
    rw [htask] at hy
    obtain rfl := Option.some.inj hy
    exact h
  logs := List.forall_mem_nil _

/-! ## The loop -/

section
variable (db : MigrationDatabase) (files appliedSet : List JsString) (appliedCount skippedCount : ℕ)
  (remaining : List JsString)

@[simp] theorem nextFile_state : (nextFile db files appliedSet appliedCount skippedCount remaining).state = db := by
  induction remaining generalizing skippedCount with
  | nil => rfl
  | cons file remaining ih =>
    unfold nextFile
    split_ifs
    · exact ih _
    · rfl

@[simp] theorem nextFile_inserted :
    (nextFile db files appliedSet appliedCount skippedCount remaining).next.flatMap
      MigrationTask.inserted = [] := by
  induction remaining generalizing skippedCount with
  | nil => rfl
  | cons file remaining ih =>
    unfold nextFile
    split_ifs
    · exact ih _
    · rfl

variable {db files appliedSet appliedCount skippedCount remaining}

/-- The loop passes over what is applied. -/
theorem nextFile_ok (visited : List JsString) (hread : appliedSet ⊆ db.applied)
    (hfiles : files = visited ++ remaining) (hvisited : visited ⊆ db.applied)
    (hcount : appliedCount + skippedCount = visited.length) :
    LeavesOk (nextFile db files appliedSet appliedCount skippedCount remaining) := by
  induction remaining generalizing visited skippedCount with
  | nil =>
    rw [List.append_nil] at hfiles
    subst hfiles
    refine ⟨fun task hm => ?_, fun log hm => ?_⟩
    · rw [List.mem_singleton.mp hm]
      exact ⟨trivial, nofun⟩
    · rw [List.mem_singleton.mp hm]
      exact ⟨hvisited, hcount⟩
  | cons file remaining ih =>
    unfold nextFile
    split_ifs with hfile
    · apply ih (visited ++ [file])
      · simp [hfiles]
      · exact List.append_subset.mpr ⟨hvisited, List.cons_subset.mpr ⟨hread hfile, List.nil_subset _⟩⟩
      · rw [List.length_append, List.length_singleton]
        omega
    · exact .of_run trivial rfl ⟨hread, visited, hfiles, hvisited, hcount⟩

end

/-! ## What a segment does -/

/-- A segment by what it does to the database. -/
inductive Move (db : MigrationDatabase) : List MigrationTask → MigrationStep → Prop where
  | kept {taken : List MigrationTask} {g : MigrationStep} (hstate : g.state = db)
      (hnext : g.next.flatMap MigrationTask.inserted = taken.flatMap MigrationTask.inserted) :
      Move db taken g
  | inserted {x : MigrationRun} {g : MigrationStep} (hfree : x.file ∉ db.inserted) (hnew : x.file ∉ db.applied)
      (hstate : g.state = { db with inserted := x.file :: db.inserted })
      (hnext : g.next.flatMap MigrationTask.inserted = [x.file]) :
      Move db [.inserting x (some ⟨[x.file], []⟩)] g
  | committed {x : MigrationRun} {g : MigrationStep} (hstate : g.state = db.commit (some ⟨[x.file], [x.file]⟩))
      (hnext : g.next.flatMap MigrationTask.inserted = []) :
      Move db [.committing x (some ⟨[x.file], [x.file]⟩)] g
  | released {task : MigrationTask} {g : MigrationStep} (hstate : g.state = db.release task.transaction)
      (hnext : g.next.flatMap MigrationTask.inserted = []) : Move db [task] g

section
variable {db : MigrationDatabase} {task : MigrationTask} {o : MigrationOutcome} {g : MigrationStep}

theorem throwing_move (ended : Bool) : Move db [task] (throwing db task.transaction ended) := by
  cases ended with
  | false => exact .kept rfl rfl
  | true => exact .released rfl rfl

theorem throwing_ok (tx : Option Transaction) (ended : Bool) : LeavesOk (throwing db tx ended) := by
  cases ended <;> exact .of_idle (by simp [throwing, MigrationTask.run?]) (by simp [throwing])

theorem leaving_move (tx : Option Transaction) (ended : Bool) :
    Move db [.rollingBack tx] (leaving db tx ended) := by
  cases ended with
  | false => exact .kept rfl rfl
  | true => exact .released rfl rfl

theorem leaving_ok (tx : Option Transaction) (ended : Bool) : LeavesOk (leaving db tx ended) := by
  cases ended <;> exact .of_idle (by simp [leaving, MigrationTask.run?]) (by simp [leaving])

theorem ended_ok (tx : Option Transaction) (threw : Bool) : LeavesOk (ended db tx threw) := by
  cases threw <;> exact .of_idle (by simp [ended]) (by simp [ended])

theorem resume_killed (db : MigrationDatabase) (task : MigrationTask) :
    migrationResume db task .killed = some (.of (db.release task.transaction)) := by
  cases task <;> rfl

theorem killed_move (hkilled : migrationResume db task .killed = some g) : Move db [task] g := by
  obtain rfl := Option.some.inj ((resume_killed db task).symm.trans hkilled)
  exact .released rfl rfl

theorem failed_move {ended : Bool} (hfailed : migrationResume db task (.failed ended) = some g) :
    Move db [task] g := by
  cases task with
  | connecting directory =>
    obtain rfl := Option.some.inj hfailed
    exact .kept rfl rfl
  | rollingBack tx =>
    obtain rfl := Option.some.inj hfailed
    exact leaving_move tx ended
  | ending tx threw =>
    obtain rfl := Option.some.inj hfailed
    exact .released rfl rfl
  | creatingTable | selecting | beginning | executing | inserting | committing =>
    obtain rfl := Option.some.inj hfailed
    exact throwing_move ended

theorem done_move (htransacts : task.Transacts) (hdone : migrationResume db task .done = some g) :
    Move db [task] g := by
  cases task with
  | connecting | creatingTable | beginning =>
    obtain rfl := Option.some.inj hdone
    exact .kept rfl rfl
  | selecting directory =>
    obtain rfl := Option.some.inj hdone
    apply Move.kept
    · simp
    · simp [MigrationTask.inserted, MigrationTask.transaction, uncommitted]
  | executing x tx =>
    -- what the script does is seen by nobody
    obtain rfl : tx = some ⟨[], []⟩ := htransacts
    obtain rfl := Option.some.inj hdone
    exact .kept rfl rfl
  | inserting x tx =>
    obtain rfl : tx = some ⟨[x.file], []⟩ := htransacts
    simp only [migrationResume, MigrationDatabase.insert] at hdone
    split_ifs at hdone with hblocked
    · cases hdone
    · obtain rfl := Option.some.inj hdone
      obtain ⟨hfree, hnew⟩ := not_or.mp hblocked
      exact .inserted hfree hnew rfl rfl
  | committing x tx =>
    obtain rfl : tx = some ⟨[x.file], [x.file]⟩ := htransacts
    obtain rfl := Option.some.inj hdone
    apply Move.committed
    · simp [MigrationRun.afterCommit]
    · simp [MigrationRun.afterCommit]
  | rollingBack tx =>
    obtain rfl := Option.some.inj hdone
    exact leaving_move tx true
  | ending tx threw =>
    obtain rfl := Option.some.inj hdone
    exact .released rfl rfl

theorem lost_move (htransacts : task.Transacts) (hlost : migrationResume db task .lost = some g) :
    Move db [task] g := by
  cases task with
  | committing x tx =>
    obtain rfl : tx = some ⟨[x.file], [x.file]⟩ := htransacts
    obtain rfl := Option.some.inj hlost
    exact .committed rfl rfl
  | connecting | creatingTable | selecting | beginning | executing | inserting | rollingBack | ending =>
    cases hlost

theorem fire_move {t : Trigger MigrationEvent MigrationTask MigrationOutcome}
    (htaken : ∀ task ∈ t.taken, task.Transacts) (h : migrations.fire db t = some g) : Move db t.taken g := by
  cases t with
  | event e =>
    obtain rfl := Option.some.inj h
    exact .kept rfl rfl
  | task task o =>
    have htransacts := htaken task (List.mem_singleton_self task)
    cases o with
    | done => exact done_move htransacts h
    | failed ended => exact failed_move h
    | lost => exact lost_move htransacts h
    | killed => exact killed_move h

/-- A run goes on behind its COMMIT. -/
theorem committed_ok {x : MigrationRun} (h : x.Ok db.applied) :
    LeavesOk (x.afterCommit (db.commit (some ⟨[x.file], [x.file]⟩))) := by
  obtain ⟨visited, hfiles, hvisited, hcount⟩ := h.visited
  have hgrown : db.applied ⊆ (db.commit (some ⟨[x.file], [x.file]⟩)).applied := List.subset_append_left _ _
  apply nextFile_ok (visited ++ [x.file])
  · exact List.Subset.trans h.appliedSet hgrown
  · simp [hfiles]
  · apply List.append_subset.mpr
    exact ⟨List.Subset.trans hvisited hgrown, List.subset_append_right _ _⟩
  · rw [List.length_append, List.length_singleton]
    omega

theorem done_ok (hdone : migrationResume db task .done = some g) (htransacts : task.Transacts)
    (htask : ∀ x, task.run? = some x → x.Ok db.applied) : LeavesOk g := by
  cases task with
  | connecting | creatingTable =>
    obtain rfl := Option.some.inj hdone
    exact .of_idle (by simp [MigrationTask.run?]) (by simp)
  | selecting directory =>
    obtain rfl := Option.some.inj hdone
    exact nextFile_ok [] (List.Subset.refl _) rfl (List.nil_subset _) rfl
  | beginning x =>
    obtain rfl := Option.some.inj hdone
    exact .of_run rfl rfl (htask x rfl)
  | executing x tx =>
    obtain rfl : tx = some ⟨[], []⟩ := htransacts
    obtain rfl := Option.some.inj hdone
    exact .of_run rfl rfl (htask x rfl)
  | inserting x tx =>
    obtain rfl : tx = some ⟨[x.file], []⟩ := htransacts
    simp only [migrationResume, MigrationDatabase.insert] at hdone
    split_ifs at hdone
    · cases hdone
    · obtain rfl := Option.some.inj hdone
      exact .of_run rfl rfl (htask x rfl)
  | committing x tx =>
    obtain rfl : tx = some ⟨[x.file], [x.file]⟩ := htransacts
    obtain rfl := Option.some.inj hdone
    exact committed_ok (htask x rfl)
  | rollingBack tx =>
    obtain rfl := Option.some.inj hdone
    exact leaving_ok tx true
  | ending tx threw =>
    obtain rfl := Option.some.inj hdone
    exact ended_ok tx threw

theorem failed_ok {ended : Bool} (hfailed : migrationResume db task (.failed ended) = some g) : LeavesOk g := by
  cases task with
  | connecting directory =>
    obtain rfl := Option.some.inj hfailed
    exact .of_idle (by simp) (by simp)
  | rollingBack tx =>
    obtain rfl := Option.some.inj hfailed
    exact leaving_ok tx ended
  | ending tx threw =>
    obtain rfl := Option.some.inj hfailed
    exact ended_ok tx true
  | creatingTable | selecting | beginning | executing | inserting | committing =>
    obtain rfl := Option.some.inj hfailed
    exact throwing_ok _ ended

theorem resume_ok (h : migrationResume db task o = some g) (htransacts : task.Transacts)
    (htask : ∀ x, task.run? = some x → x.Ok db.applied) : LeavesOk g := by
  cases o with
  | done => exact done_ok h htransacts htask
  | failed ended => exact failed_ok h
  | lost =>
    cases task with
    | committing x =>
      obtain rfl := Option.some.inj h
      exact .of_idle (by simp [MigrationTask.run?]) (by simp)
    | connecting | creatingTable | selecting | beginning | executing | inserting | rollingBack | ending => cases h
  | killed =>
    obtain rfl := Option.some.inj ((resume_killed db task).symm.trans h)
    exact .of_idle (by simp) (by simp)

theorem fire_ok {t : Trigger MigrationEvent MigrationTask MigrationOutcome}
    (h : migrations.fire db t = some g)
    (htasks : ∀ task ∈ t.taken, task.Transacts ∧ ∀ x, task.run? = some x → x.Ok db.applied) : LeavesOk g := by
  cases t with
  | event e =>
    obtain rfl := Option.some.inj h
    exact .of_idle (by simp [MigrationTask.run?]) (by simp)
  | task task o =>
    obtain ⟨htransacts, htask⟩ := htasks task (List.mem_singleton_self task)
    exact resume_ok h htransacts htask

end

/-! ## Runs -/

abbrev MigrationConf := Conf MigrationDatabase MigrationTask
/-- Each script that was committed is committed with its row, once. -/
structure Sound (db : MigrationDatabase) : Prop where
  executed : db.executed = db.applied
  nodup : db.applied.Nodup
  fresh : ∀ name ∈ db.inserted, name ∉ db.applied

section
variable {db : MigrationDatabase} {taken : List MigrationTask} {g : MigrationStep}

theorem Sound.released (h : Sound db) (tx : Option Transaction) : Sound (db.release tx) where
  executed := h.executed
  nodup := h.nodup
  fresh other hm := h.fresh other (List.mem_filter.mp hm).1

theorem Sound.committed (h : Sound db) {file : JsString} (hfile : file ∈ db.inserted) :
    Sound (db.commit (some ⟨[file], [file]⟩)) where
  executed := congrArg (· ++ [file]) h.executed
  nodup := by
    apply List.nodup_append.mpr
    refine ⟨h.nodup, List.nodup_singleton _, fun name hname other hother => ?_⟩
    rw [List.mem_singleton.mp hother]
    intro heq
    exact h.fresh file hfile (heq ▸ hname)
  fresh name hm hname := by
    obtain ⟨hinserted, hne⟩ := List.mem_filter.mp hm
    rcases List.mem_append.mp hname with hname | hname
    · exact h.fresh name hinserted hname
    · simp [List.mem_singleton.mp hname, uncommitted] at hne

theorem Move.sound (h : Move db taken g) (hsound : Sound db)
    (htaken : ∀ task ∈ taken, ∀ name ∈ task.inserted, name ∈ db.inserted) : Sound g.state := by
  cases h with
  | kept hstate =>
    rw [hstate]
    exact hsound
  | inserted _ hnew hstate =>
    rw [hstate]
    exact ⟨hsound.executed, hsound.nodup, List.forall_mem_cons.mpr ⟨hnew, hsound.fresh⟩⟩
  | committed hstate =>
    rw [hstate]
    exact hsound.committed (htaken _ (List.mem_singleton_self _) _ (List.mem_singleton_self _))
  | released hstate =>
    rw [hstate]
    exact hsound.released _

/-- Nothing that is applied is taken back. -/
theorem Move.grows (h : Move db taken g) : db.applied <+: g.state.applied := by
  cases h with
  | kept hstate => rw [hstate]
  | inserted _ _ hstate => rw [hstate]
  | committed hstate =>
    rw [hstate]
    exact List.prefix_append _ _
  | released hstate =>
    rw [hstate]
    exact List.prefix_refl _

end

abbrev MigrationsExclusive : MigrationConf → Prop :=
  Exclusive MigrationDatabase.inserted MigrationTask.inserted

/-- What holds of every configuration, with what was logged so far. -/
structure Migrating (past : MigratedDatabase) (c : MigrationConf) (logs : List MigrationLog) : Prop where
  sound : Sound c.shared
  grown : past.applied <+: c.shared.applied
  exclusive : MigrationsExclusive c
  tasks : ∀ task ∈ c.pool, task.Transacts ∧ ∀ x, task.run? = some x → x.Ok c.shared.applied
  logs : ∀ log ∈ logs, log.Ok c.shared.applied

theorem Migrating.initial (past : MigratedDatabase) : Migrating past past.conf [] where
  sound := ⟨rfl, past.nodup, List.forall_mem_nil _⟩
  grown := List.prefix_refl _
  exclusive := ⟨List.Perm.refl _, List.nodup_nil⟩
  tasks := List.forall_mem_nil _
  logs := List.forall_mem_nil _

section
variable {past : MigratedDatabase} {c c' : MigrationConf} {logs out : List MigrationLog}
  {t : Trigger MigrationEvent MigrationTask MigrationOutcome} {g : MigrationStep} {rest : List MigrationTask}

theorem exclusive_step (h : MigrationsExclusive c) (hby : migrations.StepBy c c' out t g rest)
    (hmove : Move c.shared t.taken g) : MigrationsExclusive c' := by
  generalize htaken : t.taken = taken at hmove
  cases hmove with
  | kept hstate hnext => exact h.kept hby (by rw [hstate]) (by rw [hnext, htaken])
  | inserted hfree hnew hstate hnext =>
    exact h.acquired hby hfree (by rw [hstate]) (by rw [hnext, htaken]; exact .refl _)
  | committed hstate hnext =>
    refine h.released htaken hby ?_ hnext
    rw [hstate]
    exact List.filter_congr fun _ _ => decide_eq_decide.mpr Iff.rfl
  | released hstate hnext =>
    refine h.released htaken hby ?_ hnext
    rw [hstate]
    exact List.filter_congr fun _ _ => decide_eq_decide.mpr Iff.rfl

theorem Migrating.move (h : Migrating past c logs) (hby : migrations.StepBy c c' out t g rest) :
    Move c.shared t.taken g :=
  fire_move (fun task hm => (h.tasks task (hby.mem_of_taken hm)).1) hby.fire

theorem Migrating.step (h : Migrating past c logs) (hby : migrations.StepBy c c' out t g rest) :
    Migrating past c' (logs ++ out) := by
  have hmove := h.move hby
  have hprefix := hmove.grows
  have hok : LeavesOk g := fire_ok hby.fire fun task hm => h.tasks task (hby.mem_of_taken hm)
  refine ⟨?_, ?_, exclusive_step h.exclusive hby hmove, ?_, ?_⟩
  · rw [hby.shared]
    apply hmove.sound h.sound
    intro task hm name hname
    exact h.exclusive.mem_of_pool (hby.mem_of_taken hm) hname
  · rw [hby.shared]
    exact h.grown.trans hprefix
  · intro task hm
    rw [hby.shared]
    rcases hby.mem_after hm with hm | hm
    · obtain ⟨htransacts, htask⟩ := h.tasks task (hby.mem_of_rest hm)
      exact ⟨htransacts, fun x hx => (htask x hx).mono hprefix.subset⟩
    · exact hok.tasks task hm
  · rw [hby.out, hby.shared]
    exact List.forall_mem_append.mpr ⟨fun log hm => (h.logs log hm).mono hprefix.subset, hok.logs⟩

/-- The task belongs to a run with these files. -/
def MigrationTask.Of (files : List JsString) : MigrationTask → Prop
  | connecting directory | creatingTable directory | selecting directory => migrationFiles directory = files
  | beginning x | executing x _ | inserting x _ | committing x _ => x.files = files
  | rollingBack _ | ending _ _ => True

def MigrationEvent.files : MigrationEvent → List JsString
  | migrate directory => migrationFiles directory

/-- The runs that are started have these files. -/
def StartsWith (files : List JsString) (_ : MigrationConf)
    (t : Trigger MigrationEvent MigrationTask MigrationOutcome) : Prop :=
  ∀ e, t = .event e → e.files = files

/-- While all runs have the same files, these are applied from the front on. -/
structure InOrder (files : List JsString) (c : MigrationConf) : Prop where
  applied : c.shared.applied <+: files
  tasks : ∀ task ∈ c.pool, task.Of files

/-- Where the next script is still to come, exactly the ones before it are applied. -/
theorem applied_eq_visited {applied visited remaining : List JsString} {file : JsString}
    (happlied : applied <+: visited ++ file :: remaining) (hnodup : visited.Nodup)
    (hvisited : visited ⊆ applied) (hfile : file ∉ applied) : applied = visited := by
  rcases List.prefix_or_prefix_of_prefix happlied (List.prefix_append visited _) with hshort | hlong
  · have hlength : visited.length ≤ applied.length := (List.subperm_of_subset hnodup hvisited).length_le
    exact hshort.eq_of_length_le hlength
  · obtain ⟨more, rfl⟩ := hlong
    cases more with
    | nil => rw [List.append_nil]
    | cons first more =>
      have hfirst := (List.prefix_append_right_inj visited).mp happlied
      obtain ⟨rfl, -⟩ := List.cons_prefix_cons.mp hfirst
      exact absurd (by simp) hfile

variable {db : MigrationDatabase} {task : MigrationTask} {o : MigrationOutcome} {files : List JsString}

theorem nextFile_of (appliedSet : List JsString) (appliedCount skippedCount : ℕ) (remaining : List JsString) :
    ∀ task ∈ (nextFile db files appliedSet appliedCount skippedCount remaining).next, task.Of files := by
  induction remaining generalizing skippedCount with
  | nil => simp [nextFile, MigrationTask.Of]
  | cons file remaining ih =>
    unfold nextFile
    split_ifs
    · exact ih _
    · simp [MigrationTask.Of]

theorem done_of (hdone : migrationResume db task .done = some g) (htask : task.Of files) :
    ∀ task ∈ g.next, task.Of files := by
  cases task with
  | connecting | creatingTable | beginning | executing =>
    obtain rfl := Option.some.inj hdone
    exact List.forall_mem_singleton.mpr htask
  | selecting directory =>
    obtain rfl := Option.some.inj hdone
    rw [← show migrationFiles directory = files from htask]
    exact nextFile_of _ _ _ _
  | inserting x tx =>
    obtain ⟨_, -, rfl⟩ := Option.map_eq_some_iff.mp hdone
    exact List.forall_mem_singleton.mpr htask
  | committing x tx =>
    obtain rfl := Option.some.inj hdone
    rw [← show x.files = files from htask]
    exact nextFile_of _ _ _ _
  | rollingBack tx =>
    obtain rfl := Option.some.inj hdone
    exact List.forall_mem_singleton.mpr trivial
  | ending tx threw =>
    obtain rfl := Option.some.inj hdone
    exact List.forall_mem_nil _

theorem failed_of {ended : Bool} (hfailed : migrationResume db task (.failed ended) = some g) :
    ∀ task ∈ g.next, task.Of files := by
  cases task with
  | connecting | ending =>
    obtain rfl := Option.some.inj hfailed
    exact List.forall_mem_nil _
  | rollingBack | creatingTable | selecting | beginning | executing | inserting | committing =>
    obtain rfl := Option.some.inj hfailed
    cases ended <;> exact List.forall_mem_singleton.mpr trivial

theorem resume_of (h : migrationResume db task o = some g) (htask : task.Of files) :
    ∀ task ∈ g.next, task.Of files := by
  cases o with
  | done => exact done_of h htask
  | failed ended => exact failed_of h
  | lost =>
    cases task with
    | committing x =>
      obtain rfl := Option.some.inj h
      exact List.forall_mem_singleton.mpr trivial
    | connecting | creatingTable | selecting | beginning | executing | inserting | rollingBack | ending => cases h
  | killed =>
    obtain rfl := Option.some.inj ((resume_killed db task).symm.trans h)
    exact List.forall_mem_nil _

theorem InOrder.step (h : InOrder files c) (hnodup : files.Nodup) (hmigrating : Migrating past c logs)
    (hstarts : StartsWith files c t) (hby : migrations.StepBy c c' out t g rest) : InOrder files c' where
  applied := by
    have hmove := hmigrating.move hby
    rw [hby.shared]
    generalize htaken : t.taken = taken at hmove
    cases hmove with
    | kept hstate =>
      rw [hstate]
      exact h.applied
    | inserted _ _ hstate =>
      rw [hstate]
      exact h.applied
    | released hstate =>
      rw [hstate]
      exact h.applied
    | @committed x g hstate =>
      have hm : .committing x (some ⟨[x.file], [x.file]⟩) ∈ c.pool :=
        hby.mem_of_taken (by rw [htaken]; exact List.mem_singleton_self _)
      obtain ⟨visited, hsplit, hvisited, -⟩ := ((hmigrating.tasks _ hm).2 x rfl).visited
      have hfiles : files = visited ++ x.file :: x.remaining := (h.tasks _ hm).symm.trans hsplit
      have hnew : x.file ∉ c.shared.applied :=
        hmigrating.sound.fresh x.file (hmigrating.exclusive.mem_of_pool hm (List.mem_singleton_self _))
      have happlied := h.applied
      rw [hfiles] at happlied hnodup
      have hexact := applied_eq_visited happlied (List.nodup_append.mp hnodup).1 hvisited hnew
      rw [hstate, hfiles]
      change c.shared.applied ++ [x.file] <+: _
      rw [hexact]
      exact ⟨x.remaining, by simp⟩
  tasks task hm := by
    rcases hby.mem_after hm with hm | hm
    · exact h.tasks task (hby.mem_of_rest hm)
    · have hfire := hby.fire
      cases t with
      | event e =>
        obtain ⟨directory⟩ := e
        obtain rfl := Option.some.inj hfire
        rw [List.mem_singleton.mp hm]
        exact hstarts _ rfl
      | task taken o =>
        exact resume_of hfire (h.tasks taken (hby.mem_of_taken (List.mem_singleton_self taken))) task hm

end
/-! ## A run that nothing interferes with -/

/-- Behind the segment its task is the only one, and when no statement fails the run is over with these logs. -/
def RunsOut (g : MigrationStep) (logs : List MigrationLog) : Prop :=
  ∃ acts c, (∀ a ∈ acts, a = .resume 0 .done) ∧ migrations.run ⟨g.state, g.next⟩ acts = some (c, logs) ∧
    c.pool = []

section
variable {db : MigrationDatabase} {g g' : MigrationStep} {task : MigrationTask} {logs : List MigrationLog}
  {files appliedSet remaining : List JsString}

theorem RunsOut.nothing (hnext : g.next = []) : RunsOut g [] :=
  ⟨[], _, List.forall_mem_nil _, rfl, hnext⟩

theorem RunsOut.behind (h : RunsOut g' logs) (hnext : g.next = [task])
    (hresume : migrationResume g.state task .done = some g') : RunsOut g (g'.out ++ logs) := by
  obtain ⟨acts, c, hacts, hrun, hpool⟩ := h
  have hstep : migrations.step ⟨g.state, g.next⟩ (.resume 0 .done) = some (⟨g'.state, g'.next⟩, g'.out) := by
    rw [hnext]
    exact Machine.step_eq (M := migrations) (c := ⟨g.state, [task]⟩) (t := .task task .done) rfl hresume
  refine ⟨.resume 0 .done :: acts, c, List.forall_mem_cons.mpr ⟨rfl, hacts⟩, ?_, hpool⟩
  rw [Machine.run, hstep]
  dsimp only
  rw [hrun]

/-- The database when a free script has been inserted. -/
def MigrationDatabase.holding (db : MigrationDatabase) (file : JsString) : MigrationDatabase :=
  { db with inserted := file :: db.inserted }

/-- The run is started where no other is at work. -/
theorem RunsOut.started {c : MigrationConf} (hpool : c.pool = []) {directory : Directory}
    (h : RunsOut ((Segment.of c.shared).suspend (.connecting directory)) logs) :
    ∃ acts c', (∀ a ∈ acts, a = .resume 0 .done) ∧
      migrations.run c (.event (.migrate directory) :: acts) = some (c', logs) ∧ c'.pool = [] := by
  obtain ⟨acts, c', hacts, hrun, hover⟩ := h
  refine ⟨acts, c', hacts, ?_, hover⟩
  have hstep : migrations.step c (.event (.migrate directory)) = some (⟨c.shared, [.connecting directory]⟩, []) := by
    have hfire := Machine.step_eq (M := migrations) (c := c) (a := .event (.migrate directory)) rfl rfl
    rw [Machine.rest, hpool] at hfire
    exact hfire
  rw [Machine.run, hstep]
  dsimp only
  rw [show migrations.run ⟨c.shared, [.connecting directory]⟩ acts = some (c', logs) from hrun]
  rfl

end

end CodeShare.Migrations
