import CodeShare.Services.ScraperService

/-! # Imports of one problem

A run that finds a row returns it, whoever has created it. What a run has returned is complete and stays
so exactly when no look-up finds a problem that another run is still storing or removing, or has failed
to remove.
-/

namespace CodeShare.Scraper
open Tasks
set_option autoImplicit false

/-- The problem that a run has created and not yet returned. -/
def ImportTask.creating : ImportTask → Option ProblemId
  | .createTestCase created _ _ | .createBoilerplate created | .deleteProblem created =>
    some created.id
  | _ => none

/-- The problems at which a run is at work, and those that a run has left behind. -/
def unsettled (c : ImportConf) : List ProblemId :=
  c.shared.leftBehind ++ c.pool.filterMap ImportTask.creating

/-- The row that a look-up finds. -/
def finds (s : Importer) : ImportTrigger → Option ProblemRow
  | .task (.findBySourceUrl _ canonicalUrl) .executed =>
    s.db.findBySourceUrlIncludingDeleted canonicalUrl
  | .task (.findBySlug slug _) .executed => s.db.findBySlugIncludingDeleted slug
  | _ => none

def FindsSettled (c : ImportConf) (t : ImportTrigger) : Prop :=
  ∀ row, finds c.shared t = some row → row.id ∉ unsettled c

instance (c : ImportConf) (t : ImportTrigger) : Decidable (FindsSettled c t) :=
  decidable_of_iff (∀ row ∈ finds c.shared t, row.id ∉ unsettled c) Iff.rfl

def ReturnedComplete (c : ImportConf) : Prop := ∀ id ∈ c.shared.returned, c.shared.db.Complete id

/-! ## The tables -/

namespace Database
variable {db db' : Database} {id p : ProblemId}

/-- What the first tables have for a problem is in the second. -/
structure Keeps (db db' : Database) (id : ProblemId) : Prop where
  problems : ∀ row ∈ db.problems, row.id = id →
    ∃ row' ∈ db'.problems, row'.id = id ∧ row'.imported = row.imported
  testCases : ∀ case, (id, case) ∈ db.testCases → (id, case) ∈ db'.testCases
  boilerplates : ∀ boilerplate, (id, boilerplate) ∈ db.boilerplates →
    (id, boilerplate) ∈ db'.boilerplates

theorem keeps_refl (db : Database) (id : ProblemId) : db.Keeps db id :=
  ⟨fun row hrow hid => ⟨row, hrow, hid, rfl⟩, fun _ h => h, fun _ h => h⟩

theorem Complete.keep (h : db.Complete id) (hkeeps : db.Keeps db' id) : db'.Complete id := by
  obtain ⟨row, hrow, hid, hstored, hboilerplate⟩ := h
  obtain ⟨row', hrow', hid', himported⟩ := hkeeps.problems row hrow hid
  refine ⟨row', hrow', hid', fun case hcase => hkeeps.testCases _ (hstored case ?_), ?_⟩
  · rwa [← himported]
  · rw [himported]
    exact hkeeps.boilerplates _ hboilerplate

/-- Tables that have only grown. -/
structure Extends (db db' : Database) : Prop where
  problems : ∀ row ∈ db.problems, row ∈ db'.problems
  testCases : ∀ entry ∈ db.testCases, entry ∈ db'.testCases
  boilerplates : ∀ entry ∈ db.boilerplates, entry ∈ db'.boilerplates

theorem Extends.keeps (h : db.Extends db') (id : ProblemId) : db.Keeps db' id :=
  ⟨fun row hrow hid => ⟨row, h.problems row hrow, hid, rfl⟩, fun _ => h.testCases _,
    fun _ => h.boilerplates _⟩

theorem keeps_restoreById (db : Database) (p id : ProblemId) : db.Keeps (db.restoreById p) id := by
  refine ⟨fun row hrow hid => ⟨_, List.mem_map_of_mem hrow, ?_, ?_⟩, fun _ h => h, fun _ h => h⟩
  · split_ifs <;> exact hid
  · split_ifs <;> rfl

theorem keeps_deleteById (hid : id ≠ p) : db.Keeps (db.deleteById p) id := by
  refine ⟨fun row hrow hrowId => ⟨row, List.mem_filter.mpr ⟨hrow, ?_⟩, hrowId, rfl⟩,
    fun _ hcase => List.mem_filter.mpr ⟨hcase, ?_⟩, fun _ hb => List.mem_filter.mpr ⟨hb, ?_⟩⟩
  · simpa [hrowId] using hid
  · simpa using hid
  · simpa using hid

theorem createProblem_extends {data : ImportData} (h : db.createProblem data = some db') :
    db.Extends db' ∧ db'.problems = db.problems ++ [db.newRow data] ∧
      db'.testCases = db.testCases ∧ db'.boilerplates = db.boilerplates ∧
      db'.nextId = db.nextId + 1 := by
  unfold createProblem at h
  split_ifs at h
  obtain rfl := Option.some.inj h
  exact ⟨⟨fun _ => List.mem_append_left _, fun _ => id, fun _ => id⟩, rfl, rfl, rfl, rfl⟩

theorem createTestCase_extends {case : ParsedExample} (h : db.createTestCase p case = some db') :
    db.Extends db' ∧ db' = { db with testCases := db.testCases ++ [(p, testCaseColumns case)] } := by
  unfold createTestCase at h
  split_ifs at h
  obtain rfl := Option.some.inj h
  exact ⟨⟨fun _ => id, fun _ => List.mem_append_left _, fun _ => id⟩, rfl⟩

theorem createBoilerplate_extends {boilerplate : BoilerplateData}
    (h : db.createBoilerplate p boilerplate = some db') :
    db.Extends db' ∧ db' = { db with boilerplates := db.boilerplates ++ [(p, boilerplate)] } := by
  unfold createBoilerplate at h
  split_ifs at h
  obtain rfl := Option.some.inj h
  exact ⟨⟨fun _ => id, fun _ => id, fun _ => List.mem_append_left _⟩, rfl⟩

/-- A problem that has been created and whose boilerplate is missing; nobody has deleted it softly. -/
structure Open (db : Database) (id : ProblemId) : Prop where
  used : id < db.nextId
  boilerplate : ∀ entry ∈ db.boilerplates, entry.1 ≠ id
  kept : ∀ row ∈ db.problems, row.id = id → row.deleted = false

theorem Open.not_complete (h : db.Open id) : ¬ db.Complete id := by
  rintro ⟨row, -, -, -, hboilerplate⟩
  exact h.boilerplate _ hboilerplate rfl

theorem Complete.ne_of_open (h : db.Complete id) (hopen : db.Open p) : id ≠ p := by
  rintro rfl
  exact hopen.not_complete h

theorem Open.restoreById (h : db.Open id) : (db.restoreById p).Open id := by
  refine ⟨h.used, h.boilerplate, fun row hrow hid => ?_⟩
  obtain ⟨row', hrow', rfl⟩ := List.mem_map.mp hrow
  split_ifs at hid ⊢
  · rfl
  · exact h.kept row' hrow' hid

theorem Open.deleteById (h : db.Open id) : (db.deleteById p).Open id :=
  ⟨h.used, fun _ hentry => h.boilerplate _ (List.mem_filter.mp hentry).1,
    fun row hrow => h.kept row (List.mem_filter.mp hrow).1⟩

/-- The row is there, and of what its creator has parsed only the remaining examples are not stored. -/
structure Stores (db : Database) (row : ProblemRow) (remaining : List ParsedExample) : Prop where
  present : ∃ row' ∈ db.problems, row'.id = row.id ∧ row'.imported = row.imported
  stored : ∀ case ∈ row.imported.parsedExamples, case ∈ remaining ∨ (row.id, testCaseColumns case) ∈ db.testCases

theorem Stores.keep {row : ProblemRow} {remaining : List ParsedExample} (h : db.Stores row remaining)
    (hkeeps : db.Keeps db' row.id) : db'.Stores row remaining := by
  obtain ⟨found, hfound, hid, himported⟩ := h.present
  obtain ⟨kept, hkept, hid', himported'⟩ := hkeeps.problems found hfound hid
  exact ⟨⟨kept, hkept, hid', himported'.trans himported⟩,
    fun case hcase => (h.stored case hcase).imp_right (hkeeps.testCases _)⟩

end Database

/-! ## What a segment does -/

/-- What each trigger does; several triggers end in the same way. -/
inductive Proceeds (s : Importer) : ImportTrigger → ImportStep → Prop where
  | rejects {t : ImportTrigger} (hfinds : finds s t = none)
      (htaken : t.taken.filterMap ImportTask.creating = []) : Proceeds s t (reject s)
  | waits {t : ImportTrigger} (task : ImportTask) (hfinds : finds s t = none)
      (htaken : t.taken.filterMap ImportTask.creating = []) (hcreating : task.creating = none)
      (hrestores : ∀ row, task ≠ .restoreProblem row) : Proceeds s t ((Segment.of s).suspend task)
  | returns {t : ImportTrigger} (row : ProblemRow) (hfinds : finds s t = some row)
      (hrow : row ∈ s.db.problems) (htaken : t.taken.filterMap ImportTask.creating = []) :
      Proceeds s t (returnProblem s row)
  | restores {t : ImportTrigger} (row : ProblemRow) (hfinds : finds s t = some row)
      (hrow : row ∈ s.db.problems) (hdeleted : row.deleted = true)
      (htaken : t.taken.filterMap ImportTask.creating = []) :
      Proceeds s t ((Segment.of s).suspend (.restoreProblem row))
  | restored (row : ProblemRow) : Proceeds s (.task (.restoreProblem row) .executed)
      (returnProblem { s with db := s.db.restoreById row.id } row)
  | created (data : ImportData) (db : Database) (hdb : s.db.createProblem data = some db) :
      Proceeds s (.task (.createProblem data) .executed)
        (storeNext { s with db := db } (s.db.newRow data) data.parsedExamples)
  | stored (row : ProblemRow) (case : ParsedExample) (remaining : List ParsedExample) (db : Database)
      (hdb : s.db.createTestCase row.id case = some db) :
      Proceeds s (.task (.createTestCase row case remaining) .executed)
        (storeNext { s with db := db } row remaining)
  | completed (row : ProblemRow) (db : Database)
      (hdb : s.db.createBoilerplate row.id row.imported.boilerplate = some db) :
      Proceeds s (.task (.createBoilerplate row) .executed) (returnProblem { s with db := db } row)
  | abandoned (task : ImportTask) (o : ImportOutcome) (row : ProblemRow)
      (hcreating : task.creating = some row.id) : Proceeds s (.task task o) (abandon s row)
  | removed (row : ProblemRow) : Proceeds s (.task (.deleteProblem row) .executed)
      (reject { s with db := s.db.deleteById row.id })
  | left (row : ProblemRow) : Proceeds s (.task (.deleteProblem row) .failed)
      (reject { s with leftBehind := s.leftBehind ++ [row.id] })

section
variable {s : Importer} {t : ImportTrigger} {g : ImportStep}

theorem restoreDeletedProblem_proceeds {row : ProblemRow} (hfinds : finds s t = some row)
    (hrow : row ∈ s.db.problems) (htaken : t.taken.filterMap ImportTask.creating = []) :
    Proceeds s t (restoreDeletedProblem s row) := by
  unfold restoreDeletedProblem
  split_ifs with hdeleted
  · exact .restores row hfinds hrow hdeleted htaken
  · exact .returns row hfinds hrow htaken

theorem findBySourceUrl_proceeds {slug canonicalUrl : JsString} {o : ImportOutcome}
    (h : afterFindBySourceUrl s slug canonicalUrl o = some g) :
    Proceeds s (.task (.findBySourceUrl slug canonicalUrl) o) g := by
  cases o with
  | executed =>
    simp only [afterFindBySourceUrl] at h
    split at h <;> obtain rfl := Option.some.inj h
    · rename_i existing hfound
      exact restoreDeletedProblem_proceeds hfound (List.mem_of_find?_eq_some hfound) rfl
    · rename_i hfound
      exact .waits _ hfound rfl rfl nofun
  | failed => cases h; exact .rejects rfl rfl
  | parsed _ _ => cases h

theorem findBySlug_proceeds {slug canonicalUrl : JsString} {o : ImportOutcome}
    (h : afterFindBySlug s slug canonicalUrl o = some g) :
    Proceeds s (.task (.findBySlug slug canonicalUrl) o) g := by
  cases o with
  | executed =>
    simp only [afterFindBySlug] at h
    split at h <;> obtain rfl := Option.some.inj h
    · rename_i existing hfound
      exact restoreDeletedProblem_proceeds hfound (List.mem_of_find?_eq_some hfound) rfl
    · rename_i hfound
      exact .waits _ hfound rfl rfl nofun
  | failed => cases h; exact .rejects rfl rfl
  | parsed _ _ => cases h

theorem createProblem_proceeds {data : ImportData} {o : ImportOutcome}
    (h : afterCreateProblem s data o = some g) : Proceeds s (.task (.createProblem data) o) g := by
  cases o with
  | executed =>
    simp only [afterCreateProblem] at h
    split at h <;> obtain rfl := Option.some.inj h
    · rename_i db hdb
      exact .created data db hdb
    · exact .rejects rfl rfl
  | failed => cases h; exact .rejects rfl rfl
  | parsed _ _ => cases h

theorem createTestCase_proceeds {created : ProblemRow} {case : ParsedExample}
    {remaining : List ParsedExample} {o : ImportOutcome}
    (h : afterCreateTestCase s created case remaining o = some g) :
    Proceeds s (.task (.createTestCase created case remaining) o) g := by
  cases o with
  | executed =>
    simp only [afterCreateTestCase] at h
    split at h <;> obtain rfl := Option.some.inj h
    · rename_i db hdb
      exact .stored created case remaining db hdb
    · exact .abandoned _ _ created rfl
  | failed => cases h; exact .abandoned _ _ created rfl
  | parsed _ _ => cases h

theorem createBoilerplate_proceeds {created : ProblemRow} {o : ImportOutcome}
    (h : afterCreateBoilerplate s created o = some g) :
    Proceeds s (.task (.createBoilerplate created) o) g := by
  cases o with
  | executed =>
    simp only [afterCreateBoilerplate] at h
    split at h <;> obtain rfl := Option.some.inj h
    · rename_i db hdb
      exact .completed created db hdb
    · exact .abandoned _ _ created rfl
  | failed => cases h; exact .abandoned _ _ created rfl
  | parsed _ _ => cases h

theorem fire_proceeds (h : importer.fire s t = some g) : Proceeds s t g := by
  cases t with
  | event url =>
    cases url with
    | none => cases h; exact .rejects rfl rfl
    | some url => cases h; exact .waits _ rfl rfl rfl nofun
  | task task o =>
    cases task with
    | findBySourceUrl slug canonicalUrl => exact findBySourceUrl_proceeds h
    | findBySlug slug canonicalUrl => exact findBySlug_proceeds h
    | restoreProblem existing =>
      cases o with
      | executed => cases h; exact .restored existing
      | failed => cases h; exact .rejects rfl rfl
      | parsed _ _ => cases h
    | fetchQuestionData slug canonicalUrl =>
      cases o with
      | executed => cases h
      | failed => cases h; exact .rejects rfl rfl
      | parsed parsedExamples boilerplate => cases h; exact .waits _ rfl rfl rfl nofun
    | createProblem data => exact createProblem_proceeds h
    | createTestCase created case remaining => exact createTestCase_proceeds h
    | createBoilerplate created => exact createBoilerplate_proceeds h
    | deleteProblem created =>
      cases o with
      | executed => cases h; exact .removed created
      | failed => cases h; exact .left created
      | parsed _ _ => cases h

end

/-! ## How runs end -/

/-- The problem that an answer returns. -/
def ImportEffect.returnedId : ImportEffect → Option ProblemId
  | .returned problem => some problem.id
  | .rejected => none

/-- A run goes on with one statement, or it ends with one answer. -/
structure Answers (returned : List ProblemId) (g : ImportStep) : Prop where
  one : g.out.length + g.next.length = 1
  returned : g.state.returned = returned ++ g.out.filterMap ImportEffect.returnedId

section
variable {s : Importer} {t : ImportTrigger} {g : ImportStep}

theorem answers_suspend {returned : List ProblemId} (h : s.returned = returned) (task : ImportTask) :
    Answers returned ((Segment.of s).suspend task) :=
  ⟨rfl, h.trans (List.append_nil _).symm⟩

theorem answers_reject {returned : List ProblemId} (h : s.returned = returned) :
    Answers returned (reject s) :=
  ⟨rfl, h.trans (List.append_nil _).symm⟩

theorem answers_returnProblem {returned : List ProblemId} (h : s.returned = returned)
    (row : ProblemRow) : Answers returned (returnProblem s row) :=
  ⟨rfl, congrArg (· ++ [row.id]) h⟩

theorem answers_storeNext {returned : List ProblemId} (h : s.returned = returned) (row : ProblemRow)
    (remaining : List ParsedExample) : Answers returned (storeNext s row remaining) := by
  cases remaining with
  | nil => exact answers_suspend h _
  | cons case remaining => exact answers_suspend h _

theorem fire_answers (h : importer.fire s t = some g) : Answers s.returned g := by
  cases fire_proceeds h with
  | rejects => exact answers_reject rfl
  | waits => exact answers_suspend rfl _
  | returns => exact answers_returnProblem rfl _
  | restores => exact answers_suspend rfl _
  | restored =>
    apply answers_returnProblem
    rfl
  | created =>
    apply answers_storeNext
    rfl
  | stored =>
    apply answers_storeNext
    rfl
  | completed =>
    apply answers_returnProblem
    rfl
  | abandoned => exact answers_suspend rfl _
  | removed => exact answers_reject rfl
  | left => exact answers_reject rfl

/-- The problems that runs have returned are those of their answers. -/
theorem returned_eq_answers {catalogue : Catalogue} {acts : List ImportAct} {c : ImportConf}
    {out : List ImportEffect} (hrun : importer.run catalogue.initial acts = some (c, out)) :
    c.shared.returned = out.filterMap ImportEffect.returnedId := by
  have hstep : ∀ (c c' : ImportConf) (past out : List ImportEffect) t g rest,
      c.shared.returned = past.filterMap ImportEffect.returnedId →
      importer.StepBy c c' out t g rest →
      c'.shared.returned = (past ++ out).filterMap ImportEffect.returnedId := by
    intro c c' past out t g rest hpast hby
    rw [hby.shared, (fire_answers hby.fire).returned, hpast, hby.out, List.filterMap_append]
  exact Machine.run_preserves_always hstep rfl hrun

end

/-! ## Every problem is complete or a run is at work at it -/

/-- What a task relies on. -/
def ImportTask.Consistent (db : Database) : ImportTask → Prop
  | .createTestCase created case remaining => db.Stores created (case :: remaining)
  | .createBoilerplate created => db.Stores created []
  | .restoreProblem existing => db.Complete existing.id
  | _ => True

theorem ImportTask.Consistent.keep {db db' : Database} {task : ImportTask} (h : task.Consistent db)
    (hkeeps : ∀ id, task.creating = some id ∨ db.Complete id → db.Keeps db' id) :
    task.Consistent db' := by
  cases task with
  | createTestCase created case remaining => exact Database.Stores.keep h (hkeeps _ (.inl rfl))
  | createBoilerplate created => exact Database.Stores.keep h (hkeeps _ (.inl rfl))
  | restoreProblem existing => exact Database.Complete.keep h (hkeeps _ (.inr h))
  | _ => trivial

structure Sound (c : ImportConf) : Prop where
  fresh : ∀ row ∈ c.shared.db.problems, row.id < c.shared.db.nextId
  freshBoilerplates : ∀ entry ∈ c.shared.db.boilerplates, entry.1 < c.shared.db.nextId
  distinct : (unsettled c).Nodup
  unfinished : ∀ id ∈ unsettled c, c.shared.db.Open id
  consistent : ∀ task ∈ c.pool, task.Consistent c.shared.db
  settled : ∀ row ∈ c.shared.db.problems, c.shared.db.Complete row.id ∨ row.id ∈ unsettled c

theorem sound_initial (catalogue : Catalogue) : Sound catalogue.initial where
  fresh := catalogue.fresh
  freshBoilerplates := catalogue.freshBoilerplates
  distinct := List.nodup_nil
  unfinished := nofun
  consistent := nofun
  settled row hrow := .inl (catalogue.complete row hrow)

section
variable {c c' : ImportConf} {out : List ImportEffect} {t : ImportTrigger} {g : ImportStep}
  {rest : List ImportTask}

/-- The unsettled problems apart from that of the task that runs. -/
def othersUnsettled (leftBehind : List ProblemId) (rest : List ImportTask) : List ProblemId :=
  leftBehind ++ rest.filterMap ImportTask.creating

theorem unsettled_before (hby : importer.StepBy c c' out t g rest) :
    (unsettled c).Perm
      (t.taken.filterMap ImportTask.creating ++ othersUnsettled c.shared.leftBehind rest) := by
  have hpool := (hby.filterMap_before ImportTask.creating).symm
  exact (hpool.append_left c.shared.leftBehind).trans (List.perm_append_comm_assoc _ _ _)

theorem unsettled_after (hby : importer.StepBy c c' out t g rest) :
    (unsettled c').Perm
      (g.next.filterMap ImportTask.creating ++ othersUnsettled g.state.leftBehind rest) := by
  unfold unsettled
  rw [hby.shared, hby.filterMap_after]
  exact (List.perm_append_comm.append_left g.state.leftBehind).trans
    (List.perm_append_comm_assoc _ _ _)

/-- A segment that keeps the tables and the unsettled problems. -/
theorem Sound.of_kept (h : Sound c) (hby : importer.StepBy c c' out t g rest)
    (hunsettled : (unsettled c').Perm (unsettled c))
    (hkeeps : ∀ id, c.shared.db.Keeps g.state.db id)
    (hopen : ∀ id, c.shared.db.Open id → g.state.db.Open id)
    (hnextId : g.state.db.nextId = c.shared.db.nextId)
    (hproblems : ∀ row ∈ g.state.db.problems, ∃ row' ∈ c.shared.db.problems, row'.id = row.id)
    (hboilerplates : g.state.db.boilerplates = c.shared.db.boilerplates)
    (hnext : ∀ task ∈ g.next, task.Consistent g.state.db) : Sound c' := by
  have hshared : c'.shared.db = g.state.db := by rw [hby.shared]
  constructor
  · intro row hrow
    rw [hshared] at hrow ⊢
    obtain ⟨row', hrow', hid⟩ := hproblems row hrow
    rw [← hid, hnextId]
    exact h.fresh row' hrow'
  · rw [hshared, hboilerplates, hnextId]
    exact h.freshBoilerplates
  · exact hunsettled.nodup_iff.mpr h.distinct
  · intro id hid
    rw [hshared]
    exact hopen id (h.unfinished id (hunsettled.mem_iff.mp hid))
  · intro task htask
    rw [hshared]
    rcases hby.mem_after htask with hrest | hnew
    · exact (h.consistent task (hby.mem_of_rest hrest)).keep fun id _ => hkeeps id
    · exact hnext task hnew
  · intro row hrow
    rw [hshared] at hrow ⊢
    obtain ⟨row', hrow', hid⟩ := hproblems row hrow
    rw [← hid]
    exact (h.settled row' hrow').imp (fun hcomplete => hcomplete.keep (hkeeps _))
      hunsettled.mem_iff.mpr

/-- A segment that leaves the tables as they are. -/
theorem Sound.of_same (h : Sound c) (hby : importer.StepBy c c' out t g rest)
    (hunsettled : (unsettled c').Perm (unsettled c)) (hdb : g.state.db = c.shared.db)
    (hnext : ∀ task ∈ g.next, task.Consistent c.shared.db) : Sound c' := by
  refine h.of_kept hby hunsettled ?_ ?_ ?_ ?_ ?_ ?_ <;> rw [hdb]
  · exact Database.keeps_refl _
  · exact fun _ h => h
  · exact fun row hrow => ⟨row, hrow, rfl⟩
  · exact hnext

/-- A segment that takes and leaves behind as many creators keeps the unsettled problems. -/
theorem unsettled_perm (hby : importer.StepBy c c' out t g rest)
    (hleft : g.state.leftBehind = c.shared.leftBehind)
    (hcreating : g.next.filterMap ImportTask.creating = t.taken.filterMap ImportTask.creating) :
    (unsettled c').Perm (unsettled c) := by
  have hafter := unsettled_after hby
  rw [hleft, hcreating] at hafter
  exact hafter.trans (unsettled_before hby).symm

theorem storeNext_state (s : Importer) (row : ProblemRow) (remaining : List ParsedExample) :
    (storeNext s row remaining).state = s := by
  cases remaining <;> rfl

theorem storeNext_next (s s' : Importer) (row : ProblemRow) (remaining : List ParsedExample) :
    (storeNext s row remaining).next = (storeNext s' row remaining).next := by
  cases remaining <;> rfl

theorem storeNext_creating (s : Importer) (row : ProblemRow) (remaining : List ParsedExample) :
    (storeNext s row remaining).next.filterMap ImportTask.creating = [row.id] := by
  cases remaining <;> rfl

theorem storeNext_consistent {db : Database} {row : ProblemRow} {remaining : List ParsedExample}
    (h : db.Stores row remaining) (s : Importer) :
    ∀ task ∈ (storeNext s row remaining).next, task.Consistent db := by
  intro task htask
  cases remaining with
  | nil =>
    obtain rfl := List.mem_singleton.mp htask
    exact h
  | cons case remaining =>
    obtain rfl := List.mem_singleton.mp htask
    exact h

theorem Sound.restored (h : Sound c) (hby : importer.StepBy c c' out t g rest) {row : ProblemRow}
    (htaken : t.taken = [.restoreProblem row])
    (hstate : g.state = { c.shared with
      db := c.shared.db.restoreById row.id, returned := c.shared.returned ++ [row.id] })
    (hnext : g.next = []) : Sound c' := by
  have hunsettled : (unsettled c').Perm (unsettled c) := by
    refine unsettled_perm hby ?_ ?_
    · rw [hstate]
    · rw [hnext, htaken]
      rfl
  have hdb : g.state.db = c.shared.db.restoreById row.id := by rw [hstate]
  refine h.of_kept hby hunsettled ?_ ?_ ?_ ?_ ?_ ?_ <;> rw [hdb]
  · exact Database.keeps_restoreById _ _
  · exact fun id hopen => hopen.restoreById
  · rfl
  · intro found hfound
    obtain ⟨row', hrow', rfl⟩ := List.mem_map.mp hfound
    refine ⟨row', hrow', ?_⟩
    split_ifs <;> rfl
  · rfl
  · rw [hnext]
    nofun

theorem Sound.stored (h : Sound c) (hby : importer.StepBy c c' out t g rest) {row : ProblemRow}
    {case : ParsedExample} {remaining : List ParsedExample} {db : Database}
    (htaken : t.taken = [.createTestCase row case remaining])
    (hdb : c.shared.db.createTestCase row.id case = some db)
    (hstate : g.state = { c.shared with db := db })
    (hnext : g.next = (storeNext c.shared row remaining).next) : Sound c' := by
  obtain ⟨hextends, hnew⟩ := Database.createTestCase_extends hdb
  have hbefore : c.shared.db.Stores row (case :: remaining) :=
    h.consistent (.createTestCase row case remaining) (hby.mem_of_taken (by rw [htaken]; simp))
  have hafter : db.Stores row remaining := by
    rw [hnew]
    refine ⟨hbefore.present, fun parsed hparsed => ?_⟩
    rcases hbefore.stored parsed hparsed with hremaining | hstored
    · rcases List.mem_cons.mp hremaining with rfl | hremaining
      · exact .inr (List.mem_append_right _ (List.mem_singleton_self _))
      · exact .inl hremaining
    · exact .inr (List.mem_append_left _ hstored)
  have hunsettled : (unsettled c').Perm (unsettled c) := by
    refine unsettled_perm hby ?_ ?_
    · rw [hstate]
    · rw [hnext, htaken, storeNext_creating]
      rfl
  have hdb' : g.state.db = db := by rw [hstate]
  refine h.of_kept hby hunsettled ?_ ?_ ?_ ?_ ?_ ?_ <;> rw [hdb']
  · exact hextends.keeps
  · intro id hopen
    rw [hnew]
    exact ⟨hopen.used, hopen.boilerplate, hopen.kept⟩
  · rw [hnew]
  · rw [hnew]
    exact fun found hfound => ⟨found, hfound, rfl⟩
  · rw [hnew]
  · rw [hnext]
    exact storeNext_consistent hafter c.shared

theorem Sound.created (h : Sound c) (hby : importer.StepBy c c' out t g rest) {data : ImportData}
    {db : Database} (htaken : t.taken = [.createProblem data])
    (hdb : c.shared.db.createProblem data = some db)
    (hstate : g.state = { c.shared with db := db })
    (hnext : g.next = (storeNext c.shared (c.shared.db.newRow data) data.parsedExamples).next) :
    Sound c' := by
  obtain ⟨hextends, hproblems, hcases, hboilerplates, hnextId⟩ := Database.createProblem_extends hdb
  have hshared : c'.shared.db = db := by rw [hby.shared, hstate]
  have hunsettled : (unsettled c').Perm (c.shared.db.nextId :: unsettled c) := by
    have hafter := unsettled_after hby
    have hbefore := unsettled_before hby
    rw [hnext, storeNext_creating, hstate] at hafter
    rw [htaken] at hbefore
    exact hafter.trans (hbefore.symm.cons _)
  have hrow : ∀ row ∈ db.problems, row ∈ c.shared.db.problems ∨ row = c.shared.db.newRow data := by
    intro row hrow
    rw [hproblems] at hrow
    exact (List.mem_append.mp hrow).imp_right List.mem_singleton.mp
  constructor
  · intro row hmem
    rw [hshared] at hmem ⊢
    rw [hnextId]
    rcases hrow row hmem with hold | rfl
    · exact Nat.lt_succ_of_lt (h.fresh row hold)
    · exact Nat.lt_succ_self _
  · intro entry hentry
    rw [hshared, hboilerplates] at hentry
    rw [hshared, hnextId]
    exact Nat.lt_succ_of_lt (h.freshBoilerplates entry hentry)
  · refine hunsettled.nodup_iff.mpr (List.nodup_cons.mpr ⟨fun hmem => ?_, h.distinct⟩)
    exact Nat.lt_irrefl _ (h.unfinished _ hmem).used
  · intro id hid
    rw [hshared]
    rcases List.mem_cons.mp (hunsettled.mem_iff.mp hid) with rfl | hold
    · refine ⟨?_, fun entry hentry => ?_, fun row hmem hid => ?_⟩
      · rw [hnextId]
        exact Nat.lt_succ_self _
      · rw [hboilerplates] at hentry
        exact (h.freshBoilerplates entry hentry).ne
      · rcases hrow row hmem with hold | rfl
        · exact absurd hid (h.fresh row hold).ne
        · rfl
    · have hopen := h.unfinished id hold
      refine ⟨?_, fun entry hentry => ?_, fun row hmem hid => ?_⟩
      · rw [hnextId]
        exact Nat.lt_succ_of_lt hopen.used
      · rw [hboilerplates] at hentry
        exact hopen.boilerplate entry hentry
      · rcases hrow row hmem with hold | rfl
        · exact hopen.kept row hold hid
        · rfl
  · intro task htask
    rw [hshared]
    rcases hby.mem_after htask with hrest | hnew
    · exact (h.consistent task (hby.mem_of_rest hrest)).keep fun id _ => hextends.keeps id
    · rw [hnext] at hnew
      refine storeNext_consistent ⟨⟨_, ?_, rfl, rfl⟩, fun case hcase => .inl hcase⟩ _ task hnew
      rw [hproblems]
      exact List.mem_append_right _ (List.mem_singleton_self _)
  · intro row hmem
    rw [hshared] at hmem ⊢
    rcases hrow row hmem with hold | rfl
    · refine (h.settled row hold).imp (fun hcomplete => hcomplete.keep (hextends.keeps _)) fun hid => ?_
      exact hunsettled.mem_iff.mpr (List.mem_cons_of_mem _ hid)
    · exact .inr (hunsettled.mem_iff.mpr List.mem_cons_self)

theorem createBoilerplate_complete {db db' : Database} {row : ProblemRow} (h : db.Stores row [])
    (hdb : db.createBoilerplate row.id row.imported.boilerplate = some db') : db'.Complete row.id := by
  obtain ⟨hextends, rfl⟩ := Database.createBoilerplate_extends hdb
  obtain ⟨found, hfound, hid, himported⟩ := h.present
  refine ⟨found, hfound, hid, ?_, ?_⟩
  · intro case hcase
    rw [himported] at hcase
    exact (h.stored case hcase).resolve_left nofun
  · rw [himported]
    exact List.mem_append_right _ (List.mem_singleton_self _)

theorem Sound.completed (h : Sound c) (hby : importer.StepBy c c' out t g rest) {row : ProblemRow}
    {db : Database} (htaken : t.taken = [.createBoilerplate row])
    (hdb : c.shared.db.createBoilerplate row.id row.imported.boilerplate = some db)
    (hstate : g.state = { c.shared with db := db, returned := c.shared.returned ++ [row.id] })
    (hnext : g.next = []) : Sound c' := by
  have hstores : c.shared.db.Stores row [] :=
    h.consistent (.createBoilerplate row) (hby.mem_of_taken (by rw [htaken]; simp))
  have hcomplete := createBoilerplate_complete hstores hdb
  obtain ⟨hextends, rfl⟩ := Database.createBoilerplate_extends hdb
  have hshared := hby.shared
  rw [hstate] at hshared
  have hbefore : (unsettled c).Perm (row.id :: unsettled c') := by
    have hafter := unsettled_after hby
    have hbefore := unsettled_before hby
    rw [hnext, hstate] at hafter
    rw [htaken] at hbefore
    exact hbefore.trans (hafter.symm.cons _)
  obtain ⟨hfinished, hdistinct⟩ := List.nodup_cons.mp (hbefore.nodup_iff.mp h.distinct)
  constructor
  · rw [hshared]
    exact h.fresh
  · intro entry hentry
    rw [hshared] at hentry ⊢
    rcases List.mem_append.mp hentry with hold | hnew
    · exact h.freshBoilerplates entry hold
    · obtain rfl := List.mem_singleton.mp hnew
      exact (h.unfinished row.id (hbefore.mem_iff.mpr List.mem_cons_self)).used
  · exact hdistinct
  · intro id hid
    have hopen := h.unfinished id (hbefore.mem_iff.mpr (List.mem_cons_of_mem _ hid))
    rw [hshared]
    refine ⟨hopen.used, fun entry hentry => ?_, hopen.kept⟩
    rcases List.mem_append.mp hentry with hold | hnew
    · exact hopen.boilerplate entry hold
    · obtain rfl := List.mem_singleton.mp hnew
      rintro rfl
      exact hfinished hid
  · intro task htask
    rw [hshared]
    rcases hby.mem_after htask with hrest | hnew
    · exact (h.consistent task (hby.mem_of_rest hrest)).keep fun id _ => hextends.keeps id
    · rw [hnext] at hnew
      cases hnew
  · intro found hfound
    rw [hshared] at hfound ⊢
    rcases h.settled found hfound with hold | hid
    · exact .inl (hold.keep (hextends.keeps _))
    · rcases List.mem_cons.mp (hbefore.mem_iff.mp hid) with hid | hid
      · rw [hid]
        exact .inl hcomplete
      · exact .inr hid

theorem Sound.removed (h : Sound c) (hby : importer.StepBy c c' out t g rest) {row : ProblemRow}
    (htaken : t.taken = [.deleteProblem row])
    (hstate : g.state = { c.shared with db := c.shared.db.deleteById row.id })
    (hnext : g.next = []) : Sound c' := by
  have hshared := hby.shared
  rw [hstate] at hshared
  have hafter := unsettled_after hby
  rw [hnext, hstate] at hafter
  have hbefore : (unsettled c).Perm (row.id :: unsettled c') := by
    have hbefore := unsettled_before hby
    rw [htaken] at hbefore
    exact hbefore.trans (hafter.symm.cons _)
  obtain ⟨hgone, hdistinct⟩ := List.nodup_cons.mp (hbefore.nodup_iff.mp h.distinct)
  have hopen := h.unfinished row.id (hbefore.mem_iff.mpr List.mem_cons_self)
  constructor
  · rw [hshared]
    exact fun found hfound => h.fresh found (List.mem_filter.mp hfound).1
  · rw [hshared]
    exact fun entry hentry => h.freshBoilerplates entry (List.mem_filter.mp hentry).1
  · exact hdistinct
  · intro id hid
    rw [hshared]
    exact (h.unfinished id (hbefore.mem_iff.mpr (List.mem_cons_of_mem _ hid))).deleteById
  · intro task htask
    rw [hshared]
    rcases hby.mem_after htask with hrest | hnew
    · refine (h.consistent task (hby.mem_of_rest hrest)).keep fun id hid => ?_
      refine Database.keeps_deleteById ?_
      rcases hid with hcreating | hcomplete
      · rintro rfl
        refine hgone (hafter.mem_iff.mpr (List.mem_append_right _ (List.mem_append_right _ ?_)))
        exact List.mem_filterMap.mpr ⟨task, hrest, hcreating⟩
      · exact hcomplete.ne_of_open hopen
    · rw [hnext] at hnew
      cases hnew
  · intro found hfound
    rw [hshared] at hfound ⊢
    obtain ⟨hold, hne⟩ := List.mem_filter.mp hfound
    have hne : found.id ≠ row.id := by simpa using hne
    rcases h.settled found hold with hcomplete | hid
    · exact .inl (hcomplete.keep (Database.keeps_deleteById hne))
    · exact .inr (List.mem_of_ne_of_mem hne (hbefore.mem_iff.mp hid))

/-- A run that finds a softly deleted row finds a settled one. -/
theorem Sound.deleted_settled (h : Sound c) {row : ProblemRow} (hrow : row ∈ c.shared.db.problems)
    (hdeleted : row.deleted = true) : row.id ∉ unsettled c := by
  intro hid
  have hkept := (h.unfinished row.id hid).kept row hrow rfl
  rw [hdeleted] at hkept
  cases hkept

theorem sound_step (h : Sound c) (hby : importer.StepBy c c' out t g rest) : Sound c' := by
  cases fire_proceeds hby.fire with
  | rejects hfinds htaken => exact h.of_same hby (unsettled_perm hby rfl htaken.symm) rfl nofun
  | waits task hfinds htaken hcreating hrestores =>
    refine h.of_same hby (unsettled_perm hby rfl ?_) rfl fun task' htask => ?_
    · rw [htaken]
      exact List.filterMap_cons_none hcreating
    · obtain rfl := List.mem_singleton.mp htask
      cases task' with
      | createTestCase => cases hcreating
      | createBoilerplate => cases hcreating
      | restoreProblem existing => exact absurd rfl (hrestores existing)
      | _ => trivial
  | returns row hfinds hrow htaken =>
    exact h.of_same hby (unsettled_perm hby rfl htaken.symm) rfl nofun
  | restores row hfinds hrow hdeleted htaken =>
    refine h.of_same hby (unsettled_perm hby rfl htaken.symm) rfl fun task htask => ?_
    obtain rfl := List.mem_singleton.mp htask
    exact (h.settled row hrow).resolve_right (h.deleted_settled hrow hdeleted)
  | restored row => exact h.restored hby rfl rfl rfl
  | created data db hdb =>
    exact h.created hby rfl hdb (storeNext_state _ _ _) (storeNext_next _ _ _ _)
  | stored row case remaining db hdb =>
    exact h.stored hby rfl hdb (storeNext_state _ _ _) (storeNext_next _ _ _ _)
  | completed row db hdb => exact h.completed hby rfl hdb rfl rfl
  | abandoned task o row hcreating =>
    refine h.of_same hby (unsettled_perm hby rfl ?_) rfl fun task' htask => ?_
    · exact (List.filterMap_cons_some hcreating).symm
    · obtain rfl := List.mem_singleton.mp htask
      trivial
  | removed row => exact h.removed hby rfl rfl rfl
  | left row =>
    refine h.of_same hby ((unsettled_after hby).trans ?_) rfl nofun
    refine List.Perm.trans ?_ (unsettled_before hby).symm
    change ((c.shared.leftBehind ++ [row.id]) ++ rest.filterMap ImportTask.creating).Perm _
    rw [List.append_assoc]
    exact List.perm_middle

/-! ## What runs return -/

theorem ReturnedComplete.of_keeps (hcomplete : ReturnedComplete c)
    (hreturned : c'.shared.returned = c.shared.returned)
    (hkeeps : ∀ id, c.shared.db.Complete id → c.shared.db.Keeps c'.shared.db id) :
    ReturnedComplete c' := by
  intro id hid
  rw [hreturned] at hid
  have hbefore := hcomplete id hid
  exact hbefore.keep (hkeeps id hbefore)

theorem ReturnedComplete.concat (hcomplete : ReturnedComplete c) {p : ProblemId}
    (hreturned : c'.shared.returned = c.shared.returned ++ [p])
    (hkeeps : ∀ id, c.shared.db.Complete id → c.shared.db.Keeps c'.shared.db id)
    (hnew : c'.shared.db.Complete p) : ReturnedComplete c' := by
  intro id hid
  rw [hreturned] at hid
  rcases List.mem_append.mp hid with hold | hlast
  · have hbefore := hcomplete id hold
    exact hbefore.keep (hkeeps id hbefore)
  · obtain rfl := List.mem_singleton.mp hlast
    exact hnew

theorem finds_of_creating {s : Importer} {task : ImportTask} {id : ProblemId}
    (h : task.creating = some id) (o : ImportOutcome) : finds s (.task task o) = none := by
  cases task <;> cases h <;> rfl

theorem findsSettled_of_none (h : finds c.shared t = none) : FindsSettled c t := by
  intro row hfound
  rw [h] at hfound
  cases hfound

/-- The step rule: what has been returned stays complete exactly when the segment finds no unsettled
problem. -/
theorem findsSettled_iff (h : Sound c) (hcomplete : ReturnedComplete c)
    (hby : importer.StepBy c c' out t g rest) : FindsSettled c t ↔ ReturnedComplete c' := by
  have hsame : c'.shared.db = c.shared.db → c'.shared.returned = c.shared.returned →
      ReturnedComplete c' := by
    intro hdb hreturned
    refine hcomplete.of_keeps hreturned fun id _ => ?_
    rw [hdb]
    exact Database.keeps_refl _ id
  cases fire_proceeds hby.fire with
  | rejects hfinds htaken =>
    have hshared : c'.shared = c.shared := hby.shared
    exact iff_of_true (findsSettled_of_none hfinds) (hsame (by rw [hshared]) (by rw [hshared]))
  | waits task hfinds htaken hcreating hrestores =>
    have hshared : c'.shared = c.shared := hby.shared
    exact iff_of_true (findsSettled_of_none hfinds) (hsame (by rw [hshared]) (by rw [hshared]))
  | returns row hfinds hrow htaken =>
    have hshared : c'.shared = { c.shared with returned := c.shared.returned ++ [row.id] } := hby.shared
    constructor
    · intro hsettled
      have hfound := (h.settled row hrow).resolve_right (hsettled row hfinds)
      refine hcomplete.concat (by rw [hshared]) (fun id _ => ?_) ?_ <;> rw [hshared]
      · exact Database.keeps_refl _ id
      · exact hfound
    · intro hafter found hfound hid
      obtain rfl := Option.some.inj (hfinds.symm.trans hfound)
      refine (h.unfinished row.id hid).not_complete ?_
      have hreturned := hafter row.id (by rw [hshared]; simp)
      rwa [hshared] at hreturned
  | restores row hfinds hrow hdeleted htaken =>
    have hshared : c'.shared = c.shared := hby.shared
    refine iff_of_true (fun found hfound => ?_) (hsame (by rw [hshared]) (by rw [hshared]))
    obtain rfl := Option.some.inj (hfinds.symm.trans hfound)
    exact h.deleted_settled hrow hdeleted
  | restored row =>
    have hshared : c'.shared = { c.shared with
        db := c.shared.db.restoreById row.id, returned := c.shared.returned ++ [row.id] } := hby.shared
    have hexisting : c.shared.db.Complete row.id :=
      h.consistent (.restoreProblem row) (hby.mem_of_taken (List.mem_singleton_self _))
    refine iff_of_true (findsSettled_of_none rfl)
      (hcomplete.concat (by rw [hshared]) (fun id _ => ?_) ?_) <;> rw [hshared]
    · exact Database.keeps_restoreById _ _ id
    · exact hexisting.keep (Database.keeps_restoreById _ _ _)
  | created data db hdb =>
    have hshared : c'.shared = { c.shared with db := db } := hby.shared.trans (storeNext_state _ _ _)
    refine iff_of_true (findsSettled_of_none rfl) (hcomplete.of_keeps (by rw [hshared]) fun id _ => ?_)
    rw [hshared]
    exact (Database.createProblem_extends hdb).1.keeps id
  | stored row case remaining db hdb =>
    have hshared : c'.shared = { c.shared with db := db } := hby.shared.trans (storeNext_state _ _ _)
    refine iff_of_true (findsSettled_of_none rfl) (hcomplete.of_keeps (by rw [hshared]) fun id _ => ?_)
    rw [hshared]
    exact (Database.createTestCase_extends hdb).1.keeps id
  | completed row db hdb =>
    have hshared : c'.shared = { c.shared with
        db := db, returned := c.shared.returned ++ [row.id] } := hby.shared
    have hstores : c.shared.db.Stores row [] :=
      h.consistent (.createBoilerplate row) (hby.mem_of_taken (List.mem_singleton_self _))
    refine iff_of_true (findsSettled_of_none rfl)
      (hcomplete.concat (by rw [hshared]) (fun id _ => ?_) ?_) <;> rw [hshared]
    · exact (Database.createBoilerplate_extends hdb).1.keeps id
    · exact createBoilerplate_complete hstores hdb
  | abandoned task o row hcreating =>
    have hshared : c'.shared = c.shared := hby.shared
    exact iff_of_true (findsSettled_of_none (finds_of_creating hcreating o))
      (hsame (by rw [hshared]) (by rw [hshared]))
  | removed row =>
    have hshared : c'.shared = { c.shared with db := c.shared.db.deleteById row.id } := hby.shared
    have hopen : c.shared.db.Open row.id :=
      h.unfinished row.id ((unsettled_before hby).mem_iff.mpr List.mem_cons_self)
    refine iff_of_true (findsSettled_of_none rfl) (hcomplete.of_keeps (by rw [hshared]) fun id hid => ?_)
    rw [hshared]
    exact Database.keeps_deleteById (hid.ne_of_open hopen)
  | left row =>
    have hshared : c'.shared = { c.shared with leftBehind := c.shared.leftBehind ++ [row.id] } :=
      hby.shared
    exact iff_of_true (findsSettled_of_none rfl) (hsame (by rw [hshared]) (by rw [hshared]))

end

/-- What imports return is complete and stays so exactly in the runs in which no look-up finds a problem
that another run is still storing or removing, or has failed to remove. -/
theorem imports_isolated_iff (catalogue : Catalogue) {acts : List ImportAct} {c : ImportConf}
    {out : List ImportEffect} (hrun : importer.run catalogue.initial acts = some (c, out)) :
    importer.Always ReturnedComplete catalogue.initial acts ↔
      importer.Meets FindsSettled catalogue.initial acts := by
  have hsound := Machine.meets_of_invariant (M := importer)
    (fun _ _ _ _ _ _ h hby => sound_step h hby) (sound_initial catalogue) acts
  have hstep : ∀ (c c' : ImportConf) out t g rest, ReturnedComplete c → Sound c →
      importer.StepBy c c' out t g rest → (FindsSettled c t ↔ ReturnedComplete c') :=
    fun c c' out t g rest hcomplete hc hby => findsSettled_iff hc hcomplete hby
  have hnothing : ReturnedComplete catalogue.initial := fun _ hid => absurd hid List.not_mem_nil
  exact (Machine.meets_iff_always hstep hnothing hsound hrun).symm

/-- Tables without a problem. -/
def emptyCatalogue : Catalogue where
  problems := []
  testCases := []
  boilerplates := []
  nextId := 0
  complete := nofun
  fresh := nofun
  freshBoilerplates := nofun

def exampleImportData : ImportData where
  slug := js "two-sum"
  canonicalUrl := js "https://leetcode.com/problems/two-sum/"
  parsedExamples := [⟨[(js "n", .null)], .null, true, 0⟩]
  boilerplate := ⟨js "class Solution:", js "twoSum", [js "n"]⟩

/-- A run up to the row of its problem. -/
def startedImport : List ImportAct :=
  [.event (some (exampleImportData.slug, exampleImportData.canonicalUrl)), .resume 0 .executed,
    .resume 0 .executed, .resume 0 (.parsed exampleImportData.parsedExamples exampleImportData.boilerplate),
    .resume 0 .executed]

/-- A second run starts when the first has stored its test case. -/
def secondImport : List ImportAct :=
  [.event (some (exampleImportData.slug, exampleImportData.canonicalUrl)), .resume 1 .executed]

/-- The first run is through when the second finds its problem. -/
def settledImports : List ImportAct :=
  startedImport ++ [.resume 0 .executed, .resume 0 .executed,
    .event (some (exampleImportData.slug, exampleImportData.canonicalUrl)), .resume 0 .executed]

theorem imports_isolated_iff_example : ∃ c out,
    importer.run emptyCatalogue.initial settledImports = some (c, out) ∧
    c.shared.returned = [0, 0] ∧
    (importer.Always ReturnedComplete emptyCatalogue.initial settledImports ↔
      importer.Meets FindsSettled emptyCatalogue.initial settledImports) := by
  obtain ⟨c, out, hrun, hreturned⟩ : ∃ c out,
      importer.run emptyCatalogue.initial settledImports = some (c, out) ∧ c.shared.returned = [0, 0] :=
    ⟨_, _, rfl, rfl⟩
  exact ⟨c, out, hrun, hreturned, imports_isolated_iff emptyCatalogue hrun⟩

/-- The second run returns the problem of the first, whose boilerplate is missing; then the first fails to
store it and removes the problem. -/
def overlappingRuns : List ImportAct :=
  startedImport ++ [.resume 0 .executed] ++ secondImport ++ [.resume 0 .failed, .resume 0 .executed]

theorem removed_problem_returned :
    ¬ importer.Always ReturnedComplete emptyCatalogue.initial overlappingRuns ∧
    ∃ c out, importer.run emptyCatalogue.initial overlappingRuns = some (c, out) ∧
      out.filterMap ImportEffect.returnedId = [0] ∧ c.shared.db.problems = [] := by
  obtain ⟨c, out, hrun, hreturned, hproblems⟩ : ∃ c out,
      importer.run emptyCatalogue.initial overlappingRuns = some (c, out) ∧
        c.shared.returned = [0] ∧ c.shared.db.problems = [] := ⟨_, _, rfl, rfl, rfl⟩
  have hout : out.filterMap ImportEffect.returnedId = [0] := (returned_eq_answers hrun).symm.trans hreturned
  refine ⟨fun halways => ?_, c, out, hrun, hout, hproblems⟩
  obtain ⟨row, hrow, -⟩ := halways.last hrun 0 (by rw [hreturned]; exact List.mem_singleton_self _)
  rw [hproblems] at hrow
  cases hrow

end CodeShare.Scraper
