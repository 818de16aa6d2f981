import CodeShare.Properties.InputRoundTrip
import CodeShare.Services.ImportRun

/-! # A failed import leaves nothing behind

The writes of an import are statements of their own. The problem is created first, and what is stored for it can only
be refused by a fault of the database, since its id is new; deleting it removes exactly what the run has stored.
-/

namespace CodeShare.Scraper
set_option autoImplicit false

variable {α β : Type} {site : Surroundings}

/-! ## Steps of a run -/

theorem bind_ok {m : ImportM α} {f : α → ImportM β} {t t' : Tables} {a : α} (h : m t = (.ok a, t')) :
    (m >>= f) t = f a t' := by
  simp only [bind, h]

theorem bind_error {m : ImportM α} {f : α → ImportM β} {t t' : Tables} {error : Thrown}
    (h : m t = (.error error, t')) : (m >>= f) t = (.error error, t') := by
  simp only [bind, h]

theorem catching_ok {action : ImportM α} {handler : Thrown → ImportM α} {t t' : Tables} {a : α}
    (h : action t = (.ok a, t')) : catching action handler t = (.ok a, t') := by
  rw [catching, h]

theorem catching_error {action : ImportM α} {handler : Thrown → ImportM α} {t t' : Tables} {error : Thrown}
    (h : action t = (.error error, t')) : catching action handler t = handler error t' := by
  rw [catching, h]

section
variable {statement : Statement} {run : Tables → Option (α × Tables)} {t t' : Tables} {a : α}

theorem execute_refused {error : Thrown} (hfault : site.fault statement = some error) :
    execute site statement run t = (.error error, t) := by
  unfold execute
  rw [hfault]

theorem execute_eq (hfault : site.fault statement = none) (hrun : run t = some (a, t')) :
    execute site statement run t = (.ok a, t') := by
  unfold execute
  rw [hfault]
  dsimp only
  rw [hrun]

theorem execute_violation (hfault : site.fault statement = none) (hrun : run t = none) :
    execute site statement run t = (.error (.error site.violation), t) := by
  unfold execute
  rw [hfault]
  dsimp only
  rw [hrun]

end

/-! ## What fails -/

/-- The first write that fails; a difficulty that the table does not know violates its constraint. -/
def writeFailure (site : Surroundings) (question : LeetCodeQuestionData) (cases : List ParsedExample) :
    Option Thrown :=
  (site.fault .createProblem).or
    ((if (problemColumns question).difficulty ∈ Tables.difficulties then none
      else some (.error site.violation)).or
    ((cases.findSome? fun case => site.fault (.createTestCase case.orderIndex)).or
    (site.fault .createBoilerplate)))

/-- What fails first for a problem that is not there: the fetch, the parsing or a write. -/
def newFailure (site : Surroundings) (slug : JsString) : Option Thrown :=
  match fetchQuestionData site.fetchImpl slug with
  | .error error => some error
  | .ok question =>
    match parseImportedProblem site.engine question with
    | .error error => some error
    | .ok parsed => writeFailure site question parsed.parsedExamples

/-- What fails first in a run that finds the given tables. -/
def importFailure (site : Surroundings) (before : Tables) : Option (JsString × JsString) → Option Thrown
  | none => some invalidUrl
  | some (slug, canonicalUrl) =>
    (site.fault .findBySourceUrl).or
      (match before.findBySourceUrlIncludingDeleted canonicalUrl with
      | some existing => if existing.deleted then site.fault .restoreProblem else none
      | none =>
        (site.fault .findBySlug).or
          (match before.findBySlugIncludingDeleted slug with
          | some existing => if existing.deleted then site.fault .restoreProblem else none
          | none => newFailure site slug))

/-! ## A problem that is being stored -/

/-- The tables with a new problem and some of its parts. -/
def storing (before : Tables) (data : ImportData) (columns : ProblemColumns) (cases : List ParsedExample)
    (boilerplates : List BoilerplateData) : Tables where
  problems := before.problems ++ [before.newRow data]
  testCases := before.testCases ++ cases.map fun case => (before.nextId, testCaseColumns case)
  boilerplates := before.boilerplates ++ boilerplates.map fun boilerplate => (before.nextId, boilerplate)
  nextId := before.nextId + 1
  columns := before.columns ++ [(before.nextId, columns)]

section
variable {before : ConsistentTables} {data : ImportData} {columns : ProblemColumns} {cases : List ParsedExample}
  {case : ParsedExample}

theorem createProblem_eq (hnew : before.findBySlugIncludingDeleted data.slug = none)
    (hdifficulty : columns.difficulty ∈ Tables.difficulties) :
    before.toTables.createProblem data columns =
      some (before.newRow data, storing before.toTables data columns [] []) := by
  have hfree : (before.problems.any fun row => row.slug = data.slug) = false := by
    rw [List.any_eq_false]
    exact List.find?_eq_none.mp hnew
  unfold Tables.createProblem Database.createProblem
  rw [if_neg (not_not.mpr hdifficulty), hfree]
  simp [storing, Database.newRow]

theorem storing_problem (boilerplates : List BoilerplateData) :
    ((storing before.toTables data columns cases boilerplates).problems.all (·.id ≠ before.nextId)) = false := by
  simp [storing, Database.newRow]

theorem createTestCase_eq (before : ConsistentTables) (data : ImportData) (columns : ProblemColumns)
    (hnew : ∀ other ∈ cases, other.orderIndex ≠ case.orderIndex) :
    (storing before.toTables data columns cases []).createTestCase before.nextId case =
      some ((), storing before.toTables data columns (cases ++ [case]) []) := by
  have hfree : ((storing before.toTables data columns cases []).testCases.any fun entry =>
      entry.1 = before.nextId ∧ entry.2.orderIndex = case.orderIndex) = false := by
    rw [List.any_eq_false]
    intro entry hentry
    rw [decide_eq_true_eq]
    rintro ⟨hid, hindex⟩
    rcases List.mem_append.mp hentry with hold | hown
    · exact absurd hid (Nat.ne_of_lt (before.freshTestCases entry hold))
    · obtain ⟨other, hother, rfl⟩ := List.mem_map.mp hown
      exact hnew other hother hindex
  unfold Tables.createTestCase Database.createTestCase
  rw [if_neg]
  · simp [storing]
  · rw [storing_problem, hfree]
    simp

theorem createBoilerplate_eq (before : ConsistentTables) (data : ImportData) (columns : ProblemColumns)
    (cases : List ParsedExample) (boilerplate : BoilerplateData) :
    (storing before.toTables data columns cases []).createBoilerplate before.nextId boilerplate =
      some ((), storing before.toTables data columns cases [boilerplate]) := by
  have hfree : ((storing before.toTables data columns cases []).boilerplates.any (·.1 = before.nextId)) = false := by
    rw [List.any_eq_false]
    intro entry hentry
    rw [decide_eq_true_eq]
    have hold : entry ∈ before.boilerplates := by simpa [storing] using hentry
    exact Nat.ne_of_lt (before.freshBoilerplates entry hold)
  unfold Tables.createBoilerplate Database.createBoilerplate
  rw [if_neg]
  · simp [storing]
  · rw [storing_problem, hfree]
    simp

/-- Only the rows of the new problem are removed. -/
theorem filter_other {γ : Type} {l : List γ} {id : γ → ProblemId} {n : ProblemId} (h : ∀ x ∈ l, id x < n) :
    l.filter (fun x => id x ≠ n) = l :=
  List.filter_eq_self.mpr fun x hx => decide_eq_true (Nat.ne_of_lt (h x hx))

theorem deleteById_storing (boilerplates : List BoilerplateData) :
    ((storing before.toTables data columns cases boilerplates).deleteById before.nextId).rows = before.rows := by
  unfold Tables.rows Tables.deleteById Database.deleteById storing
  dsimp only
  rw [List.filter_append, List.filter_append, List.filter_append, List.filter_append,
    filter_other before.freshProblems, filter_other before.freshTestCases, filter_other before.freshBoilerplates,
    filter_other before.freshColumns]
  simp [Database.newRow]

end

/-! ## The parts -/

/-- A failed part: what was thrown, and the tables with which the problem is removed again. -/
def Removable (before : Tables) (data : ImportData) (columns : ProblemColumns) (t : Tables) : Prop :=
  ∃ stored, t = storing before data columns stored []

/-- The loop stores all examples, or throws what the first refused one throws, behind those before. -/
theorem createTestCases_eq (site : Surroundings) (before : ConsistentTables) (data : ImportData)
    (columns : ProblemColumns) {remaining : List ParsedExample} (done : List ParsedExample)
    (hnodup : ((done ++ remaining).map ParsedExample.orderIndex).Nodup) :
    match remaining.findSome? fun case => site.fault (.createTestCase case.orderIndex) with
    | none => createTestCases site (before.newRow data) remaining (storing before.toTables data columns done []) =
        (.ok (), storing before.toTables data columns (done ++ remaining) [])
    | some error => ∃ t, Removable before.toTables data columns t ∧
        createTestCases site (before.newRow data) remaining (storing before.toTables data columns done []) =
          (.error error, t) := by
  induction remaining generalizing done with
  | nil =>
    rw [List.append_nil]
    rfl
  | cons case remaining ih =>
    have hnew : ∀ other ∈ done, other.orderIndex ≠ case.orderIndex := by
      intro other hother
      rw [List.map_append, List.map_cons] at hnodup
      exact (List.nodup_append.mp hnodup).2.2 _ (List.mem_map_of_mem hother) _ List.mem_cons_self
    have hregroup : done ++ case :: remaining = (done ++ [case]) ++ remaining := by simp
    rw [List.findSome?_cons]
    simp only [createTestCases]
    cases hfault : site.fault (.createTestCase case.orderIndex) with
    | some error => exact ⟨_, ⟨done, rfl⟩, bind_error (execute_refused hfault)⟩
    | none =>
      have hstep : execute site (.createTestCase case.orderIndex)
          (fun t => t.createTestCase (before.newRow data).id case) (storing before.toTables data columns done []) =
          (.ok (), storing before.toTables data columns (done ++ [case]) []) :=
        execute_eq hfault (createTestCase_eq before data columns hnew)
      rw [bind_ok hstep, hregroup]
      exact ih (done ++ [case]) (hregroup ▸ hnodup)

/-- The writes behind the problem. -/
def storeParts (site : Surroundings) (created : ProblemRow) (data : ImportData) : ImportM ProblemRow := do
  createTestCases site created data.parsedExamples
  execute site .createBoilerplate fun t => t.createBoilerplate created.id data.boilerplate
  pure created

theorem storeParts_eq (site : Surroundings) (before : ConsistentTables) (data : ImportData) (columns : ProblemColumns)
    (hnodup : (data.parsedExamples.map ParsedExample.orderIndex).Nodup) :
    match (data.parsedExamples.findSome? fun case => site.fault (.createTestCase case.orderIndex)).or
      (site.fault .createBoilerplate) with
    | none => storeParts site (before.newRow data) data (storing before.toTables data columns [] []) =
        (.ok (before.newRow data),
          storing before.toTables data columns data.parsedExamples [data.boilerplate])
    | some error => ∃ t, Removable before.toTables data columns t ∧
        storeParts site (before.newRow data) data (storing before.toTables data columns [] []) = (.error error, t) := by
  have hcases := createTestCases_eq site before data columns [] hnodup
  cases hfault : data.parsedExamples.findSome? fun case => site.fault (.createTestCase case.orderIndex) with
  | some error =>
    rw [hfault] at hcases
    obtain ⟨t, hremovable, hthrown⟩ := hcases
    exact ⟨t, hremovable, bind_error hthrown⟩
  | none =>
    rw [hfault] at hcases
    simp only [Option.none_or, storeParts]
    rw [bind_ok hcases, List.nil_append]
    cases hboilerplate : site.fault .createBoilerplate with
    | some error => exact ⟨_, ⟨data.parsedExamples, rfl⟩, bind_error (execute_refused hboilerplate)⟩
    | none =>
      have hadded := createBoilerplate_eq before data columns data.parsedExamples data.boilerplate
      exact bind_ok (execute_eq hboilerplate hadded)

/-! ## The whole run -/

/-- Nothing was stored, and the run is rejected with what has failed. -/
def Undone (before : Tables) (error : Thrown) (run : Except Thrown ProblemRow × Tables) : Prop :=
  run.1 = .error error ∧ run.2.rows = before.rows

theorem Undone.of_eq {before t : Tables} {run : Except Thrown ProblemRow × Tables} {error : Thrown}
    (hrun : run = (.error error, t)) (hrows : t.rows = before.rows) : Undone before error run := by
  subst hrun
  exact ⟨rfl, hrows⟩

theorem persistImportedProblem_eq (hdelete : site.fault .deleteProblem = none) (before : ConsistentTables)
    {data : ImportData} (question : LeetCodeQuestionData)
    (hnew : before.findBySlugIncludingDeleted data.slug = none)
    (hnodup : (data.parsedExamples.map ParsedExample.orderIndex).Nodup) :
    match writeFailure site question data.parsedExamples with
    | none => persistImportedProblem site data question before.toTables =
        (.ok (before.newRow data),
          storing before.toTables data (problemColumns question) data.parsedExamples [data.boilerplate])
    | some error =>
      Undone before.toTables error (persistImportedProblem site data question before.toTables) := by
  unfold writeFailure persistImportedProblem
  cases hfault : site.fault .createProblem with
  | some error => exact Undone.of_eq (bind_error (execute_refused hfault)) rfl
  | none =>
    rw [Option.none_or]
    by_cases hdifficulty : (problemColumns question).difficulty ∈ Tables.difficulties
    · rw [if_pos hdifficulty, Option.none_or,
        bind_ok (execute_eq hfault (createProblem_eq hnew hdifficulty))]
      have hparts := storeParts_eq site before data (problemColumns question) hnodup
      split
      · rename_i hnone
        rw [hnone] at hparts
        exact catching_ok hparts
      · rename_i error hsome
        rw [hsome] at hparts
        obtain ⟨t, ⟨stored, rfl⟩, hthrown⟩ := hparts
        have hdeleted : execute site .deleteProblem (fun t => some ((), t.deleteById (before.newRow data).id))
            (storing before.toTables data (problemColumns question) stored []) = (.ok (), _) :=
          execute_eq hdelete rfl
        have hcaught : catching (storeParts site (before.newRow data) data) (fun error => do
            execute site .deleteProblem fun t => some ((), t.deleteById (before.newRow data).id)
            raise error) (storing before.toTables data (problemColumns question) [] []) = _ :=
          (catching_error hthrown).trans (bind_ok hdeleted)
        exact Undone.of_eq hcaught (deleteById_storing [])
    · rw [if_neg hdifficulty, Option.some_or]
      have hviolates : before.toTables.createProblem data (problemColumns question) = none := if_pos hdifficulty
      exact Undone.of_eq (bind_error (execute_violation hfault hviolates)) rfl

/-! ### What was parsed -/

theorem exists_of_bind {ε : Type} {action : Except ε α} {f : α → Except ε β} {b : β} (h : (action >>= f) = .ok b) :
    ∃ a, action = .ok a ∧ f a = .ok b := by
  cases action with
  | error error => cases h
  | ok a => exact ⟨a, rfl, h⟩

/-- Wrapping changes errors only. -/
theorem wrapped_ok {action : Except JsString α} {operation : JsString} {a : α}
    (h : wrapLeetCodeParse (throwsText action) operation = .ok a) : action = .ok a := by
  cases action with
  | error message => cases h
  | ok a' =>
    obtain rfl := Except.ok.inj h
    rfl

theorem orderIndex_buildParsedExamples {parse : JsString → Except JsString ParsedJson} {number : JsString → ParsedJson}
    {blocks : List ExampleBlock} {names : List JsString} {parsed : List ParsedExample}
    (h : buildParsedExamples parse number blocks names = .ok parsed) :
    parsed.map ParsedExample.orderIndex = List.range blocks.length := by
  have hindex : ∀ (entry : ExampleBlock × ℕ) (example' : ParsedExample),
      parseExample parse number names entry.1 entry.2 = .ok example' → example'.orderIndex = entry.2 := by
    intro entry example' hparsed
    unfold parseExample at hparsed
    split at hparsed
    · cases hparsed
    · split at hparsed
      · cases hparsed
      · obtain rfl := Except.ok.inj hparsed
        rfl
  rw [map_eq_of_mapM hindex h, List.zipIdx_map_snd, List.range_eq_range']

/-- The parsed examples of a question: at most three, with their order indexes in order. -/
theorem parseImportedProblem_examples {E : JsEngine} {question : LeetCodeQuestionData} {parsed : ParsedProblem}
    (h : parseImportedProblem E question = .ok parsed) :
    parsed.parsedExamples.length ≤ 3 ∧
      parsed.parsedExamples.map ParsedExample.orderIndex = List.range parsed.parsedExamples.length := by
  obtain ⟨blocks, names, hlength, hbuilt⟩ : ∃ blocks names, blocks.length ≤ 3 ∧
      buildParsedExamples (jsonParse E) E.number blocks names = .ok parsed.parsedExamples := by
    unfold parseImportedProblem at h
    obtain ⟨⟨methodName, parameterNames⟩, -, h⟩ := exists_of_bind h
    obtain ⟨boilerplate, -, h⟩ := exists_of_bind h
    obtain ⟨blocks, hblocks, h⟩ := exists_of_bind h
    split_ifs at h
    obtain ⟨examples, hexamples, h⟩ := exists_of_bind h
    obtain rfl := Except.ok.inj h
    refine ⟨blocks, parameterNames, ?_, wrapped_ok hexamples⟩
    have htaken := wrapped_ok hblocks
    cases hall : extractExampleBlocks question.content with
    | error message =>
      rw [hall] at htaken
      cases htaken
    | ok all =>
      rw [hall] at htaken
      obtain rfl := Except.ok.inj htaken
      exact List.length_take_le 3 all
  have hindexes := orderIndex_buildParsedExamples hbuilt
  have hsame : parsed.parsedExamples.length = blocks.length := by
    rw [← List.length_map ParsedExample.orderIndex, hindexes, List.length_range]
  exact ⟨hsame ▸ hlength, hsame ▸ hindexes⟩

/-- What an import has stored: the parsed examples and one boilerplate, for the new problem. -/
structure Stored (site : Surroundings) (before : Tables) (slug canonicalUrl : JsString) (row : ProblemRow)
    (after : Tables) : Prop where
  parsed : ∃ question parsed, fetchQuestionData site.fetchImpl slug = .ok question ∧
    parseImportedProblem site.engine question = .ok parsed ∧ parsed.parsedExamples.length ≤ 3 ∧
    parsed.parsedExamples.map ParsedExample.orderIndex = List.range parsed.parsedExamples.length ∧
    row = before.newRow (importData slug canonicalUrl parsed) ∧
    after.rows = (before.problems ++ [row],
      before.testCases ++ parsed.parsedExamples.map fun case => (row.id, testCaseColumns case),
      before.boilerplates ++ [(row.id, ⟨parsed.boilerplate, parsed.methodName, parsed.parameterNames⟩)],
      before.columns ++ [(row.id, problemColumns question)])

/-- The problem was there already; at most it is no longer deleted. -/
def Found (before : Tables) (slug canonicalUrl : JsString) (row : ProblemRow) (after : Tables) : Prop :=
  (before.findBySourceUrlIncludingDeleted canonicalUrl).or (before.findBySlugIncludingDeleted slug) = some row ∧
    after = if row.deleted then before.restoreById row.id else before

/-- A run that returns a problem: one that was there, or else the new one. -/
def Finished (site : Surroundings) (before : Tables) (normalized : Option (JsString × JsString))
    (run : Except Thrown ProblemRow × Tables) : Prop :=
  ∃ slug canonicalUrl row, normalized = some (slug, canonicalUrl) ∧ run.1 = .ok row ∧
    (Found before slug canonicalUrl row run.2 ∨
      (before.findBySourceUrlIncludingDeleted canonicalUrl = none ∧ before.findBySlugIncludingDeleted slug = none ∧
        Stored site before slug canonicalUrl row run.2))

/-- What a run comes to, by what fails in it. -/
def Settles (site : Surroundings) (before : Tables) (normalized : Option (JsString × JsString))
    (failure : Option Thrown) (run : Except Thrown ProblemRow × Tables) : Prop :=
  match failure with
  | some error => Undone before error run
  | none => Finished site before normalized run

section
variable {slug canonicalUrl : JsString}

/-- A problem that was there is restored if it has to be. -/
theorem returnExisting_settles (before : Tables) {existing : ProblemRow}
    (hfound : (before.findBySourceUrlIncludingDeleted canonicalUrl).or
      (before.findBySlugIncludingDeleted slug) = some existing) :
    Settles site before (some (slug, canonicalUrl))
      (if existing.deleted then site.fault .restoreProblem else none)
      ((restoreFound site existing >>= fun _ => pure existing) before) := by
  unfold restoreFound
  by_cases hdeleted : existing.deleted = true
  · rw [if_pos hdeleted, if_pos hdeleted]
    cases hfault : site.fault .restoreProblem with
    | some error => exact Undone.of_eq (bind_error (execute_refused hfault)) rfl
    | none =>
      have hrestored : execute site .restoreProblem (fun t => some ((), t.restoreById existing.id)) before =
          (.ok (), before.restoreById existing.id) := execute_eq hfault rfl
      rw [bind_ok hrestored]
      exact ⟨slug, canonicalUrl, existing, rfl, rfl, Or.inl ⟨hfound, (if_pos hdeleted).symm⟩⟩
  · rw [if_neg hdeleted, if_neg hdeleted]
    exact ⟨slug, canonicalUrl, existing, rfl, rfl, Or.inl ⟨hfound, (if_neg hdeleted).symm⟩⟩

/-- The part of a run behind a look-up that finds nothing. -/
def importNew (site : Surroundings) (slug canonicalUrl : JsString) : ImportM ProblemRow := do
  let question ← attempt (fetchQuestionData site.fetchImpl slug)
  let parsed ← attempt (parseImportedProblem site.engine question)
  persistImportedProblem site (importData slug canonicalUrl parsed) question

theorem importNew_settles (hdelete : site.fault .deleteProblem = none) (before : ConsistentTables)
    (hbyUrl : before.findBySourceUrlIncludingDeleted canonicalUrl = none)
    (hbySlug : before.findBySlugIncludingDeleted slug = none) :
    Settles site before.toTables (some (slug, canonicalUrl)) (newFailure site slug)
      (importNew site slug canonicalUrl before.toTables) := by
  unfold newFailure importNew
  cases hfetch : fetchQuestionData site.fetchImpl slug with
  | error error => exact ⟨rfl, rfl⟩
  | ok question =>
    have hfetched : attempt (.ok question) before.toTables = (.ok question, before.toTables) := rfl
    rw [bind_ok hfetched]
    dsimp only
    cases hparse : parseImportedProblem site.engine question with
    | error error => exact ⟨rfl, rfl⟩
    | ok parsed =>
      have hparsed : attempt (.ok parsed) before.toTables = (.ok parsed, before.toTables) := rfl
      rw [bind_ok hparsed]
      obtain ⟨hlength, hindexes⟩ := parseImportedProblem_examples hparse
      have hnodup : ((importData slug canonicalUrl parsed).parsedExamples.map ParsedExample.orderIndex).Nodup := by
        show (parsed.parsedExamples.map ParsedExample.orderIndex).Nodup
        rw [hindexes]
        exact List.nodup_range
      have hpersisted := persistImportedProblem_eq hdelete before question hbySlug hnodup
      change match writeFailure site question parsed.parsedExamples with | none => _ | some error => _ at hpersisted
      dsimp only
      cases hfailure : writeFailure site question parsed.parsedExamples with
      | some error =>
        rw [hfailure] at hpersisted
        exact hpersisted
      | none =>
        rw [hfailure] at hpersisted
        dsimp only at hpersisted
        rw [hpersisted]
        refine ⟨slug, canonicalUrl, _, rfl, rfl, Or.inr ⟨hbyUrl, hbySlug, ⟨question, parsed, hfetch, hparse, hlength,
          hindexes, rfl, ?_⟩⟩⟩
        simp [Tables.rows, storing, Database.newRow, importData]

/-- The look-ups change nothing, and the one by the slug is made only when the other finds nothing. -/
theorem findExistingProblem_eq (before : Tables) :
    findExistingProblem site canonicalUrl slug before =
      (match site.fault .findBySourceUrl, before.findBySourceUrlIncludingDeleted canonicalUrl with
        | some error, _ => .error error
        | none, some existing => .ok (some existing)
        | none, none =>
          match site.fault .findBySlug with
          | some error => .error error
          | none => .ok (before.findBySlugIncludingDeleted slug), before) := by
  unfold findExistingProblem
  cases hfault : site.fault .findBySourceUrl with
  | some error => exact bind_error (execute_refused hfault)
  | none =>
    have hlookup : execute site .findBySourceUrl
        (fun t => some (t.findBySourceUrlIncludingDeleted canonicalUrl, t)) before =
        (.ok (before.findBySourceUrlIncludingDeleted canonicalUrl), before) := execute_eq hfault rfl
    rw [bind_ok hlookup]
    cases before.findBySourceUrlIncludingDeleted canonicalUrl with
    | some existing => rfl
    | none =>
      cases hfault' : site.fault .findBySlug with
      | some error => exact execute_refused hfault'
      | none => exact execute_eq hfault' rfl

theorem runImport_settles (hdelete : site.fault .deleteProblem = none) (before : ConsistentTables)
    (normalized : Option (JsString × JsString)) :
    Settles site before.toTables normalized (importFailure site before.toTables normalized)
      (runImport site normalized before.toTables) := by
  cases normalized with
  | none => exact ⟨rfl, rfl⟩
  | some parts =>
    obtain ⟨slug, canonicalUrl⟩ := parts
    have hrun : runImport site (some (slug, canonicalUrl)) before.toTables =
        (findExistingProblem site canonicalUrl slug >>= fun existing =>
          match existing with
          | some existing => do
            restoreFound site existing
            pure existing
          | none => importNew site slug canonicalUrl) before.toTables := rfl
    have hfind := @findExistingProblem_eq site slug canonicalUrl before.toTables
    rw [hrun, importFailure]
    cases hfault : site.fault .findBySourceUrl with
    | some error =>
      rw [hfault] at hfind
      exact Undone.of_eq (bind_error hfind) rfl
    | none =>
      rw [Option.none_or]
      cases hbyUrl : before.findBySourceUrlIncludingDeleted canonicalUrl with
      | some existing =>
        rw [hfault, hbyUrl] at hfind
        rw [bind_ok hfind]
        exact returnExisting_settles before.toTables (by rw [hbyUrl, Option.some_or])
      | none =>
        cases hfault' : site.fault .findBySlug with
        | some error =>
          rw [hfault, hbyUrl, hfault'] at hfind
          exact Undone.of_eq (bind_error hfind) rfl
        | none =>
          rw [hfault, hbyUrl, hfault'] at hfind
          rw [bind_ok hfind]
          dsimp only
          rw [Option.none_or]
          cases hbySlug : before.findBySlugIncludingDeleted slug with
          | some existing => exact returnExisting_settles before.toTables (by rw [hbyUrl, hbySlug, Option.none_or])
          | none => exact importNew_settles hdelete before hbyUrl hbySlug

end

/-- **An import stores everything or nothing.** When something fails, the run is rejected with what failed first
and all rows are as before; when nothing does, it returns a problem that was there or stores the new one. -/
theorem import_atomic (site : Surroundings) (hdelete : site.fault .deleteProblem = none) (before : ConsistentTables)
    (normalized : Option (JsString × JsString)) :
    let run := runImport site normalized before.toTables
    (∀ error, importFailure site before.toTables normalized = some error →
      run.1 = .error error ∧ run.2.rows = before.rows) ∧
      (importFailure site before.toTables normalized = none → Finished site before.toTables normalized run) := by
  have hsettles := runImport_settles hdelete before normalized
  dsimp only
  refine ⟨fun error herror => ?_, fun hnone => ?_⟩
  · rw [herror] at hsettles
    exact hsettles
  · rw [hnone] at hsettles
    exact hsettles

/-- The input of the second example is read as an infinity. -/
def exampleQuestion : LeetCodeQuestionData where
  title := js "Two Sum"
  difficulty := js "Easy"
  categoryTitle := some (js "Algorithms")
  content := js "<pre>Input: n = 1 Output: 2</pre><pre>Input: n = " ++ List.replicate 310 57 ++ js " Output: 4</pre>"
  metaData := js "\x7b\"name\":\"f\",\"params\":[\x7b\"name\":\"n\"\x7d]\x7d"
  codeSnippets := [⟨js "python3", js "class Solution:"⟩]

def exampleSurroundings (fault : Statement → Option Thrown) : Surroundings where
  engine := exampleEngine
  fetchImpl _ := .response true 200 (.ok (some exampleQuestion))
  fault := fault
  violation := js "violates a constraint"

/-- The second test case is refused. -/
def secondRefused : Statement → Option Thrown
  | .createTestCase 1 => some (.error (js "insert test case failed"))
  | _ => none

def exampleUrl : Option (JsString × JsString) :=
  some (js "two-sum", js "https://leetcode.com/problems/two-sum/")

theorem forall_noProblem : ∀ row ∈ ([] : List ProblemRow), row.id < 0 := List.forall_mem_nil _

theorem forall_noBoilerplate : ∀ entry ∈ ([] : List (ProblemId × BoilerplateData)), entry.1 < 0 := List.forall_mem_nil _

def exampleTables : ConsistentTables where
  problems := []
  testCases := []
  boilerplates := []
  nextId := 0
  columns := []
  freshProblems := forall_noProblem
  freshTestCases := List.forall_mem_nil _
  freshBoilerplates := forall_noBoilerplate
  freshColumns := List.forall_mem_nil _

def exampleImport (fault : Statement → Option Thrown) : Except Thrown ProblemRow × Tables :=
  runImport (exampleSurroundings fault) exampleUrl exampleTables.toTables

/-- The run with the refused test case leaves nothing, and the same run without it stores both. -/
theorem import_atomic_example :
    (exampleImport secondRefused).1 = .error (.error (js "insert test case failed")) ∧
    (exampleImport secondRefused).2.rows = exampleTables.rows ∧
    Finished (exampleSurroundings fun _ => none) exampleTables.toTables exampleUrl (exampleImport fun _ => none) ∧
    (exampleImport fun _ => none).2.testCases.map
        (fun entry => (entry.1, entry.2.input, entry.2.expectedOutput, entry.2.orderIndex)) =
      [(0, js "\x7b\"n\":1\x7d", js "2", 0), (0, js "\x7b\"n\":null\x7d", js "4", 1)] := by
  have hfails : importFailure (exampleSurroundings secondRefused) exampleTables.toTables exampleUrl =
      some (.error (js "insert test case failed")) := by decide +kernel
  have hnothing : importFailure (exampleSurroundings fun _ => none) exampleTables.toTables exampleUrl = none := by
    decide +kernel
  obtain ⟨hrejected, hrows⟩ :=
    (import_atomic (exampleSurroundings secondRefused) rfl exampleTables exampleUrl).1 _ hfails
  refine ⟨hrejected, hrows, ?_, by decide +kernel⟩
  exact (import_atomic (exampleSurroundings fun _ => none) rfl exampleTables exampleUrl).2 hnothing

end CodeShare.Scraper
