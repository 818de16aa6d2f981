import CodeShare.Foundations.Tasks
import CodeShare.Room.Types
import CodeShare.Services.Parsers

/-! # Importing a problem

`importFromUrl` of `ScraperService.ts` against the tables it writes. Every repository call is a statement
of its own, which may fail; a run goes on with what the statement has returned, and between two
statements of a run any others may be executed.
-/

namespace CodeShare.Scraper
open Tasks
set_option autoImplicit false

/-! ## The tables -/

structure BoilerplateData where
  template : JsString
  methodName : JsString
  parameterNames : List JsString

/-- What `persistImportedProblem` is to store. -/
structure ImportData where
  slug : JsString
  canonicalUrl : JsString
  parsedExamples : List ParsedExample
  boilerplate : BoilerplateData

/-- A row of `problems`. What its creator has parsed is no column. -/
structure ProblemRow where
  id : ProblemId
  slug : JsString
  sourceUrl : Option JsString
  deleted : Bool
  imported : ImportData

/-- The columns of a test case; those of JSONB are given by the text that they were written with. -/
structure TestCaseColumns where
  input : JsString
  expectedOutput : JsString
  isVisible : Bool
  orderIndex : ℕ

/-- What `testCaseRepository.create` writes. -/
def testCaseColumns (case : ParsedExample) : TestCaseColumns where
  input := (ParsedJson.obj case.input).stringify
  expectedOutput := case.expectedOutput.stringify
  isVisible := case.isVisible
  orderIndex := case.orderIndex

structure Database where
  problems : List ProblemRow
  testCases : List (ProblemId × TestCaseColumns)
  boilerplates : List (ProblemId × BoilerplateData)
  nextId : ProblemId

namespace Database
variable (db : Database)

def findBySourceUrlIncludingDeleted (url : JsString) : Option ProblemRow :=
  db.problems.find? fun row => row.sourceUrl = some url

def findBySlugIncludingDeleted (slug : JsString) : Option ProblemRow :=
  db.problems.find? fun row => row.slug = slug

def restoreById (id : ProblemId) : Database :=
  { db with problems := db.problems.map fun row => if row.id = id then { row with deleted := false } else row }

/-- The row of an imported problem. -/
def newRow (data : ImportData) : ProblemRow := ⟨db.nextId, data.slug, some data.canonicalUrl, false, data⟩

/-- The slug is unique. -/
def createProblem (data : ImportData) : Option Database :=
  if db.problems.any fun row => row.slug = data.slug then none
  else some { db with problems := db.problems ++ [db.newRow data], nextId := db.nextId + 1 }

/-- The problem must be there, and its order indexes are unique. -/
def createTestCase (id : ProblemId) (case : ParsedExample) : Option Database :=
  if db.problems.all (·.id ≠ id) ∨ db.testCases.any fun entry =>
      entry.1 = id ∧ entry.2.orderIndex = case.orderIndex then none
  else some { db with testCases := db.testCases ++ [(id, testCaseColumns case)] }

/-- There is one language. -/
def createBoilerplate (id : ProblemId) (boilerplate : BoilerplateData) : Option Database :=
  if db.problems.all (·.id ≠ id) ∨ db.boilerplates.any (·.1 = id) then none
  else some { db with boilerplates := db.boilerplates ++ [(id, boilerplate)] }

/-- Deleting cascades. -/
def deleteById (id : ProblemId) : Database :=
  { db with
    problems := db.problems.filter (·.id ≠ id)
    testCases := db.testCases.filter (·.1 ≠ id)
    boilerplates := db.boilerplates.filter (·.1 ≠ id) }

/-- All that the creator of the problem has parsed is stored. -/
def Complete (id : ProblemId) : Prop :=
  ∃ row ∈ db.problems, row.id = id ∧ (∀ case ∈ row.imported.parsedExamples, (id, testCaseColumns case) ∈ db.testCases) ∧
    (id, row.imported.boilerplate) ∈ db.boilerplates

end Database

/-! ## Runs -/

/-- The tables, the problems that runs have returned, and those that a run has failed to remove. -/
structure Importer where
  db : Database
  returned : List ProblemId
  leftBehind : List ProblemId

/-- What a run waits for. -/
inductive ImportTask where
  | findBySourceUrl (slug canonicalUrl : JsString)
  | findBySlug (slug canonicalUrl : JsString)
  | restoreProblem (existing : ProblemRow)
  | fetchQuestionData (slug canonicalUrl : JsString)
  | createProblem (data : ImportData)
  | createTestCase (created : ProblemRow) (case : ParsedExample) (remaining : List ParsedExample)
  | createBoilerplate (created : ProblemRow)
  | deleteProblem (created : ProblemRow)

/-- A statement succeeds or fails; the page of a problem is fetched and parsed, or one of the two fails. -/
inductive ImportOutcome where
  | executed
  | parsed (parsedExamples : List ParsedExample) (boilerplate : BoilerplateData)
  | failed

inductive ImportEffect where
  | returned (problem : ProblemRow)
  | rejected

abbrev ImportStep := Segment Importer ImportTask ImportEffect

def returnProblem (s : Importer) (problem : ProblemRow) : ImportStep :=
  (Segment.of { s with returned := s.returned ++ [problem.id] }).emit (.returned problem)

def reject (s : Importer) : ImportStep := (Segment.of s).emit .rejected

/-- A URL without a slug is rejected. -/
def importFromUrl (s : Importer) : Option (JsString × JsString) → Option ImportStep
  | none => some (reject s)
  | some (slug, canonicalUrl) => some ((Segment.of s).suspend (.findBySourceUrl slug canonicalUrl))

def restoreDeletedProblem (s : Importer) (existing : ProblemRow) : ImportStep :=
  if existing.deleted then (Segment.of s).suspend (.restoreProblem existing)
  else returnProblem s existing

def afterFindBySourceUrl (s : Importer) (slug canonicalUrl : JsString) :
    ImportOutcome → Option ImportStep
  | .executed =>
    match s.db.findBySourceUrlIncludingDeleted canonicalUrl with
    | some existing => some (restoreDeletedProblem s existing)
    | none => some ((Segment.of s).suspend (.findBySlug slug canonicalUrl))
  | .failed => some (reject s)
  | .parsed _ _ => none

def afterFindBySlug (s : Importer) (slug canonicalUrl : JsString) : ImportOutcome → Option ImportStep
  | .executed =>
    match s.db.findBySlugIncludingDeleted slug with
    | some existing => some (restoreDeletedProblem s existing)
    | none => some ((Segment.of s).suspend (.fetchQuestionData slug canonicalUrl))
  | .failed => some (reject s)
  | .parsed _ _ => none

def afterRestoreProblem (s : Importer) (existing : ProblemRow) : ImportOutcome → Option ImportStep
  | .executed => some (returnProblem { s with db := s.db.restoreById existing.id } existing)
  | .failed => some (reject s)
  | .parsed _ _ => none

def afterFetchQuestionData (s : Importer) (slug canonicalUrl : JsString) :
    ImportOutcome → Option ImportStep
  | .parsed parsedExamples boilerplate =>
    some ((Segment.of s).suspend (.createProblem ⟨slug, canonicalUrl, parsedExamples, boilerplate⟩))
  | .failed => some (reject s)
  | .executed => none

/-- The loop over the parsed examples, and the boilerplate behind it. -/
def storeNext (s : Importer) (created : ProblemRow) : List ParsedExample → ImportStep
  | case :: remaining => (Segment.of s).suspend (.createTestCase created case remaining)
  | [] => (Segment.of s).suspend (.createBoilerplate created)

def afterCreateProblem (s : Importer) (data : ImportData) : ImportOutcome → Option ImportStep
  | .executed =>
    match s.db.createProblem data with
    | some db => some (storeNext { s with db := db } (s.db.newRow data) data.parsedExamples)
    | none => some (reject s)
  | .failed => some (reject s)
  | .parsed _ _ => none

/-- The `catch` of `persistImportedProblem` with a problem that has been created. -/
def abandon (s : Importer) (created : ProblemRow) : ImportStep :=
  (Segment.of s).suspend (.deleteProblem created)

def afterCreateTestCase (s : Importer) (created : ProblemRow) (case : ParsedExample)
    (remaining : List ParsedExample) : ImportOutcome → Option ImportStep
  | .executed =>
    match s.db.createTestCase created.id case with
    | some db => some (storeNext { s with db := db } created remaining)
    | none => some (abandon s created)
  | .failed => some (abandon s created)
  | .parsed _ _ => none

def afterCreateBoilerplate (s : Importer) (created : ProblemRow) : ImportOutcome → Option ImportStep
  | .executed =>
    match s.db.createBoilerplate created.id created.imported.boilerplate with
    | some db => some (returnProblem { s with db := db } created)
    | none => some (abandon s created)
  | .failed => some (abandon s created)
  | .parsed _ _ => none

/-- The run is rejected in both cases. -/
def afterDeleteProblem (s : Importer) (created : ProblemRow) : ImportOutcome → Option ImportStep
  | .executed => some (reject { s with db := s.db.deleteById created.id })
  | .failed => some (reject { s with leftBehind := s.leftBehind ++ [created.id] })
  | .parsed _ _ => none

/-- The imports of a server. -/
def importer : Machine Importer ImportTask (Option (JsString × JsString)) ImportOutcome ImportEffect where
  handle := importFromUrl
  resume s
    | .findBySourceUrl slug canonicalUrl, o => afterFindBySourceUrl s slug canonicalUrl o
    | .findBySlug slug canonicalUrl, o => afterFindBySlug s slug canonicalUrl o
    | .restoreProblem existing, o => afterRestoreProblem s existing o
    | .fetchQuestionData slug canonicalUrl, o => afterFetchQuestionData s slug canonicalUrl o
    | .createProblem data, o => afterCreateProblem s data o
    | .createTestCase created case remaining, o => afterCreateTestCase s created case remaining o
    | .createBoilerplate created, o => afterCreateBoilerplate s created o
    | .deleteProblem created, o => afterDeleteProblem s created o

abbrev ImportConf := Conf Importer ImportTask
abbrev ImportAct := Act (Option (JsString × JsString)) ImportOutcome
abbrev ImportTrigger := Trigger (Option (JsString × JsString)) ImportTask ImportOutcome

/-- Tables in which every problem is complete. -/
structure Catalogue extends Database where
  complete : ∀ row ∈ problems, toDatabase.Complete row.id
  fresh : ∀ row ∈ problems, row.id < nextId
  freshBoilerplates : ∀ entry ∈ boilerplates, entry.1 < nextId

/-- Before the first import. -/
def Catalogue.initial (catalogue : Catalogue) : ImportConf := ⟨⟨catalogue.toDatabase, [], []⟩, []⟩

end CodeShare.Scraper
