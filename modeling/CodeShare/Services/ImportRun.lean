import CodeShare.Services.QuestionData
import CodeShare.Services.ScraperService

/-! # One import

`importFromUrl` as a single run that nothing interferes with. The fetch, the parsing and every statement may throw,
and `persistImportedProblem` removes the problem again when a later write throws.
-/

namespace CodeShare.Scraper
set_option autoImplicit false

/-! ## The tables -/

/-- The columns of a problem that an import fills. -/
structure ProblemColumns where
  title : JsString
  difficulty : JsString
  category : JsString
  description : JsString
  constraints : List JsString
  solution : Option JsString
  timeLimitMs : ℕ
  source : JsString

structure Tables extends Database where
  columns : List (ProblemId × ProblemColumns)

namespace Tables

/-- All rows; the next id is none of them. -/
def rows (t : Tables) :
    List ProblemRow × List (ProblemId × TestCaseColumns) × List (ProblemId × BoilerplateData) ×
      List (ProblemId × ProblemColumns) :=
  (t.problems, t.testCases, t.boilerplates, t.columns)

def difficulties : List JsString := [js "easy", js "medium", js "hard"]

/-- The difficulty is checked. -/
def createProblem (t : Tables) (data : ImportData) (columns : ProblemColumns) : Option (ProblemRow × Tables) :=
  if columns.difficulty ∉ difficulties then none
  else (t.toDatabase.createProblem data).map fun db =>
    (t.newRow data, ⟨db, t.columns ++ [((t.newRow data).id, columns)]⟩)

def createTestCase (t : Tables) (id : ProblemId) (case : ParsedExample) : Option (Unit × Tables) :=
  (t.toDatabase.createTestCase id case).map fun db => ((), ⟨db, t.columns⟩)

def createBoilerplate (t : Tables) (id : ProblemId) (boilerplate : BoilerplateData) : Option (Unit × Tables) :=
  (t.toDatabase.createBoilerplate id boilerplate).map fun db => ((), ⟨db, t.columns⟩)

def restoreById (t : Tables) (id : ProblemId) : Tables := ⟨t.toDatabase.restoreById id, t.columns⟩

def deleteById (t : Tables) (id : ProblemId) : Tables :=
  ⟨t.toDatabase.deleteById id, t.columns.filter (·.1 ≠ id)⟩

end Tables

/-- Tables that refer to problems which have got their id. -/
structure ConsistentTables extends Tables where
  freshProblems : ∀ row ∈ problems, row.id < nextId
  freshTestCases : ∀ entry ∈ testCases, entry.1 < nextId
  freshBoilerplates : ∀ entry ∈ boilerplates, entry.1 < nextId
  freshColumns : ∀ entry ∈ columns, entry.1 < nextId

/-! ## Runs -/

inductive Statement where
  | findBySourceUrl
  | findBySlug
  | restoreProblem
  | createProblem
  | createTestCase (orderIndex : ℕ)
  | createBoilerplate
  | deleteProblem

/-- What LeetCode answers, which statements the database refuses, and its words for a violated constraint. -/
structure Surroundings where
  engine : JsEngine
  fetchImpl : JsString → FetchAnswer
  fault : Statement → Option Thrown
  violation : JsString

/-- What a run returns or throws, and the tables it leaves. -/
def ImportM (α : Type) : Type := Tables → Except Thrown α × Tables

instance : Monad ImportM where
  pure a t := (.ok a, t)
  bind m f t :=
    match m t with
    | (.ok a, t) => f a t
    | (.error error, t) => (.error error, t)

/-- A computation that touches no table. -/
def attempt {α : Type} (action : Except Thrown α) : ImportM α := fun t => (action, t)

def raise {α : Type} (error : Thrown) : ImportM α := attempt (.error error)

def catching {α : Type} (action : ImportM α) (handler : Thrown → ImportM α) : ImportM α := fun t =>
  match action t with
  | (.ok a, t) => (.ok a, t)
  | (.error error, t) => handler error t

section
variable (site : Surroundings)

/-- A refused statement changes nothing. -/
def execute {α : Type} (statement : Statement) (run : Tables → Option (α × Tables)) : ImportM α := fun t =>
  match site.fault statement with
  | some error => (.error error, t)
  | none =>
    match run t with
    | some (a, t) => (.ok a, t)
    | none => (.error (.error site.violation), t)

def invalidUrl : Thrown := .error (js "URL must be a valid LeetCode problem URL.")

def normalizeImportUrl (normalized : Option (JsString × JsString)) : Except Thrown (JsString × JsString) :=
  match normalized with
  | some parts => .ok parts
  | none => .error invalidUrl

def findExistingProblem (canonicalUrl slug : JsString) : ImportM (Option ProblemRow) := do
  let byUrl ← execute site .findBySourceUrl fun t => some (t.findBySourceUrlIncludingDeleted canonicalUrl, t)
  match byUrl with
  | some existing => pure (some existing)
  | none => execute site .findBySlug fun t => some (t.findBySlugIncludingDeleted slug, t)

def restoreFound (existing : ProblemRow) : ImportM Unit :=
  if existing.deleted then execute site .restoreProblem fun t => some ((), t.restoreById existing.id) else pure ()

/-- The columns of a new problem; the time limit is `DEFAULT_TIME_LIMIT_MS`. -/
def problemColumns (question : LeetCodeQuestionData) : ProblemColumns where
  title := question.title
  difficulty := question.difficulty.map asciiLower
  category :=
    let trimmed := jsTrim (question.categoryTitle.getD [])
    if trimmed = [] then js "Imported" else trimmed
  description := htmlToProblemText (stripConstraintsSection question.content)
  constraints := extractConstraints question.content
  solution := none
  timeLimitMs := 5000
  source := js "user_submitted"

def importData (slug canonicalUrl : JsString) (parsed : ParsedProblem) : ImportData :=
  ⟨slug, canonicalUrl, parsed.parsedExamples, ⟨parsed.boilerplate, parsed.methodName, parsed.parameterNames⟩⟩

def createTestCases (created : ProblemRow) : List ParsedExample → ImportM Unit
  | [] => pure ()
  | case :: remaining => do
    execute site (.createTestCase case.orderIndex) fun t => t.createTestCase created.id case
    createTestCases created remaining

def persistImportedProblem (data : ImportData) (question : LeetCodeQuestionData) : ImportM ProblemRow := do
  let created ← execute site .createProblem fun t => t.createProblem data (problemColumns question)
  catching
    (do
      createTestCases site created data.parsedExamples
      execute site .createBoilerplate fun t => t.createBoilerplate created.id data.boilerplate
      pure created)
    fun error => do
      execute site .deleteProblem fun t => some ((), t.deleteById created.id)
      raise error

/-- `importFromUrl` of a URL that was taken apart, or is none of a problem. -/
def runImport (normalized : Option (JsString × JsString)) : ImportM ProblemRow := do
  let (slug, canonicalUrl) ← attempt (normalizeImportUrl normalized)
  let existing ← findExistingProblem site canonicalUrl slug
  match existing with
  | some existing => do
    restoreFound site existing
    pure existing
  | none => do
    let question ← attempt (fetchQuestionData site.fetchImpl slug)
    let parsed ← attempt (parseImportedProblem site.engine question)
    persistImportedProblem site (importData slug canonicalUrl parsed) question

end

end CodeShare.Scraper
