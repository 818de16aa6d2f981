import CodeShare.Services.HtmlText
import CodeShare.Services.JsonParse

/-! # A question of LeetCode

`scraper/questionClient.ts` and `parseImportedProblem` of `ScraperService.ts`: from the answer to a request to what
an import stores, with the errors on the way.
-/

namespace CodeShare.Scraper
open Rewriting
set_option autoImplicit false

/-! ## Errors -/

structure DependencyError where
  dependency : JsString
  operation : JsString
  errorType : JsString
  message : JsString
  statusCode : Option ℕ
  isTimeout : Bool
  deriving DecidableEq

/-- What is thrown: an error of a dependency, or any other with its message. -/
inductive Thrown where
  | dependency (error : DependencyError)
  | error (message : JsString)
  deriving DecidableEq

def leetCodeError (operation errorType message : JsString) : DependencyError :=
  ⟨js "leetcode", operation, errorType, message, none, false⟩

def wrapLeetCodeParse {α : Type} (action : Except Thrown α) (operation : JsString) : Except Thrown α :=
  match action with
  | .ok a => .ok a
  | .error (.dependency error) => .error (.dependency error)
  | .error (.error message) => .error (.dependency (leetCodeError operation (js "parse_error") message))

/-- What the parsers throw. -/
def throwsText {α : Type} (action : Except JsString α) : Except Thrown α := action.mapError .error

/-! ## The request -/

structure CodeSnippet where
  langSlug : JsString
  code : JsString

structure LeetCodeQuestionData where
  title : JsString
  difficulty : JsString
  categoryTitle : Option JsString
  content : JsString
  metaData : JsString
  codeSnippets : List CodeSnippet

/-- The request fails, or it is answered; a body that is read has a question or none. -/
inductive FetchAnswer where
  | failed (error : Thrown) (aborted : Bool)
  | response (ok : Bool) (status : ℕ) (json : Except Thrown (Option LeetCodeQuestionData))

def toLeetCodeDependencyError (error : Thrown) (aborted : Bool) (operation message : JsString) : DependencyError :=
  match error with
  | .dependency error => error
  | .error _ =>
    if aborted then { leetCodeError operation (js "timeout") message with isTimeout := true }
    else leetCodeError operation (js "network_error") message

def fetchQuestionData (fetchImpl : JsString → FetchAnswer) (slug : JsString) : Except Thrown LeetCodeQuestionData :=
  match fetchImpl slug with
  | .failed error aborted =>
    .error (.dependency (toLeetCodeDependencyError error aborted (js "fetch_question") (js "LeetCode request failed.")))
  | .response false status _ =>
    .error (.dependency { leetCodeError (js "fetch_question") (js "http_error")
      (js "Failed to fetch problem from LeetCode.") with statusCode := some status })
  | .response true _ (.error error) => .error error
  | .response true _ (.ok none) =>
    .error (.dependency (leetCodeError (js "fetch_question") (js "invalid_response")
      (js "Problem not found on LeetCode.")))
  | .response true _ (.ok (some question)) => .ok question

/-! ## Its parts -/

section
variable (E : JsEngine)

/-- `value?.trim()`; `none` is `undefined`. -/
def optionalTrim : Option ParsedJson → Except JsString (Option JsString)
  | none | some .null => .ok none
  | some (.str text) => .ok (some (jsTrim text))
  | some _ => .error E.typeError

/-- `value.name` and `?.trim()` behind it. -/
def trimmedName : ParsedJson → Except JsString (Option JsString)
  | .null => .error E.typeError
  | value => optionalTrim E (value.get (js "name"))

/-- The names of the parameters that have one. -/
def namesOfParams : Option ParsedJson → Except JsString (List JsString)
  | none | some .null => .ok []
  | some (.arr params) => (params.mapM (trimmedName E)).map fun names => (names.filterMap id).filter (· ≠ [])
  | some _ => .error E.typeError

def parseMetadata (metaData : JsString) : Except JsString (JsString × List JsString) := do
  let parsed ← jsonParse E metaData
  let methodName ← trimmedName E parsed
  let parameterNames ← namesOfParams E (parsed.get (js "params"))
  if methodName.getD [] = [] ∨ parameterNames = [] then
    .error (js "Imported problem is missing callable metadata.")
  else .ok (methodName.getD [], parameterNames)

end

def selectPythonBoilerplate (codeSnippets : List CodeSnippet) : Except JsString JsString :=
  let snippet := (codeSnippets.find? (·.langSlug = js "python3")).or (codeSnippets.find? (·.langSlug = js "python"))
  match snippet with
  | some snippet =>
    if jsTrim snippet.code = [] then .error (js "Imported problem does not include Python boilerplate.")
    else .ok snippet.code
  | none => .error (js "Imported problem does not include Python boilerplate.")

/-! ### Constraints -/

/-- `/<p><strong>Constraints:<\/strong><\/p>\s*<ul>([\s\S]*?)<\/ul>/i`: how long the match is, and its group. -/
def matchConstraints (text : JsString) : Option (ℕ × JsString) :=
  match matchCaseless (js "<p><strong>Constraints:</strong></p>") text with
  | none => none
  | some n =>
    let spaces := (text.drop n).takeWhile isRegexSpace
    let list := (text.drop n).dropWhile isRegexSpace
    (matchBetween (js "<ul>") (js "</ul>") list).map fun length =>
      (n + spaces.length + length, innerText (js "<ul>") (js "</ul>") (list.take length))

/-- The text in front of the first match, its group, and the text behind it. -/
def findConstraints : JsString → Option (JsString × JsString × JsString)
  | [] => none
  | c :: rest =>
    match matchConstraints (c :: rest) with
    | some (n, group) => some ([], group, (c :: rest).drop n)
    | none => (findConstraints rest).map fun (front, group, back) => (c :: front, group, back)

def extractConstraints (content : JsString) : List JsString :=
  match findConstraints content with
  | none => []
  | some (_, group, _) => (allMatches (matchBetween (js "<li>") (js "</li>")) group).map fun item =>
      jsTrim (stripTags (innerText (js "<li>") (js "</li>") item))

def stripConstraintsSection (content : JsString) : JsString :=
  match findConstraints content with
  | none => content
  | some (front, _, back) => front ++ back

/-! ## What is imported -/

structure ParsedProblem where
  methodName : JsString
  parameterNames : List JsString
  boilerplate : JsString
  parsedExamples : List ParsedExample

def parseImportedProblem (E : JsEngine) (question : LeetCodeQuestionData) : Except Thrown ParsedProblem := do
  let (methodName, parameterNames) ← wrapLeetCodeParse (throwsText (parseMetadata E question.metaData))
    (js "parse_metadata")
  let boilerplate ← wrapLeetCodeParse (throwsText (selectPythonBoilerplate question.codeSnippets))
    (js "select_boilerplate")
  let visibleExamples ← wrapLeetCodeParse (throwsText ((extractExampleBlocks question.content).map (·.take 3)))
    (js "parse_examples")
  if visibleExamples = [] then
    .error (.dependency (leetCodeError (js "parse_examples") (js "invalid_response")
      (js "Imported problem did not include visible examples.")))
  else
    let parsedExamples ← wrapLeetCodeParse
      (throwsText (buildParsedExamples (jsonParse E) E.number visibleExamples parameterNames)) (js "parse_examples")
    .ok ⟨methodName, parameterNames, boilerplate, parsedExamples⟩

end CodeShare.Scraper
