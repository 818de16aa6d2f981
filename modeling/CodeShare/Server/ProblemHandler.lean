import CodeShare.Server.RoomHandler
import Mathlib.Data.List.Sort
import Mathlib.Data.List.Lex

/-! # Choosing a problem

`problem:select`, `problem:import`, `testcase:add` and `solution:reveal`: the handlers around the
active problem.
-/

namespace CodeShare
open Tasks
set_option autoImplicit false

/-! ## Loading -/

def loadProblemIntoRoom (cfg : Config) (g : Step) (detail : ProblemDetail) : Step :=
  let g := g.modify fun s => { s with
    room := s.room.switchProblem detail.id (hintLimitByDifficulty detail.difficulty) s.now
    doc := s.doc.map fun _ => (detail.boilerplate.map (·.template)).getD [] }
  (g.emit (.problemSwitched detail.id)).toRoom (problemLoadedPayload cfg detail)

def emitProblemLoadError (g : Step) (socket : SocketId) (message : JsString) : Step :=
  g.toSocket socket (.problemError message)

def handleProblemSelect (s : Server) (socket : SocketId) (problemId : Option ProblemId) : Step :=
  match s.getRoom, problemId with
  | none, _ => .of s
  | some _, none => emitProblemLoadError (.of s) socket (js "Invalid problem selection payload.")
  | some _, some problemId => (Segment.of s).suspend (.selecting socket problemId)

def afterSelecting (cfg : Config) (s : Server) (socket : SocketId) (problemId : ProblemId) :
    Outcome → Option Step
  | .detail (some detail) =>
    if detail.id = problemId then some (loadProblemIntoRoom cfg (.of s) detail) else none
  | .detail none => some (emitProblemLoadError (.of s) socket (js "Problem not found."))
  | .failed _ =>
    some (emitProblemLoadError (.of s) socket (js "Failed to load problem. Please try again."))
  | _ => none

/-! ## Importing -/

def importFailedToSender (g : Step) (socket : SocketId) (message : JsString)
    (retryAfterSeconds : Option ℕ) : Step :=
  g.toSocket socket (.problemImportStatus .failed (some message) retryAfterSeconds)

/-- `validateProblemImport` up to its first await. -/
def handleProblemImport (cfg : Config) (s : Server) (socket : SocketId)
    (leetcodeUrl : Option JsString) : Step :=
  match s.getRoom with
  | none => .of s
  | some _ =>
    if !cfg.enableProblemImport then
      importFailedToSender (.of s) socket (js "Problem import is disabled.") none
    else
      match leetcodeUrl with
      | none => importFailedToSender (.of s) socket (js "Invalid problem import payload.") none
      | some url => (Segment.of s).suspend (.importIpLimiter socket url)

def afterImportIpLimiter (s : Server) (socket : SocketId) (url : JsString) : Outcome → Option Step
  | .allowed =>
    if s.room.importLimit ≤ s.room.importsUsed then
      some (importFailedToSender (.of s) socket (js "Session import limit reached (" ++
        decimalUnits s.room.importLimit ++ js "/" ++ decimalUnits s.room.importLimit ++ js ").") none)
    else some ((Segment.of s).suspend (.importQuota socket url))
  | .limited retryAfterSeconds =>
    some (importFailedToSender (.of s) socket (js "Too many import attempts. Try again in " ++
      decimalUnits retryAfterSeconds ++ js "s.") (some retryAfterSeconds))
  | .failed _ => some ((Segment.of s).emit .unhandledRejection)
  | _ => none

def dailyImportLimitReached : JsString := js "Daily import limit reached. Please try again tomorrow."

/-- Behind `canImport` the room is told, and the import operation starts. -/
def afterImportQuota (cfg : Config) (s : Server) (socket : SocketId) (url : JsString) :
    Outcome → Option Step
  | .answer true =>
    let g := (Segment.of s).toRoom (.problemImportStatus .scraping none none)
    if cfg.hasImportLimiter then some (g.suspend (.importLimiter socket url))
    else some (g.suspend (.importReserve socket url))
  | .answer false => some (importFailedToSender (.of s) socket dailyImportLimitReached none)
  | .failed _ => some ((Segment.of s).emit .unhandledRejection)
  | _ => none

def afterImportLimiter (s : Server) (socket : SocketId) (url : JsString) : Outcome → Option Step
  | .go => some ((Segment.of s).suspend (.importReserve socket url))
  | .failed reason => some ((Segment.of s).suspend (.importFailing socket reason))
  | _ => none

def afterImportReserve (s : Server) (socket : SocketId) (url : JsString) : Outcome → Option Step
  | .answer true =>
    some (((Segment.of s).emit (.importProblem url)).suspend (.importScrape socket url))
  | .answer false => some (importFailedToSender (.of s) socket dailyImportLimitReached none)
  | .failed reason => some ((Segment.of s).suspend (.importFailing socket reason))
  | _ => none

def afterImportScrape (s : Server) (socket : SocketId) : Outcome → Option Step
  | .imported problemId => some ((Segment.of s).suspend (.importLoad socket problemId))
  | .failed reason => some ((Segment.of s).suspend (.importFailing socket reason))
  | _ => none

def failureMessage (fallback : JsString) : Failure → JsString
  | .error message | .aborted message => message
  | .capacity _ | .other => fallback

/-- The `catch` of `handleProblemImport`. -/
def afterImportFailure (s : Server) (socket : SocketId) : Failure → Step
  | .capacity retryAfterSeconds =>
    importFailedToSender (.of s) socket (js "Import service is busy. Try again in " ++
      decimalUnits retryAfterSeconds ++ js "s.") (some retryAfterSeconds)
  | reason =>
    (Segment.of s).toRoom (.problemImportStatus .failed
      (some (failureMessage (js "Failed to import problem.") reason)) none)

def afterImportLoad (cfg : Config) (s : Server) (socket : SocketId) (problemId : ProblemId) :
    Outcome → Option Step
  | .detail (some detail) =>
    if detail.id = problemId then
      some (((loadProblemIntoRoom cfg (.of s) detail).modifyRoom fun room => { room with
        importsUsed := room.importsUsed + 1 }).toRoom (.problemImportStatus .saved none none))
    else none
  | .detail none =>
    some (afterImportFailure s socket (.error (js "Imported problem could not be loaded.")))
  | .failed reason => some (afterImportFailure s socket reason)
  | _ => none

/-! ## Custom test cases -/

def emitTestcaseError (g : Step) (socket : SocketId) (message : JsString) : Step :=
  g.toSocket socket (.testcaseError message)

/-- The parsed payload as JSON. -/
def CustomTestCase.toJson (testCase : CustomTestCase) : Json :=
  .obj [(js "input", .obj testCase.input), (js "expectedOutput", testCase.expectedOutput)]

def testCaseLimitReached (room : Room) : JsString :=
  js "Custom test case limit reached (" ++ decimalUnits room.customTestCaseLimit ++ js ")."

def handleTestcaseAdd (s : Server) (socket : SocketId) (data : Option CustomTestCase) : Step :=
  match s.getRoom with
  | none => .of s
  | some room =>
    match room.problemId, data with
    | none, _ => emitTestcaseError (.of s) socket (js "Select a problem before adding test cases.")
    | some _, none => emitTestcaseError (.of s) socket (js "Invalid test case payload.")
    | some problemId, some testCase =>
      if room.customTestCaseLimit ≤ room.customTestCases.length then
        emitTestcaseError (.of s) socket (testCaseLimitReached room)
      else if maxTestCaseBytes < utf8Length testCase.toJson.stringify then
        emitTestcaseError (.of s) socket (js "Test case exceeds maximum size (" ++
          decimalUnits (maxTestCaseBytes / 1024) ++ js "KB).")
      else (Segment.of s).suspend (.addingTestCase socket testCase problemId)

/-- `Array.prototype.sort` on strings, by code units. -/
def sortKeys (keys : List JsString) : List JsString := keys.insertionSort (· ≤ ·)

/-- A missing boilerplate leaves the case unchecked. -/
def matchesParameters (testCase : CustomTestCase) : Option BoilerplateTemplate → Bool
  | none => true
  | some boilerplate =>
    sortKeys (testCase.input.map Prod.fst) = sortKeys boilerplate.parameterNames

def afterAddingTestCase (s : Server) (socket : SocketId) (testCase : CustomTestCase)
    (problemId : ProblemId) : Outcome → Option Step
  | .boilerplate found =>
    if found.any fun boilerplate => boilerplate.problemId ≠ problemId then none
    else if !matchesParameters testCase found then
      some (emitTestcaseError (.of s) socket (js "Input keys must match parameter names: [" ++
        joinTexts (js ", ") ((found.map (·.parameterNames)).getD []) ++ js "]."))
    else if s.room.customTestCaseLimit ≤ s.room.customTestCases.length then
      some (emitTestcaseError (.of s) socket (testCaseLimitReached s.room))
    else
      some (((Segment.of s).modifyRoom fun room => { room with
        customTestCases := room.customTestCases ++ [⟨testCase, problemId⟩]
        lastActivityAt := s.now }).toRoom (.testcaseAdded testCase))
  | .failed _ =>
    some (emitTestcaseError (.of s) socket (js "Failed to add test case. Please try again."))
  | _ => none

theorem registered_of_getRoom {s : Server} (h : s.getRoom = none) : s.registered = false := by
  unfold Server.getRoom at h
  split_ifs at h with hregistered
  exact Bool.eq_false_iff.mpr hregistered

/-- The room is gone, or the request is rejected at once, or the boilerplate of its problem is asked for. -/
theorem handleTestcaseAdd_cases (s : Server) (socket : SocketId) (data : Option CustomTestCase) :
    (s.registered = false ∧ handleTestcaseAdd s socket data = .of s) ∨
    (∃ message, handleTestcaseAdd s socket data = emitTestcaseError (.of s) socket message) ∨
    ∃ testCase p, (data = some testCase ∧ s.room.problemId = some p) ∧
      handleTestcaseAdd s socket data = (Segment.of s).suspend (.addingTestCase socket testCase p) := by
  unfold handleTestcaseAdd
  split
  · rename_i hgone
    exact .inl ⟨registered_of_getRoom hgone, rfl⟩
  · rename_i room hroom
    obtain rfl : s.room = room := by
      unfold Server.getRoom at hroom
      split_ifs at hroom
      exact Option.some.inj hroom
    split
    · exact .inr (.inl ⟨_, rfl⟩)
    · exact .inr (.inl ⟨_, rfl⟩)
    · rename_i p testCase hproblem
      split_ifs
      · exact .inr (.inl ⟨_, rfl⟩)
      · exact .inr (.inl ⟨_, rfl⟩)
      · exact .inr (.inr ⟨testCase, p, ⟨rfl, hproblem⟩, rfl⟩)

def Server.addTestCase (s : Server) (stored : StoredTestCase) : Server :=
  { s with room := { s.room with
      customTestCases := s.room.customTestCases ++ [stored]
      lastActivityAt := s.now } }

/-- The test case has the parameters as its keys, and the room has place for it. -/
def Admissible (s : Server) (testCase : CustomTestCase) (found : Option BoilerplateTemplate) : Prop :=
  matchesParameters testCase found ∧ s.room.customTestCases.length < s.room.customTestCaseLimit

/-- The test case is rejected, or added and announced. -/
theorem afterAddingTestCase_cases {s : Server} {socket : SocketId} {testCase : CustomTestCase} {p : ProblemId}
    {o : Outcome} {g : Step} (h : afterAddingTestCase s socket testCase p o = some g) :
    (∃ message, (∀ found, o = .boilerplate found → ¬ Admissible s testCase found) ∧
      g = emitTestcaseError (.of s) socket message) ∨
    ∃ found, o = .boilerplate found ∧ Admissible s testCase found ∧
      g = (Segment.of (s.addTestCase ⟨testCase, p⟩)).toRoom (.testcaseAdded testCase) := by
  unfold afterAddingTestCase at h
  split at h
  · rename_i found
    split_ifs at h with hother hmatch hfull
    · cases h
      refine .inl ⟨_, ?_, rfl⟩
      rintro _ ⟨⟩ ⟨hfits, -⟩
      rw [hfits] at hmatch
      cases hmatch
    · cases h
      refine .inl ⟨_, ?_, rfl⟩
      rintro _ ⟨⟩ ⟨-, hroom⟩
      exact absurd hroom (Nat.not_lt.mpr hfull)
    · cases h
      exact .inr ⟨found, rfl, ⟨by simpa using hmatch, Nat.lt_of_not_le hfull⟩, rfl⟩
  · cases h
    exact .inl ⟨_, nofun, rfl⟩
  · cases h

/-! ## Solutions -/

def handleSolutionReveal (s : Server) (socket : SocketId) : Step :=
  match s.getRoom with
  | none => .of s
  | some room =>
    if room.mode ≠ .interview then
      (Segment.of s).toSocket socket
        (.hintError (js "Solutions can only be revealed in interview mode."))
    else
      match room.problemId with
      | none => (Segment.of s).toSocket socket (.hintError (js "Select a problem first."))
      | some problemId => (Segment.of s).suspend (.revealing socket problemId)

/-- An empty text is no solution. -/
def afterRevealing (cfg : Config) (s : Server) (socket : SocketId) (problemId : ProblemId) :
    Outcome → Option Step
  | .problem (some problem) =>
    if problem.id ≠ problemId then none
    else
      match cfg.db.solution problemId with
      | none | some [] =>
        some ((Segment.of s).toSocket socket
          (.hintError (js "No solution available for this problem.")))
      | some solution => some ((Segment.of s).toRoom (.solutionRevealed solution))
  | .problem none => some ((Segment.of s).toSocket socket (.hintError (js "Problem not found.")))
  | .failed _ =>
    some ((Segment.of s).toSocket socket
      (.hintError (js "Failed to reveal solution. Please try again.")))
  | _ => none

end CodeShare
