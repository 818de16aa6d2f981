import CodeShare.Text.ParsedJson

/-! # Reading an imported example

`parseInputAssignments` of `scraper/parsers.ts` and what it calls. A text is a list of code units: no
unit of a surrogate pair is taken for one of the signs that the code looks for. `JSON.parse` and
`Number` are arguments; an error carries its message.
-/

namespace CodeShare
set_option autoImplicit false

/-! ## Objects -/

section
variable {β : Type}

/-- Setting a property: a new one comes last. -/
def setProperty (members : List (JsString × β)) (key : JsString) (value : β) : List (JsString × β) :=
  if key ∈ members.map Prod.fst then
    members.map fun member => if member.1 = key then (key, value) else member
  else members ++ [(key, value)]

/-- `Object.fromEntries`. -/
def fromEntries (entries : List (JsString × β)) : List (JsString × β) :=
  propertyOrder (entries.foldl (fun members entry => setProperty members entry.1 entry.2) [])

/-- The names that every object inherits from `Object.prototype`. -/
def inheritedNames : List JsString :=
  [js "constructor", js "__defineGetter__", js "__defineSetter__", js "hasOwnProperty",
    js "__lookupGetter__", js "__lookupSetter__", js "isPrototypeOf", js "propertyIsEnumerable",
    js "toString", js "valueOf", js "__proto__", js "toLocaleString"]

/-- The `in` operator on a plain object. -/
def isIn (name : JsString) (members : List (JsString × β)) : Bool :=
  decide (name ∈ members.map Prod.fst) || decide (name ∈ inheritedNames)

end

/-! ## Splitting -/

/-- `text.replace(/\s+/g, " ")`; the flag says that the last unit was white space. -/
def collapseSpaces : Bool → JsString → JsString
  | _, [] => []
  | afterSpace, c :: rest =>
    if isRegexSpace c then
      if afterSpace then collapseSpaces true rest else 32 :: collapseSpaces true rest
    else c :: collapseSpaces false rest

structure SplitState where
  parts : List JsString
  current : JsString
  squareDepth : ℤ
  curlyDepth : ℤ
  parenDepth : ℤ
  quote : Option ℕ
  escaped : Bool

def SplitState.start : SplitState := ⟨[], [], 0, 0, 0, none, false⟩

/-- The brackets around the next unit. -/
def SplitState.nest (s : SplitState) (c : ℕ) : SplitState :=
  if c = 91 then { s with squareDepth := s.squareDepth + 1 }
  else if c = 93 then { s with squareDepth := s.squareDepth - 1 }
  else if c = 123 then { s with curlyDepth := s.curlyDepth + 1 }
  else if c = 125 then { s with curlyDepth := s.curlyDepth - 1 }
  else if c = 40 then { s with parenDepth := s.parenDepth + 1 }
  else if c = 41 then { s with parenDepth := s.parenDepth - 1 }
  else s

/-- One turn of the loop in `splitTopLevel`. -/
def SplitState.step (delimiter : ℕ) (s : SplitState) (c : ℕ) : SplitState :=
  let s := { s with current := s.current ++ [c] }
  match s.quote with
  | some quote =>
    if s.escaped then { s with escaped := false }
    else if c = 92 then { s with escaped := true }
    else if c = quote then { s with quote := none }
    else s
  | none =>
    if c = 34 ∨ c = 39 then { s with quote := some c }
    else
      let s := s.nest c
      if c = delimiter ∧ s.squareDepth = 0 ∧ s.curlyDepth = 0 ∧ s.parenDepth = 0 then
        { s with parts := s.parts ++ [jsTrim s.current.dropLast], current := [] }
      else s

def splitTopLevel (source : JsString) (delimiter : ℕ) : List JsString :=
  let s := source.foldl (SplitState.step delimiter) .start
  if jsTrim s.current ≠ [] then s.parts ++ [jsTrim s.current] else s.parts

/-! ## Values -/

def isDigitUnit (c : ℕ) : Bool := 48 ≤ c && c ≤ 57

/-- `/^-?\d+(?:\.\d+)?$/`. -/
def isDecimalText (text : JsString) : Bool :=
  let body := if text.head? = some 45 then text.tail else text
  let whole := body.takeWhile isDigitUnit
  let rest := body.dropWhile isDigitUnit
  !whole.isEmpty && (rest.isEmpty ||
    (rest.head? = some 46 && !rest.tail.isEmpty && rest.tail.all isDigitUnit))

def isQuotedBy (quote : ℕ) (text : JsString) : Bool :=
  text.head? = some quote && text.getLast? = some quote

section
variable (parse : JsString → Except JsString ParsedJson) (number : JsString → ParsedJson)

def parseScalarValue (raw : JsString) : Except JsString ParsedJson :=
  let trimmed := jsTrim raw
  if trimmed = js "true" then .ok (.bool true)
  else if trimmed = js "false" then .ok (.bool false)
  else if trimmed = js "null" then .ok .null
  else if isDecimalText trimmed then .ok (number trimmed)
  else if isQuotedBy 34 trimmed || isQuotedBy 39 trimmed then .ok (.str (trimmed.drop 1).dropLast)
  else .error (js "Unsupported imported value: " ++ trimmed)

def parseLeetCodeValue (raw : JsString) : Except JsString ParsedJson :=
  let trimmed := jsTrim raw
  if trimmed.head? = some 91 || trimmed.head? = some 123 then parse trimmed
  else parseScalarValue number trimmed

/-- The name in front of the first equals sign. -/
def assignedName (assignment : JsString) : JsString := jsTrim (assignment.takeWhile (· ≠ 61))

def parseAssignment (assignment : JsString) : Except JsString (JsString × ParsedJson) :=
  if 61 ∉ assignment then .error (js "Failed to parse imported example inputs.")
  else
    match parseLeetCodeValue parse number (jsTrim ((assignment.dropWhile (· ≠ 61)).drop 1)) with
    | .error message => .error message
    | .ok value => .ok (assignedName assignment, value)

/-- The assignments of an input text. -/
def inputAssignments (input : JsString) : List JsString :=
  splitTopLevel (jsTrim (collapseSpaces false input)) 44

def parseInputAssignments (input : JsString) (parameterNames : List JsString) :
    Except JsString (List (JsString × ParsedJson)) :=
  match (inputAssignments input).mapM (parseAssignment parse number) with
  | .error message => .error message
  | .ok parsed =>
    let inputRecord := fromEntries parsed
    match parameterNames.find? fun name => !isIn name inputRecord with
    | some name => .error (js "Imported example is missing parameter \"" ++ name ++ js "\".")
    | none => .ok inputRecord

/-! ## Examples -/

structure ExampleBlock where
  input : JsString
  output : JsString

structure ParsedExample where
  input : List (JsString × ParsedJson)
  expectedOutput : ParsedJson
  isVisible : Bool
  orderIndex : ℕ

def parseExample (parameterNames : List JsString) (block : ExampleBlock) (index : ℕ) :
    Except JsString ParsedExample :=
  match parseInputAssignments parse number block.input parameterNames with
  | .error message => .error message
  | .ok input =>
    match parseLeetCodeValue parse number block.output with
    | .error message => .error message
    | .ok expectedOutput => .ok ⟨input, expectedOutput, true, index⟩

def buildParsedExamples (visibleExamples : List ExampleBlock) (parameterNames : List JsString) :
    Except JsString (List ParsedExample) :=
  visibleExamples.zipIdx.mapM fun (block, index) =>
    parseExample parse number parameterNames block index

end

end CodeShare
