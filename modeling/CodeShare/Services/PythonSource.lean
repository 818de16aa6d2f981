import CodeShare.Services.HintService

/-! # Python source text

Comments, strings and code of a Python source text, unit by unit, and what the text is without its comments and its
triple-quoted strings. A prefix in front of a string is code.
-/

namespace CodeShare.PythonSource
set_option autoImplicit false

/-- Where a unit stands. A backslash escapes the unit behind it in every string. -/
inductive LexState where
  | code
  | comment
  | line (quote : ℕ) (escaped : Bool)
  | opening (quote : ℕ) (last : Bool)
  | long (quote : ℕ) (escaped : Bool)
  | closing (last : Bool)
  deriving DecidableEq

def isQuote (c : ℕ) : Bool := c = 34 || c = 39

/-- A line ends at a line feed, at a carriage return, or at both. -/
def isLineEnd (c : ℕ) : Bool := c = 10 || c = 13

def tripleQuote (quote : ℕ) : JsString := [quote, quote, quote]

/-- Whether the unit is kept, and where the next one stands. A string of one line must end on it. -/
def lexUnit (state : LexState) (c : ℕ) (rest : JsString) : Option (Bool × LexState) :=
  match state with
  | .code =>
    if c = 35 then some (false, .comment)
    else if isQuote c then
      if tripleQuote c <+: c :: rest then some (false, .opening c false) else some (true, .line c false)
    else some (true, .code)
  | .comment => if isLineEnd c then some (true, .code) else some (false, .comment)
  | .line quote true => some (true, .line quote (c = 13 && rest.head? = some 10))
  | .line quote false =>
    if c = 92 then some (true, .line quote true)
    else if c = quote then some (true, .code)
    else if isLineEnd c then none
    else some (true, .line quote false)
  | .opening quote last => some (false, if last then .long quote false else .opening quote true)
  | .long quote true => some (false, .long quote false)
  | .long quote false =>
    if c = 92 then some (false, .long quote true)
    else if tripleQuote quote <+: c :: rest then some (false, .closing false)
    else some (false, .long quote false)
  | .closing last => some (false, if last then .code else .closing true)

/-- What is kept of the rest of a text; `none` is no Python. -/
def keptUnits : LexState → JsString → Option JsString
  | .code, [] | .comment, [] => some []
  | _, [] => none
  | state, c :: rest =>
    match lexUnit state c rest with
    | none => none
    | some (kept, next) => (keptUnits next rest).map fun units => if kept then c :: units else units

theorem keptUnits_cons {state next : LexState} {c : ℕ} {rest : JsString} {kept : Bool}
    (h : lexUnit state c rest = some (kept, next)) :
    keptUnits state (c :: rest) = (keptUnits next rest).map fun units => if kept then c :: units else units := by
  cases state <;> simp only [keptUnits, h]

theorem exists_lexUnit {state : LexState} {c : ℕ} {rest units : JsString} (h : keptUnits state (c :: rest) = some units) :
    ∃ kept next, lexUnit state c rest = some (kept, next) := by
  cases hlex : lexUnit state c rest with
  | none => cases state <;> simp only [keptUnits, hlex] at h <;> cases h
  | some step => exact ⟨step.1, step.2, rfl⟩

/-- The text without its comments and without its triple-quoted strings. -/
def withoutComments (code : JsString) : Option JsString := keptUnits .code code

/-- Trimmed, and without more than two line feeds in a row. -/
def tidy (text : JsString) : JsString := jsTrim (HintService.collapseBlankLines 0 text)

end CodeShare.PythonSource
