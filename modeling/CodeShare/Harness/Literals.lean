import CodeShare.Harness.PythonHarness
import Mathlib.Algebra.Order.Field.Rat
import Mathlib.Data.Nat.Digits.Defs

/-! # Reading a JSON text as a Python literal

Two readers of the same texts: `pyEval` evaluates a text as a Python expression, as the generated
script does behind `_TEST_CASES = `, and `jsonLoads` is Python's `json.loads`. Both work on code
points. The Python reader covers the expressions that a JSON text can spell: list and dict displays,
string and number literals, unary minus, and names. `JSON.stringify` writes no blanks, so neither
reader skips any.
-/

namespace CodeShare.Harness
set_option autoImplicit false

/-- What the readers take from the Python implementation: its floats, the rounding of a decimal
literal of nonnegative value, and how deeply its parser and its `json` module let brackets nest. -/
structure Interpreter where
  Double : Type
  round : ℚ → Double
  literalNesting : ℕ
  jsonNesting : ℕ

/-- Python values. A string is a list of code points; a dict keeps its insertion order. -/
inductive PyVal (Double : Type) where
  | none
  | bool (value : Bool)
  | int (value : ℤ)
  | float (negative : Bool) (magnitude : Double)
  | str (text : List ℕ)
  | list (items : List (PyVal Double))
  | dict (entries : List (List ℕ × PyVal Double))

variable {Double : Type}

/-- Unary minus; only numbers have one. -/
def PyVal.neg : PyVal Double → Option (PyVal Double)
  | .int n => some (.int (-n))
  | .float negative magnitude => some (.float (!negative) magnitude)
  | _ => .none

/-- A later value of a key takes the place of the earlier one. -/
def dictInsert (entries : List (List ℕ × PyVal Double)) (key : List ℕ) (value : PyVal Double) :
    List (List ℕ × PyVal Double) :=
  match entries with
  | [] => [(key, value)]
  | (k, v) :: rest => if k = key then (key, value) :: rest else (k, v) :: dictInsert rest key value

def dictOf (pairs : List (List ℕ × PyVal Double)) : PyVal Double :=
  .dict (pairs.foldl (fun entries pair => dictInsert entries pair.1 pair.2) [])

/-- A reader returns what it read and the text behind it. -/
abbrev Reader (α : Type) := List ℕ → Option (α × List ℕ)

/-! ## Numbers -/

def isDigit (c : ℕ) : Bool := 48 ≤ c && c ≤ 57

/-- The value of a run of decimal digits. -/
def decimalValue (digits : List ℕ) : ℕ := Nat.ofDigits 10 (digits.reverse.map (· - 48))

/-- A run of digits; `none` when there is none. -/
def readDigits : Reader (List ℕ) := fun text =>
  match text.takeWhile isDigit with
  | [] => .none
  | digits => some (digits, text.dropWhile isDigit)

/-- `(\.[0-9]+)?` -/
def readFraction : Reader (List ℕ) := fun text =>
  match text with
  | 46 :: rest => readDigits rest
  | _ => some ([], text)

/-- An optional sign; `true` for a minus. -/
def readSign : List ℕ → Bool × List ℕ
  | 45 :: rest => (true, rest)
  | 43 :: rest => (false, rest)
  | text => (false, text)

/-- `([eE][-+]?[0-9]+)?`; `none` inside when the literal has no exponent. -/
def readExponent : Reader (Option ℤ)
  | c :: rest =>
    if c = 101 ∨ c = 69 then
      let (negative, rest) := readSign rest
      (readDigits rest).map fun (ds, rest) =>
        (some (if negative then -(decimalValue ds : ℤ) else decimalValue ds), rest)
    else some (.none, c :: rest)
  | [] => some (.none, [])

/-- The value of `whole.fraction` times a power of ten. -/
def decimalLiteral (whole fraction : List ℕ) (exponent : Option ℤ) : ℚ :=
  decimalValue (whole ++ fraction) * 10 ^ (exponent.getD 0 - fraction.length : ℤ)

/-- A Python `decinteger` or `floatnumber`: an integer of several digits does not start with a zero
unless it is zero. -/
def pythonNumber (round : ℚ → Double) : Reader (PyVal Double) := fun text => do
  let (whole, text) ← readDigits text
  let (fraction, text) ← readFraction text
  let (exponent, text) ← readExponent text
  if fraction = [] ∧ exponent = .none then
    if whole.head? = some 48 ∧ decimalValue whole ≠ 0 then .none
    else some (.int (decimalValue whole), text)
  else some (.float false (round (decimalLiteral whole fraction exponent)), text)

/-- A minus is an operator of the expression. -/
def pythonSigned (round : ℚ → Double) : Reader (PyVal Double) := fun text =>
  match text with
  | 45 :: rest => do
    let (value, rest) ← pythonNumber round rest
    let value ← value.neg
    some (value, rest)
  | _ => pythonNumber round text

/-- `(-?(?:0|[1-9][0-9]*))`: a leading zero is the whole integer part. -/
def readWhole : Reader (List ℕ)
  | 48 :: rest => some ([48], rest)
  | text => readDigits text

/-- The number behind its sign. -/
def jsonMagnitude (round : ℚ → Double) (negative : Bool) : Reader (PyVal Double) := fun text => do
  let (whole, text) ← readWhole text
  let (fraction, text) ← readFraction text
  let (exponent, text) ← readExponent text
  if fraction = [] ∧ exponent = .none then
    some (.int (if negative then -(decimalValue whole : ℤ) else decimalValue whole), text)
  else some (.float negative (round (decimalLiteral whole fraction exponent)), text)

/-- `NUMBER_RE` of the `json` module: the sign is part of the number. -/
def jsonNumber (round : ℚ → Double) : Reader (PyVal Double)
  | 45 :: rest => jsonMagnitude round true rest
  | text => jsonMagnitude round false text

/-! ## Strings -/

def hexValue (c : ℕ) : Option ℕ :=
  if 48 ≤ c ∧ c ≤ 57 then some (c - 48)
  else if 97 ≤ c ∧ c ≤ 102 then some (c - 87)
  else if 65 ≤ c ∧ c ≤ 70 then some (c - 55)
  else none

/-- Four hexadecimal digits. -/
def hexQuad (a b c d : ℕ) : Option ℕ := do
  let a ← hexValue a
  let b ← hexValue b
  let c ← hexValue c
  let d ← hexValue d
  some (a * 4096 + b * 256 + c * 16 + d)

/-- The one-letter escapes of Python string literals. -/
def pythonEscape (c : ℕ) : Option ℕ :=
  if c = 34 ∨ c = 39 ∨ c = 92 then some c
  else if c = 97 then some 7
  else if c = 98 then some 8
  else if c = 116 then some 9
  else if c = 110 then some 10
  else if c = 118 then some 11
  else if c = 102 then some 12
  else if c = 114 then some 13
  else none

/-- The rest of a double-quoted Python literal: it ends on its line, and `\uXXXX` is one code point,
also for a surrogate. -/
def pythonString : Reader (List ℕ)
  | [] => none
  | 34 :: rest => some ([], rest)
  | 92 :: 117 :: a :: b :: c :: d :: rest => do
    let unit ← hexQuad a b c d
    let (text, rest) ← pythonString rest
    some (unit :: text, rest)
  | 92 :: c :: rest => do
    let unit ← pythonEscape c
    let (text, rest) ← pythonString rest
    some (unit :: text, rest)
  | c :: rest =>
    if c = 10 ∨ c = 13 ∨ c = 92 then none
    else (pythonString rest).map fun (text, rest) => (c :: text, rest)

/-- `BACKSLASH` of the `json` module. -/
def jsonEscape (c : ℕ) : Option ℕ :=
  if c = 34 ∨ c = 92 ∨ c = 47 then some c
  else if c = 98 then some 8
  else if c = 102 then some 12
  else if c = 110 then some 10
  else if c = 114 then some 13
  else if c = 116 then some 9
  else none

/-- `scanstring` in strict mode: no control characters. The flag of a unit says that it was written
as `\uXXXX`. -/
def jsonUnits : Reader (List (ℕ × Bool))
  | [] => none
  | 34 :: rest => some ([], rest)
  | 92 :: 117 :: a :: b :: c :: d :: rest => do
    let unit ← hexQuad a b c d
    let (units, rest) ← jsonUnits rest
    some ((unit, true) :: units, rest)
  | 92 :: c :: rest => do
    let unit ← jsonEscape c
    let (units, rest) ← jsonUnits rest
    some ((unit, false) :: units, rest)
  | c :: rest =>
    if c < 32 ∨ c = 92 then none
    else (jsonUnits rest).map fun (units, rest) => ((c, false) :: units, rest)

/-- An escaped high surrogate takes an escaped low surrogate behind it. -/
def joinPairs : List (ℕ × Bool) → List ℕ
  | (high, true) :: (low, true) :: rest =>
    if isHighSurrogate high && isLowSurrogate low then surrogatePair high low :: joinPairs rest
    else high :: joinPairs ((low, true) :: rest)
  | (unit, _) :: rest => unit :: joinPairs rest
  | [] => []

def jsonString : Reader (List ℕ) := fun text =>
  (jsonUnits text).map fun (units, rest) => (joinPairs units, rest)

/-! ## Displays -/

/-- What the two languages disagree on. -/
structure Dialect (Double : Type) where
  name : List ℕ → Option (PyVal Double)
  string : Reader (List ℕ)
  number : Reader (PyVal Double)

def isNameUnit (c : ℕ) : Bool := (97 ≤ c && c ≤ 122) || (65 ≤ c && c ≤ 90) || c = 95

section
variable (d : Dialect Double)

/-- A value without brackets. -/
def readScalar : Reader (PyVal Double) := fun text =>
  match text with
  | [] => none
  | c :: rest =>
    if c = 34 then (d.string rest).map fun (s, rest) => (.str s, rest)
    else if isNameUnit c then
      (d.name (text.takeWhile isNameUnit)).map fun value => (value, text.dropWhile isNameUnit)
    else d.number text

/-- `item, ..., item]`; the fuel bounds the number of items. -/
def readItems (readValue : Reader (PyVal Double)) : ℕ → Reader (List (PyVal Double))
  | 0, _ => none
  | fuel + 1, text => do
    let (value, text) ← readValue text
    match text with
    | 44 :: rest => do
      let (values, rest) ← readItems readValue fuel rest
      some (value :: values, rest)
    | 93 :: rest => some ([value], rest)
    | _ => none

/-- `"key":item, ..., "key":item}`. -/
def readMembers (readValue : Reader (PyVal Double)) : ℕ → Reader (List (List ℕ × PyVal Double))
  | 0, _ => none
  | fuel + 1, text =>
    match text with
    | 34 :: rest => do
      let (key, rest) ← d.string rest
      match rest with
      | 58 :: rest => do
        let (value, rest) ← readValue rest
        match rest with
        | 44 :: rest => do
          let (pairs, rest) ← readMembers readValue fuel rest
          some ((key, value) :: pairs, rest)
        | 125 :: rest => some ([(key, value)], rest)
        | _ => none
      | _ => none
    | _ => none

/-- A value with at most the given levels of brackets. -/
def readValue : ℕ → Reader (PyVal Double)
  | 0, 91 :: _ => none
  | 0, 123 :: _ => none
  | _ + 1, 91 :: 93 :: rest => some (.list [], rest)
  | levels + 1, 91 :: rest =>
    (readItems (readValue levels) rest.length rest).map fun (items, rest) => (.list items, rest)
  | _ + 1, 123 :: 125 :: rest => some (dictOf [], rest)
  | levels + 1, 123 :: rest =>
    (readMembers d (readValue levels) rest.length rest).map fun (pairs, rest) => (dictOf pairs, rest)
  | _, text => readScalar d text

/-- A whole text. -/
def readAll (levels : ℕ) (text : JsString) : Option (PyVal Double) :=
  match readValue d levels (codePoints text) with
  | some (value, []) => some value
  | _ => none

end

/-- Names of the module scope: the three constants. Any other name that a JSON text can spell is not
defined there. -/
def pythonName (word : List ℕ) : Option (PyVal Double) :=
  if word = js "None" then some .none
  else if word = js "True" then some (.bool true)
  else if word = js "False" then some (.bool false)
  else .none

def jsonName (word : List ℕ) : Option (PyVal Double) :=
  if word = js "null" then some .none
  else if word = js "true" then some (.bool true)
  else if word = js "false" then some (.bool false)
  else .none

def python (I : Interpreter) : Dialect I.Double where
  name := pythonName
  string := pythonString
  number := pythonSigned I.round

def json (I : Interpreter) : Dialect I.Double where
  name := jsonName
  string := jsonString
  number := jsonNumber I.round

/-- The text as a Python expression; `none` is an error. -/
def pyEval (I : Interpreter) (text : JsString) : Option (PyVal I.Double) :=
  readAll (python I) I.literalNesting text

/-- `json.loads`. -/
def jsonLoads (I : Interpreter) (text : JsString) : Option (PyVal I.Double) :=
  readAll (json I) I.jsonNesting text

/-! ## The stored value -/

section
variable (round : ℚ → Double)

/-- A JavaScript number in Python: an integer when its text has neither point nor exponent. -/
def numberToPython (x : JsNumber) : PyVal Double :=
  if x.significand = 0 then .int 0
  else
    let k : ℤ := (digitUnits x.significand).length
    if k ≤ x.exponent ∧ x.exponent ≤ 21 then
      let magnitude : ℤ := x.significand * 10 ^ (x.exponent - k).toNat
      .int (if x.negative then -magnitude else magnitude)
    else .float x.negative (round (x.significand * 10 ^ (x.exponent - k)))

/-- The Python counterpart of a stored JSON value. -/
def toPython : Json → PyVal Double
  | .null => .none
  | .bool b => .bool b
  | .num x => numberToPython round x
  | .str text => .str (codePoints text)
  | .arr items => .list (itemsToPython items)
  | .obj members => dictOf (membersToPython members)
where
  itemsToPython : List Json → List (PyVal Double)
    | [] => []
    | v :: rest => toPython v :: itemsToPython rest
  membersToPython : List (JsString × Json) → List (List ℕ × PyVal Double)
    | [] => []
    | (k, v) :: rest => (codePoints k, toPython v) :: membersToPython rest

end

end CodeShare.Harness
