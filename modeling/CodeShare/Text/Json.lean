import CodeShare.Text.JsString
import Mathlib.Data.Nat.Digits.Defs

/-! # JSON values and `JSON.stringify`

`Json` is the value domain of test case inputs, expected outputs and harness results. Objects keep
their members in property order. A finite number is held as ECMAScript's `Number::toString` takes
it apart: sign, the shortest decimal significand and its decimal exponent.
-/

namespace CodeShare
set_option autoImplicit false

/-- A finite number of value `± significand * 10 ^ (exponent - k)`, where `k` is the number of digits
of `significand`. The significand is as short as possible. -/
structure JsNumber where
  negative : Bool
  significand : ℕ
  exponent : ℤ
  shortest : significand = 0 ∨ significand % 10 ≠ 0 := by decide

inductive Json where
  | null
  | bool (value : Bool)
  | num (value : JsNumber)
  | str (text : JsString)
  | arr (items : List Json)
  | obj (members : List (JsString × Json))

/-! ## Numbers -/

/-- Decimal digits, most significant first, as code units. -/
def digitUnits (n : ℕ) : JsString := (Nat.digits 10 n).reverse.map (48 + ·)

/-- A natural number in a template literal. -/
def decimalUnits (n : ℕ) : JsString := if n = 0 then [48] else digitUnits n

/-- `n` zeros. -/
def zeroUnits (n : ℕ) : JsString := List.replicate n 48

/-- `e`, the sign, and the digits of the exponent. -/
def exponentUnits (e : ℤ) : JsString := 101 :: (if e < 0 then 45 else 43) :: digitUnits e.natAbs

/-- A nonzero magnitude: the four layouts of `Number::toString`. -/
def magnitudeUnits (significand : ℕ) (exponent : ℤ) : JsString :=
  let digits := digitUnits significand
  let k : ℤ := digits.length
  if k ≤ exponent ∧ exponent ≤ 21 then digits ++ zeroUnits (exponent - k).toNat
  else if 0 < exponent ∧ exponent ≤ 21 then
    digits.take exponent.toNat ++ 46 :: digits.drop exponent.toNat
  else if -6 < exponent ∧ exponent ≤ 0 then 48 :: 46 :: (zeroUnits (-exponent).toNat ++ digits)
  else
    match digits with
    | [digit] => digit :: exponentUnits (exponent - 1)
    | digit :: rest => digit :: 46 :: (rest ++ exponentUnits (exponent - 1))
    | [] => []

/-- `Number::toString`; both zeros are written `0`. -/
def JsNumber.toUnits (x : JsNumber) : JsString :=
  if x.significand = 0 then [48]
  else if x.negative then 45 :: magnitudeUnits x.significand x.exponent
  else magnitudeUnits x.significand x.exponent

/-! ## Strings -/

def hexUnit (n : ℕ) : ℕ := if n < 10 then 48 + n else 87 + n

/-- `\uXXXX` in lower case. -/
def unicodeEscape (c : ℕ) : JsString :=
  [92, 117, hexUnit (c / 4096 % 16), hexUnit (c / 256 % 16), hexUnit (c / 16 % 16), hexUnit (c % 16)]

/-- QuoteJSONString on one code point. -/
def escapeCodePoint (c : ℕ) : JsString :=
  if c = 8 then [92, 98]
  else if c = 9 then [92, 116]
  else if c = 10 then [92, 110]
  else if c = 12 then [92, 102]
  else if c = 13 then [92, 114]
  else if c = 34 then [92, 34]
  else if c = 92 then [92, 92]
  else if c < 32 ∨ isSurrogate c then unicodeEscape c
  else [c]

def escapeUnits : JsString → JsString
  | high :: low :: rest =>
    if isHighSurrogate high && isLowSurrogate low then high :: low :: escapeUnits rest
    else escapeCodePoint high ++ escapeUnits (low :: rest)
  | [c] => escapeCodePoint c
  | [] => []

/-- QuoteJSONString. -/
def quoteUnits (text : JsString) : JsString := 34 :: (escapeUnits text ++ [34])

/-! ## Values -/

namespace Json

/-- The layout of `JSON.stringify` without indentation, for a given way of writing strings. -/
def layout (quote : JsString → List ℕ) : Json → List ℕ
  | null => js "null"
  | bool true => js "true"
  | bool false => js "false"
  | num x => x.toUnits
  | str text => quote text
  | arr items => 91 :: layoutItems items
  | obj members => 123 :: layoutMembers members
where
  layoutItems : List Json → List ℕ
    | [] => [93]
    | [v] => layout quote v ++ [93]
    | v :: rest => layout quote v ++ 44 :: layoutItems rest
  layoutMembers : List (JsString × Json) → List ℕ
    | [] => [125]
    | [(k, v)] => quote k ++ 58 :: (layout quote v ++ [125])
    | (k, v) :: rest => quote k ++ 58 :: (layout quote v ++ 44 :: layoutMembers rest)

theorem layoutItems_cons_cons (quote : JsString → List ℕ) (v w : Json) (rest : List Json) :
    layout.layoutItems quote (v :: w :: rest) =
      layout quote v ++ 44 :: layout.layoutItems quote (w :: rest) := by
  rw [layout.layoutItems]
  simp

theorem layoutMembers_cons_cons (quote : JsString → List ℕ) (k : JsString) (v : Json)
    (m : JsString × Json) (rest : List (JsString × Json)) :
    layout.layoutMembers quote ((k, v) :: m :: rest) =
      quote k ++ 58 :: (layout quote v ++ 44 :: layout.layoutMembers quote (m :: rest)) := by
  rw [layout.layoutMembers]
  simp

/-- `JSON.stringify`. -/
def stringify (v : Json) : JsString := layout quoteUnits v

end Json
end CodeShare
