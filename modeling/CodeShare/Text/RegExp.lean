import CodeShare.Foundations.Rewriting
import CodeShare.Text.JsString

/-! # Regular expressions

What the regular expressions of the services have in common: classes of code units, letters that match
in either case, and matches as lengths.
-/

namespace CodeShare
open Rewriting Substitution
set_option autoImplicit false

/-- `^` with the flag `m` matches behind one. -/
def isLineTerminator (c : ℕ) : Bool := c = 10 || c = 13 || c = 0x2028 || c = 0x2029

/-- `\w` -/
def isWordUnit (c : ℕ) : Bool :=
  (48 ≤ c && c ≤ 57) || (65 ≤ c && c ≤ 90) || c = 95 || (97 ≤ c && c ≤ 122)

/-- The text starts with the pattern. -/
def matchLiteral (pattern text : JsString) : Option ℕ :=
  if pattern <+: text then some pattern.length else none

/-- The same with the flag `i`. Outside ASCII no letter matches an ASCII letter. -/
def matchCaseless (pattern text : JsString) : Option ℕ :=
  if pattern.map asciiLower = (text.take pattern.length).map asciiLower then some pattern.length
  else none

/-- `text.replace` with the flag `g`, for a pattern without operators. -/
def replaceAll (pattern replacement : JsString) : JsString → JsString :=
  rewrite (matchLiteral pattern) fun _ => replacement

/-- Where the pattern first occurs, with the flag `i`. -/
def caselessIndex (pattern text : JsString) : Option ℕ :=
  firstIndex (pattern.map asciiLower) (text.map asciiLower)

/-- The opening text and everything up to the next closing text, with the flag `i`: what
`[\s\S]*?` stands for is as short as possible. -/
def matchBetween (opening closing text : JsString) : Option ℕ :=
  match matchCaseless opening text with
  | none => none
  | some n => (caselessIndex closing (text.drop n)).map fun position => n + position + closing.length

theorem matchCaseless_append (pattern rest : JsString) :
    matchCaseless pattern (pattern ++ rest) = some pattern.length := by
  rw [matchCaseless, List.take_left, if_pos rfl]

theorem caselessIndex_append {pattern inner rest : JsString}
    (h : PassedBy (pattern.map asciiLower) (inner.map asciiLower) ((pattern ++ rest).map asciiLower)) :
    caselessIndex pattern (inner ++ (pattern ++ rest)) = some inner.length := by
  rw [List.map_append] at h
  rw [caselessIndex, List.map_append, List.map_append, h.firstIndex_eq, List.length_map]

theorem matchBetween_append {opening closing inner rest : JsString}
    (h : PassedBy (closing.map asciiLower) (inner.map asciiLower) ((closing ++ rest).map asciiLower)) :
    matchBetween opening closing ((opening ++ inner ++ closing) ++ rest) =
      some (opening ++ inner ++ closing).length := by
  have hsplit : (opening ++ inner ++ closing) ++ rest = opening ++ (inner ++ (closing ++ rest)) := by
    simp only [List.append_assoc]
  unfold matchBetween
  rw [hsplit, matchCaseless_append]
  dsimp only
  rw [List.drop_left, caselessIndex_append h, List.length_append, List.length_append]
  rfl

theorem head?_splitOn (text : JsString) (c : ℕ) :
    (text.splitOn c).head? = some (text.takeWhile (· ≠ c)) := by
  induction text with
  | nil => rfl
  | cons x text ih =>
    rw [List.splitOn_cons_eq_if_modifyHead, List.takeWhile_cons]
    by_cases hx : x = c
    · simp [hx]
    · simp [hx, List.head?_modifyHead, ih]

end CodeShare
