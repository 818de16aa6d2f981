import CodeShare.Foundations.Substitution
import Mathlib.Data.List.DropRight
import Mathlib.Algebra.GroupWithZero.Nat

/-! # JavaScript strings

A JavaScript string is the list of its UTF-16 code units; lone surrogates are allowed. The module
has the string operations the server's modelled code uses: literals, code points, UTF-8 length,
`String.prototype.replace` with a string pattern, trimming, and searching in both directions.
-/

namespace CodeShare
open Substitution
set_option autoImplicit false

/-- The values of the UTF-16 code units. -/
abbrev JsString := List ℕ

instance : LawfulBEq JsString := inferInstance

/-- A literal of the source text (ASCII throughout). -/
def js (literal : String) : JsString := literal.toList.map Char.toNat

/-- `Array.prototype.join`. -/
def joinTexts (separator : JsString) (texts : List JsString) : JsString :=
  (texts.intersperse separator).flatten

/-! ## Code points -/

def isHighSurrogate (c : ℕ) : Bool := 0xD800 ≤ c && c ≤ 0xDBFF

def isLowSurrogate (c : ℕ) : Bool := 0xDC00 ≤ c && c ≤ 0xDFFF

def isSurrogate (c : ℕ) : Bool := isHighSurrogate c || isLowSurrogate c

def surrogatePair (high low : ℕ) : ℕ := 0x10000 + (high - 0xD800) * 0x400 + (low - 0xDC00)

/-- StringToCodePoints: paired surrogates are one code point, lone ones stand for themselves. -/
def codePoints : JsString → List ℕ
  | high :: low :: rest =>
    if isHighSurrogate high && isLowSurrogate low then
      surrogatePair high low :: codePoints rest
    else high :: codePoints (low :: rest)
  | short => short

/-- Number of bytes of the UTF-8 encoding; a lone surrogate is written as U+FFFD. -/
def utf8Length (text : JsString) : ℕ :=
  ((codePoints text).map fun c =>
    if c < 0x80 then 1 else if c < 0x800 then 2 else if c < 0x10000 then 3 else 4).sum

theorem codePoints_cons {c : ℕ} (hc : isHighSurrogate c = false) (rest : JsString) :
    codePoints (c :: rest) = c :: codePoints rest := by
  cases rest with
  | nil => rfl
  | cons b rest => simp [codePoints, hc]

/-- Text without high surrogates is its own list of code points. -/
theorem codePoints_of_plain {s : JsString} (h : ∀ c ∈ s, isHighSurrogate c = false) :
    codePoints s = s := by
  induction s with
  | nil => rfl
  | cons c s ih =>
    rw [codePoints_cons (h c (by simp)), ih (fun b hb => h b (by simp [hb]))]

/-! ## String.prototype.replace -/

def dollar : ℕ := 36

/-- GetSubstitution for a string pattern: what a letter means behind a dollar sign. There are no
captures, so `$n` and `$<` stand for themselves. -/
def substitutionEscape (matched str : JsString) (position : ℕ) (c : ℕ) : Option JsString :=
  if c = dollar then some [dollar]
  else if c = 38 then some matched  -- `$&`
  else if c = 96 then some (str.take position)  -- "$`"
  else if c = 39 then some (str.drop (position + matched.length))  -- `$'`
  else none

def getSubstitution (matched str : JsString) (position : ℕ) (replacement : JsString) : JsString :=
  expand dollar (substitutionEscape matched str position) replacement

/-- `str.replace(pattern, replacement)` with a string pattern: the first occurrence only. -/
def replace (str pattern replacement : JsString) : JsString :=
  match firstIndex pattern str with
  | none => str
  | some position =>
    str.take position ++ getSubstitution pattern str position replacement ++
      str.drop (position + pattern.length)

theorem replace_eq_substitute (str pattern replacement : JsString) {position : ℕ}
    (h : firstIndex pattern str = some position) :
    replace str pattern replacement =
      substitute pattern (getSubstitution pattern str position replacement) str := by
  rw [substitute_eq_splice, replace, h]

/-- The text has no `$$`, `$&`, ``$` `` or `$'`. -/
def DollarFree (text : JsString) : Prop :=
  ∀ c ∈ [36, 38, 96, 39], ¬ [dollar, c] <:+: text

instance (text : JsString) : Decidable (DollarFree text) := by
  unfold DollarFree
  infer_instance

theorem escapeFree_iff_dollarFree (matched str text : JsString) (position : ℕ) :
    EscapeFree dollar (substitutionEscape matched str position) text ↔ DollarFree text := by
  constructor
  · intro h c hc hi
    have hn := h c hi
    simp only [List.mem_cons, List.not_mem_nil, or_false] at hc
    rcases hc with rfl | rfl | rfl | rfl <;> simp [substitutionEscape, dollar] at hn
  · intro h c hi
    by_contra hn
    refine h c ?_ hi
    unfold substitutionEscape at hn
    split_ifs at hn with h1 h2 h3 h4
    · simp [h1, dollar]
    · simp [h2]
    · simp [h3]
    · simp [h4]
    · exact absurd rfl hn

theorem getSubstitution_of_dollarFree {text : JsString} (h : DollarFree text)
    (matched str : JsString) (position : ℕ) : getSubstitution matched str position text = text :=
  expand_of_escapeFree ((escapeFree_iff_dollarFree matched str text position).mpr h)

/-! ## Scanning the front of a text -/

section Front
variable {α : Type} {p : α → Bool} {front rest : List α}

theorem takeWhile_front (hfront : ∀ c ∈ front, p c = true) (hrest : ∀ c ∈ rest.head?, p c = false) :
    (front ++ rest).takeWhile p = front := by
  rw [List.takeWhile_append_of_pos hfront]
  cases rest with
  | nil => simp
  | cons c r => simp [hrest c (by simp)]

theorem dropWhile_front (hfront : ∀ c ∈ front, p c = true) (hrest : ∀ c ∈ rest.head?, p c = false) :
    (front ++ rest).dropWhile p = rest := by
  rw [List.dropWhile_append_of_pos hfront]
  cases rest with
  | nil => simp
  | cons c r => simp [hrest c (by simp)]

/-- The front of a text before the first `c`. -/
theorem takeWhile_append_cons [DecidableEq α] {c : α} (h : c ∉ front) (rest : List α) :
    (front ++ c :: rest).takeWhile (· ≠ c) = front := by
  apply takeWhile_front
  · intro x hx
    exact decide_eq_true fun heq => h (heq ▸ hx)
  · simp

end Front

/-! ## White space and searching -/

/-- White space in a regular expression. -/
def isRegexSpace (c : ℕ) : Bool :=
  (9 ≤ c && c ≤ 13) || c = 32 || c = 160 || c = 0x1680 || (0x2000 ≤ c && c ≤ 0x200A) || c = 0x2028 ||
    c = 0x2029 || c = 0x202F || c = 0x205F || c = 0x3000 || c = 0xFEFF

/-- `String.prototype.trim`. -/
def jsTrim (text : JsString) : JsString :=
  ((text.dropWhile isRegexSpace).reverse.dropWhile isRegexSpace).reverse

/-- Trimming takes the white space behind a text that starts and ends without any. -/
theorem jsTrim_append {first last : ℕ} {body space : JsString} (hfirst : isRegexSpace first = false)
    (hlast : isRegexSpace last = false) (hspace : ∀ c ∈ space, isRegexSpace c = true) :
    jsTrim (first :: (body ++ [last]) ++ space) = first :: (body ++ [last]) := by
  have hreverse : (first :: (body ++ [last])).reverse = last :: (first :: body).reverse := by simp
  have hback : ∀ c ∈ space.reverse, isRegexSpace c = true :=
    fun c hc => hspace c (List.mem_reverse.mp hc)
  unfold jsTrim
  rw [List.cons_append, List.dropWhile_cons_of_neg (by simp [hfirst]), ← List.cons_append,
    List.reverse_append, List.dropWhile_append_of_pos hback, hreverse,
    List.dropWhile_cons_of_neg (by simp [hlast]), ← hreverse, List.reverse_reverse]

theorem jsTrim_jsTrim (text : JsString) : jsTrim (jsTrim text) = jsTrim text := by
  have hstart : (jsTrim text).dropWhile isRegexSpace = jsTrim text := by
    refine List.dropWhile_eq_self_iff.mpr fun hlength => ?_
    have hstarts : jsTrim text <+: text.dropWhile isRegexSpace := List.rdropWhile_prefix _ _
    rw [hstarts.getElem hlength]
    exact List.dropWhile_get_zero_not _ _ _
  have hunfold : jsTrim (jsTrim text) =
      ((jsTrim text).dropWhile isRegexSpace).rdropWhile isRegexSpace := rfl
  rw [hunfold, hstart]
  exact List.rdropWhile_idempotent isRegexSpace (text.dropWhile isRegexSpace)

theorem jsTrim_map {f : ℕ → ℕ} (hf : ∀ c, isRegexSpace (f c) = isRegexSpace c) (text : JsString) :
    jsTrim (text.map f) = (jsTrim text).map f := by
  have hcomp : isRegexSpace ∘ f = isRegexSpace := funext hf
  unfold jsTrim
  rw [List.dropWhile_map, hcomp, ← List.map_reverse, List.dropWhile_map, hcomp, List.map_reverse]

/-- `String.prototype.toLowerCase` of an ASCII code unit. -/
def asciiLower (c : ℕ) : ℕ := if 65 ≤ c ∧ c ≤ 90 then c + 32 else c

/-- What is no lower-case letter comes from itself only. -/
theorem asciiLower_eq {c x : ℕ} (hc : c < 97) (h : asciiLower x = c) : x = c := by
  unfold asciiLower at h
  split_ifs at h <;> omega

theorem asciiLower_asciiLower (c : ℕ) : asciiLower (asciiLower c) = asciiLower c := by
  unfold asciiLower
  split_ifs with h h'
  · omega
  · rfl
  · rfl

theorem isRegexSpace_asciiLower (c : ℕ) : isRegexSpace (asciiLower c) = isRegexSpace c := by
  unfold asciiLower
  split_ifs with h
  · have hupper : isRegexSpace c = false := by simp [isRegexSpace]; omega
    have hlower : isRegexSpace (c + 32) = false := by simp [isRegexSpace]; omega
    rw [hupper, hlower]
  · rfl

/-- `text.indexOf(pattern, position)` for a pattern that is not empty; `none` is -1. -/
def indexOf (text pattern : JsString) (position : ℕ) : Option ℕ :=
  (firstIndex pattern (text.drop position)).map (position + ·)

/-- `text.lastIndexOf(pattern, position)` for a pattern that is not empty. -/
def lastIndexOf (text pattern : JsString) : ℕ → Option ℕ
  | 0 => if pattern <+: text then some 0 else none
  | position + 1 =>
    if pattern <+: text.drop (position + 1) then some (position + 1)
    else lastIndexOf text pattern position

section
variable {text pattern : JsString} {position p : ℕ}

theorem indexOf_eq_some (h : indexOf text pattern position = some p) :
    position ≤ p ∧ pattern <+: text.drop p ∧
      ∀ q, position ≤ q → q < p → ¬ pattern <+: text.drop q := by
  obtain ⟨i, hi, rfl⟩ := Option.map_eq_some_iff.mp h
  obtain ⟨hfound, hfirst⟩ := firstIndex_eq_some hi
  rw [List.drop_drop] at hfound
  refine ⟨Nat.le_add_right _ _, hfound, fun q hle hlt => ?_⟩
  obtain ⟨j, rfl⟩ := Nat.exists_eq_add_of_le hle
  have hj := hfirst j (by omega)
  rwa [List.drop_drop] at hj

theorem indexOf_eq_none (h : indexOf text pattern position = none) {q : ℕ} (hq : position ≤ q) :
    ¬ pattern <+: text.drop q := by
  intro hfound
  obtain ⟨j, rfl⟩ := Nat.exists_eq_add_of_le hq
  rw [← List.drop_drop] at hfound
  exact firstIndex_ne_none (hfound.isInfix.trans (List.drop_suffix j _).isInfix)
    (Option.map_eq_none_iff.mp h)

theorem lastIndexOf_eq_some (h : lastIndexOf text pattern position = some p) :
    p ≤ position ∧ pattern <+: text.drop p ∧
      ∀ q, p < q → q ≤ position → ¬ pattern <+: text.drop q := by
  induction position with
  | zero =>
    rw [lastIndexOf] at h
    split_ifs at h with hfound
    obtain rfl := Option.some.inj h
    exact ⟨le_rfl, hfound, fun q hlt hle => absurd hlt (by omega)⟩
  | succ position ih =>
    rw [lastIndexOf] at h
    split_ifs at h with hfound
    · obtain rfl := Option.some.inj h
      exact ⟨le_rfl, hfound, fun q hlt hle => absurd hlt (by omega)⟩
    · obtain ⟨hle, hstarts, hlast⟩ := ih h
      refine ⟨by omega, hstarts, fun q hlt hle' => ?_⟩
      rcases Nat.lt_or_eq_of_le hle' with hq | rfl
      · exact hlast q hlt (by omega)
      · exact hfound

theorem lastIndexOf_eq_none (h : lastIndexOf text pattern position = none) {q : ℕ}
    (hq : q ≤ position) : ¬ pattern <+: text.drop q := by
  induction position with
  | zero =>
    rw [lastIndexOf] at h
    split_ifs at h with hfound
    obtain rfl : q = 0 := by omega
    exact hfound
  | succ position ih =>
    rw [lastIndexOf] at h
    split_ifs at h with hfound
    rcases Nat.lt_or_eq_of_le hq with hlt | rfl
    · exact ih h (by omega)
    · exact hfound

end

end CodeShare
