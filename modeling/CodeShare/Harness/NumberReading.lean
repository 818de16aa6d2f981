import CodeShare.Harness.Literals
import CodeShare.Text.Occurrence
import Mathlib.Data.Nat.Digits.Lemmas
import Mathlib.Tactic.Ring

/-! # Numbers of a JSON text in Python

`exists_numberText` splits each of the four layouts of `Number::toString` into integer part, fraction
and exponent; both languages put these together to the same integer or the same decimal value.
-/

namespace CodeShare.Harness
set_option autoImplicit false
set_option maxRecDepth 100000

/-- The text behind a value: nothing, or a comma or a closing bracket. -/
def Closed (rest : List ℕ) : Prop := rest = [] ∨ ∃ c r, rest = c :: r ∧ (c = 44 ∨ c = 93 ∨ c = 125)

def Digits (text : List ℕ) : Prop := ∀ c ∈ text, isDigit c = true

theorem readDigits_append {digits rest : List ℕ} (hdigits : Digits digits) (hne : digits ≠ [])
    (hrest : ∀ c ∈ rest.head?, isDigit c = false) :
    readDigits (digits ++ rest) = some (digits, rest) := by
  unfold readDigits
  rw [takeWhile_front hdigits hrest, dropWhile_front hdigits hrest]
  cases digits with
  | nil => exact absurd rfl hne
  | cons c digits => rfl

/-- The optional parts of a number, as `Number::toString` writes them. -/
def fractionText (fraction : List ℕ) : List ℕ := if fraction = [] then [] else 46 :: fraction

def exponentText : Option ℤ → List ℕ
  | none => []
  | some e => exponentUnits e

theorem decimalValue_digitUnits (n : ℕ) : decimalValue (digitUnits n) = n := by
  unfold decimalValue digitUnits
  rw [← List.map_reverse, List.reverse_reverse, List.map_map]
  have hid : (fun d => d - 48) ∘ (fun d => 48 + d) = id := by
    funext d
    simp
  rw [hid, List.map_id, Nat.ofDigits_digits]

theorem decimalValue_append (a b : List ℕ) :
    decimalValue (a ++ b) = decimalValue a * 10 ^ b.length + decimalValue b := by
  unfold decimalValue
  rw [List.reverse_append, List.map_append, Nat.ofDigits_append, List.length_map,
    List.length_reverse]
  ring

theorem decimalValue_zeroUnits (n : ℕ) : decimalValue (zeroUnits n) = 0 := by
  induction n with
  | zero => rfl
  | succ n ih =>
    rw [zeroUnits, List.replicate_succ, ← List.singleton_append, decimalValue_append, ← zeroUnits, ih]
    simp [decimalValue]

theorem digits_digitUnits (n : ℕ) : Digits (digitUnits n) := by
  intro c hc
  have h := digitUnits_range hc
  simp [isDigit, h.1, h.2]

theorem digits_zeroUnits (n : ℕ) : Digits (zeroUnits n) := by
  intro c hc
  rw [List.eq_of_mem_replicate hc]
  rfl

theorem digitUnits_ne_nil {n : ℕ} (hn : n ≠ 0) : digitUnits n ≠ [] := by
  rw [digitUnits, Ne, List.map_eq_nil_iff, List.reverse_eq_nil_iff]
  exact Nat.digits_ne_nil_iff_ne_zero.mpr hn

/-- A positive number has no leading zero. -/
theorem head_digitUnits {n c : ℕ} (h : (digitUnits n).head? = some c) : c ≠ 48 := by
  unfold digitUnits at h
  rw [List.head?_map, List.head?_reverse, Option.map_eq_some_iff] at h
  obtain ⟨d, hd, rfl⟩ := h
  have hne : Nat.digits 10 n ≠ [] := by
    intro hnil
    rw [hnil] at hd
    cases hd
  have hlast := Nat.getLast_digit_ne_zero 10 (fun hz => hne (by rw [hz]; rfl) : n ≠ 0)
  rw [List.getLast?_eq_some_getLast hne, Option.some.injEq] at hd
  rw [hd] at hlast
  omega

/-- The parts of the text of a positive number. -/
structure NumberText (significand : ℕ) (exponent : ℤ) where
  whole : List ℕ
  fraction : List ℕ
  power : Option ℤ
  text : magnitudeUnits significand exponent = whole ++ (fractionText fraction ++ exponentText power)
  whole_digits : Digits whole
  whole_ne_nil : whole ≠ []
  fraction_digits : Digits fraction
  power_ne_zero : power ≠ some 0
  integer : (fraction = [] ∧ power = none) ↔
    ((digitUnits significand).length : ℤ) ≤ exponent ∧ exponent ≤ 21
  leading_zero : whole.head? = some 48 → whole = [48] ∧ fraction ≠ []
  integer_value : (fraction = [] ∧ power = none) → (decimalValue whole : ℤ) =
    significand * 10 ^ (exponent - (digitUnits significand).length).toNat
  value : decimalLiteral whole fraction power =
    significand * 10 ^ (exponent - (digitUnits significand).length)

theorem decimalLiteral_eq {whole fraction : List ℕ} {power : Option ℤ} {significand : ℕ} {e : ℤ}
    (hvalue : decimalValue (whole ++ fraction) = significand)
    (he : power.getD 0 - fraction.length = e) :
    decimalLiteral whole fraction power = significand * 10 ^ e := by
  rw [decimalLiteral, hvalue, he]

/-! ### The layouts of `Number::toString` -/

section Layouts
variable {significand : ℕ} {exponent : ℤ}

/-- An integer with its zeros. -/
theorem integer_numberText (hs : significand ≠ 0)
    (hinteger : ((digitUnits significand).length : ℤ) ≤ exponent ∧ exponent ≤ 21) :
    Nonempty (NumberText significand exponent) := by
  have hne := digitUnits_ne_nil hs
  have hval : decimalValue (digitUnits significand ++
      zeroUnits (exponent - (digitUnits significand).length).toNat) =
      significand * 10 ^ (exponent - (digitUnits significand).length).toNat := by
    rw [decimalValue_append, decimalValue_digitUnits, decimalValue_zeroUnits, zeroUnits, List.length_replicate,
      Nat.add_zero]
  refine ⟨⟨digitUnits significand ++ zeroUnits (exponent - (digitUnits significand).length).toNat,
    [], none, ?_, ?_, ?_, ?_, ?_, ?_, ?_, ?_, ?_⟩⟩
  · simp [magnitudeUnits, hinteger, fractionText, exponentText]
  · intro c hc
    rcases List.mem_append.mp hc with hc | hc
    · exact digits_digitUnits significand c hc
    · exact digits_zeroUnits _ c hc
  · simp [hne]
  · simp [Digits]
  · simp
  · simp [hinteger]
  · intro h
    rw [List.head?_append_of_ne_nil _ hne] at h
    exact absurd rfl (head_digitUnits h)
  · intro _
    rw [hval]
    push_cast
    rfl
  · rw [decimalLiteral, List.append_nil, hval]
    have hpow : (exponent - ((digitUnits significand).length : ℤ)) =
      ((exponent - (digitUnits significand).length).toNat : ℤ) := by omega
    rw [hpow]
    push_cast
    simp

/-- Digits before and behind the point. -/
theorem mixed_numberText (hs : significand ≠ 0)
    (hinteger : ¬ (((digitUnits significand).length : ℤ) ≤ exponent ∧ exponent ≤ 21))
    (hmixed : 0 < exponent ∧ exponent ≤ 21) : Nonempty (NumberText significand exponent) := by
  have hdigits := digits_digitUnits significand
  have hdrop : (digitUnits significand).drop exponent.toNat ≠ [] := by
    rw [Ne, List.drop_eq_nil_iff]
    omega
  refine ⟨⟨(digitUnits significand).take exponent.toNat,
    (digitUnits significand).drop exponent.toNat, none, ?_, ?_, ?_, ?_, ?_, ?_, ?_, ?_, ?_⟩⟩
  · simp only [magnitudeUnits, if_neg hinteger, if_pos hmixed, fractionText, if_neg hdrop, exponentText,
      List.append_nil]
  · exact fun c hc => hdigits c (List.mem_of_mem_take hc)
  · intro h
    rcases List.take_eq_nil_iff.mp h with h | h
    · omega
    · exact digitUnits_ne_nil hs h
  · exact fun c hc => hdigits c (List.mem_of_mem_drop hc)
  · simp
  · simp only [hdrop, false_and, false_iff]
    exact hinteger
  · intro h
    rw [List.head?_take, if_neg (by omega)] at h
    exact absurd rfl (head_digitUnits h)
  · exact fun h => absurd h.1 hdrop
  · apply decimalLiteral_eq
    · rw [List.take_append_drop, decimalValue_digitUnits]
    · simp only [Option.getD_none, List.length_drop]
      omega

/-- All digits behind the point. -/
theorem fraction_numberText (hs : significand ≠ 0)
    (hinteger : ¬ (((digitUnits significand).length : ℤ) ≤ exponent ∧ exponent ≤ 21))
    (hmixed : ¬ (0 < exponent ∧ exponent ≤ 21)) (hfraction : -6 < exponent ∧ exponent ≤ 0) :
    Nonempty (NumberText significand exponent) := by
  have hne := digitUnits_ne_nil hs
  refine ⟨⟨[48], zeroUnits (-exponent).toNat ++ digitUnits significand, none,
    ?_, ?_, ?_, ?_, ?_, ?_, ?_, ?_, ?_⟩⟩
  · simp only [magnitudeUnits, if_neg hinteger, if_neg hmixed, if_pos hfraction, fractionText, exponentText]
    simp [hne]
  · simp [Digits, isDigit]
  · simp
  · intro c hc
    rcases List.mem_append.mp hc with hc | hc
    · exact digits_zeroUnits _ c hc
    · exact digits_digitUnits significand c hc
  · simp
  · simp only [List.append_eq_nil_iff, hne, and_false, false_and, false_iff]
    exact hinteger
  · exact fun _ => ⟨rfl, by simp [hne]⟩
  · exact fun h => absurd (List.append_eq_nil_iff.mp h.1).2 hne
  · apply decimalLiteral_eq
    · rw [decimalValue_append, decimalValue_append, decimalValue_digitUnits, decimalValue_zeroUnits]
      simp [decimalValue]
    · simp only [Option.getD_none, List.length_append, zeroUnits, List.length_replicate]
      push_cast
      omega

/-- One digit before the point, and a power of ten. -/
theorem scientific_numberText (hs : significand ≠ 0)
    (hinteger : ¬ (((digitUnits significand).length : ℤ) ≤ exponent ∧ exponent ≤ 21))
    (hmixed : ¬ (0 < exponent ∧ exponent ≤ 21)) (hfraction : ¬ (-6 < exponent ∧ exponent ≤ 0)) :
    Nonempty (NumberText significand exponent) := by
  have hdigits := digits_digitUnits significand
  obtain ⟨digit, rest, hsplit⟩ := List.exists_cons_of_ne_nil (digitUnits_ne_nil hs)
  have hlength : (digitUnits significand).length = rest.length + 1 := by
    rw [hsplit, List.length_cons]
  refine ⟨⟨[digit], rest, some (exponent - 1), ?_, ?_, ?_, ?_, ?_, ?_, ?_, ?_, ?_⟩⟩
  · simp only [magnitudeUnits, if_neg hinteger, if_neg hmixed, if_neg hfraction]
    rw [hsplit]
    cases rest with
    | nil => simp [fractionText, exponentText]
    | cons a rest => simp [fractionText, exponentText]
  · intro c hc
    rw [List.mem_singleton] at hc
    exact hdigits c (by simp [hsplit, hc])
  · simp
  · exact fun c hc => hdigits c (by simp [hsplit, hc])
  · simp only [ne_eq, Option.some.injEq]
    omega
  · simp only [reduceCtorEq, and_false, false_iff]
    exact hinteger
  · intro h
    have hhead : (digitUnits significand).head? = some 48 := by
      rw [hsplit]
      simpa using h
    exact absurd rfl (head_digitUnits hhead)
  · exact fun h => absurd h.2 (by simp)
  · apply decimalLiteral_eq
    · rw [List.singleton_append, ← hsplit, decimalValue_digitUnits]
    · simp only [Option.getD_some]
      omega

theorem exists_numberText (hs : significand ≠ 0) (exponent : ℤ) : Nonempty (NumberText significand exponent) := by
  by_cases hinteger : ((digitUnits significand).length : ℤ) ≤ exponent ∧ exponent ≤ 21
  · exact integer_numberText hs hinteger
  · by_cases hmixed : 0 < exponent ∧ exponent ≤ 21
    · exact mixed_numberText hs hinteger hmixed
    · by_cases hfraction : -6 < exponent ∧ exponent ≤ 0
      · exact fraction_numberText hs hinteger hmixed hfraction
      · exact scientific_numberText hs hinteger hmixed hfraction

end Layouts

section Reading
variable {Double : Type} {round : ℚ → Double}

theorem Closed.head {rest : List ℕ} (h : Closed rest) {c : ℕ} (hc : c ∈ rest.head?) :
    c = 44 ∨ c = 93 ∨ c = 125 := by
  rcases h with rfl | ⟨d, r, rfl, hd⟩
  · cases hc
  · rw [List.head?_cons, Option.mem_some_iff] at hc
    rw [← hc]
    exact hd

theorem exponentText_head {power : Option ℤ} {rest : List ℕ} (hrest : Closed rest) {c : ℕ}
    (hc : c ∈ (exponentText power ++ rest).head?) : isDigit c = false ∧ c ≠ 46 := by
  have hcases : c = 101 ∨ c = 44 ∨ c = 93 ∨ c = 125 := by
    cases power with
    | none => exact Or.inr (hrest.head hc)
    | some e =>
      rw [exponentText, exponentUnits, List.cons_append, List.head?_cons, Option.mem_some_iff] at hc
      exact Or.inl hc.symm
  rcases hcases with rfl | rfl | rfl | rfl <;> decide

theorem readFraction_text {fraction rest : List ℕ} (hdigits : Digits fraction)
    (hrest : ∀ c ∈ rest.head?, isDigit c = false ∧ c ≠ 46) :
    readFraction (fractionText fraction ++ rest) = some (fraction, rest) := by
  by_cases hf : fraction = []
  · subst hf
    cases rest with
    | nil => rfl
    | cons c r =>
      have hc := (hrest c (by simp)).2
      rw [fractionText, if_pos rfl, List.nil_append, readFraction]
      exact fun _ h => hc (List.cons.inj h).1
  · rw [fractionText, if_neg hf, List.cons_append, readFraction]
    exact readDigits_append hdigits hf fun c hc => (hrest c hc).1

theorem readExponent_text {power : Option ℤ} (hpower : power ≠ some 0) {rest : List ℕ}
    (hrest : Closed rest) : readExponent (exponentText power ++ rest) = some (power, rest) := by
  have hstop : ∀ c ∈ rest.head?, isDigit c = false := by
    intro c hc
    rcases hrest.head hc with rfl | rfl | rfl <;> decide
  cases power with
  | none =>
    rcases hrest with rfl | ⟨c, r, rfl, hc⟩
    · rfl
    · rw [exponentText, List.nil_append, readExponent, if_neg (by omega)]
  | some e =>
    have hne : digitUnits e.natAbs ≠ [] := by
      apply digitUnits_ne_nil
      simpa using hpower
    have hread := readDigits_append (digits_digitUnits e.natAbs) hne hstop
    rw [exponentText, exponentUnits, List.cons_append, List.cons_append, readExponent,
      if_pos (Or.inl rfl)]
    by_cases he : e < 0
    · simp only [if_pos he, readSign, hread, Option.map_some, decimalValue_digitUnits, if_true,
        Option.some.injEq, Prod.mk.injEq, and_true]
      omega
    · simp only [if_neg he, readSign, hread, Option.map_some, decimalValue_digitUnits,
        Bool.false_eq_true, if_false, Option.some.injEq, Prod.mk.injEq, and_true]
      omega

/-- What both languages make of a positive number. -/
def magnitudeToPython (round : ℚ → Double) (negative : Bool) (significand : ℕ) (exponent : ℤ) :
    PyVal Double :=
  let k : ℤ := (digitUnits significand).length
  if k ≤ exponent ∧ exponent ≤ 21 then
    let magnitude : ℤ := significand * 10 ^ (exponent - k).toNat
    .int (if negative then -magnitude else magnitude)
  else .float negative (round (significand * 10 ^ (exponent - k)))

theorem neg_magnitudeToPython (significand : ℕ) (exponent : ℤ) :
    (magnitudeToPython round false significand exponent).neg =
      some (magnitudeToPython round true significand exponent) := by
  unfold magnitudeToPython
  by_cases h : ((digitUnits significand).length : ℤ) ≤ exponent ∧ exponent ≤ 21
  · simp [h, PyVal.neg]
  · simp [h, PyVal.neg]

theorem readDigits_whole {significand : ℕ} {exponent : ℤ} (t : NumberText significand exponent)
    {rest : List ℕ} (hrest : Closed rest) :
    readDigits (magnitudeUnits significand exponent ++ rest) =
      some (t.whole, fractionText t.fraction ++ (exponentText t.power ++ rest)) := by
  rw [t.text, List.append_assoc, List.append_assoc]
  refine readDigits_append t.whole_digits t.whole_ne_nil fun c hc => ?_
  by_cases hf : t.fraction = []
  · rw [fractionText, if_pos hf, List.nil_append] at hc
    exact (exponentText_head hrest hc).1
  · rw [fractionText, if_neg hf, List.cons_append, List.head?_cons, Option.mem_some_iff] at hc
    rw [← hc]
    rfl

theorem readFraction_tail {significand : ℕ} {exponent : ℤ} (t : NumberText significand exponent)
    {rest : List ℕ} (hrest : Closed rest) :
    readFraction (fractionText t.fraction ++ (exponentText t.power ++ rest)) =
      some (t.fraction, exponentText t.power ++ rest) :=
  readFraction_text t.fraction_digits fun _ => exponentText_head hrest

/-- The text starts with a digit. -/
theorem magnitudeUnits_head {significand : ℕ} {exponent : ℤ} (t : NumberText significand exponent) :
    ∃ c r, magnitudeUnits significand exponent = c :: r ∧ t.whole.head? = some c ∧
      isDigit c = true := by
  obtain ⟨c, r, hw⟩ := List.exists_cons_of_ne_nil t.whole_ne_nil
  refine ⟨c, r ++ (fractionText t.fraction ++ exponentText t.power), ?_, by rw [hw]; rfl,
    t.whole_digits c (by simp [hw])⟩
  rw [t.text, hw, List.cons_append]

theorem readWhole_magnitude {significand : ℕ} {exponent : ℤ} (t : NumberText significand exponent)
    {rest : List ℕ} (hrest : Closed rest) :
    readWhole (magnitudeUnits significand exponent ++ rest) =
      some (t.whole, fractionText t.fraction ++ (exponentText t.power ++ rest)) := by
  obtain ⟨c, r, htext, hhead, -⟩ := magnitudeUnits_head t
  by_cases hc : c = 48
  · subst hc
    have hwhole := (t.leading_zero hhead).1
    rw [t.text, hwhole, List.append_assoc, List.append_assoc, List.singleton_append, readWhole]
  · have hdigits := readDigits_whole t hrest
    rw [htext, List.cons_append] at hdigits ⊢
    rw [readWhole, hdigits]
    exact fun _ h => hc (List.cons.inj h).1

variable (round)

theorem pythonNumber_magnitude {significand : ℕ} (hs : significand ≠ 0) (exponent : ℤ)
    {rest : List ℕ} (hrest : Closed rest) :
    pythonNumber round (magnitudeUnits significand exponent ++ rest) =
      some (magnitudeToPython round false significand exponent, rest) := by
  obtain ⟨t⟩ := exists_numberText hs exponent
  have hexponent := readExponent_text t.power_ne_zero hrest
  unfold pythonNumber magnitudeToPython
  simp only [readDigits_whole t hrest, readFraction_tail t hrest, hexponent, Option.bind_eq_bind,
    Option.bind_some]
  by_cases hint : t.fraction = [] ∧ t.power = none
  · have hlead : ¬ (t.whole.head? = some 48 ∧ decimalValue t.whole ≠ 0) :=
      fun h => (t.leading_zero h.1).2 hint.1
    rw [if_pos hint, if_neg hlead, if_pos (t.integer.mp hint), t.integer_value hint]
    simp
  · rw [if_neg hint, if_neg (fun h => hint (t.integer.mpr h)), t.value]

theorem jsonMagnitude_magnitude {significand : ℕ} (hs : significand ≠ 0) (exponent : ℤ)
    {rest : List ℕ} (hrest : Closed rest) (negative : Bool) :
    jsonMagnitude round negative (magnitudeUnits significand exponent ++ rest) =
      some (magnitudeToPython round negative significand exponent, rest) := by
  obtain ⟨t⟩ := exists_numberText hs exponent
  have hexponent := readExponent_text t.power_ne_zero hrest
  unfold jsonMagnitude magnitudeToPython
  simp only [readWhole_magnitude t hrest, readFraction_tail t hrest, hexponent, Option.bind_eq_bind,
    Option.bind_some]
  by_cases hint : t.fraction = [] ∧ t.power = none
  · rw [if_pos hint, if_pos (t.integer.mp hint), t.integer_value hint]
  · rw [if_neg hint, if_neg (fun h => hint (t.integer.mpr h)), t.value]

theorem numberToPython_of_ne {x : JsNumber} (hx : x.significand ≠ 0) :
    numberToPython round x = magnitudeToPython round x.negative x.significand x.exponent := by
  rw [numberToPython, if_neg hx]
  rfl

theorem number_zero {rest : List ℕ} (hrest : Closed rest) :
    pythonNumber round (48 :: rest) = some (.int 0, rest) ∧
      jsonMagnitude round false (48 :: rest) = some (.int 0, rest) := by
  have hnone : exponentText none ++ rest = rest := rfl
  have hhead : ∀ c ∈ rest.head?, isDigit c = false ∧ c ≠ 46 := by
    rw [← hnone]
    exact fun _ => exponentText_head hrest
  have hdigits : readDigits ([48] ++ rest) = some ([48], rest) :=
    readDigits_append (by simp [Digits, isDigit]) (by simp) fun c hc => (hhead c hc).1
  rw [List.singleton_append] at hdigits
  have hfraction : readFraction (fractionText [] ++ rest) = some ([], rest) :=
    readFraction_text (by simp [Digits]) hhead
  rw [fractionText, if_pos rfl, List.nil_append] at hfraction
  have hexponent : readExponent rest = some (none, rest) := by
    rw [← hnone]
    exact readExponent_text (by simp) hrest
  constructor
  · simp [pythonNumber, hdigits, hfraction, hexponent, decimalValue]
  · simp [jsonMagnitude, readWhole, hfraction, hexponent, decimalValue]

theorem pythonSigned_number (x : JsNumber) {rest : List ℕ} (hrest : Closed rest) :
    pythonSigned round (x.toUnits ++ rest) = some (numberToPython round x, rest) := by
  by_cases hx : x.significand = 0
  · rw [JsNumber.toUnits, if_pos hx, numberToPython, if_pos hx, List.singleton_append, pythonSigned,
      (number_zero round hrest).1]
    simp
  · obtain ⟨t⟩ := exists_numberText hx x.exponent
    obtain ⟨c, r, htext, -, hdigit⟩ := magnitudeUnits_head t
    have hread := pythonNumber_magnitude round hx x.exponent hrest
    rw [JsNumber.toUnits, if_neg hx, numberToPython_of_ne round hx]
    cases hneg : x.negative with
    | true =>
      rw [if_pos rfl, List.cons_append, pythonSigned, hread]
      simp [neg_magnitudeToPython]
    | false =>
      rw [if_neg (by decide)]
      rw [htext, List.cons_append] at hread ⊢
      rw [pythonSigned, hread]
      rintro _ h
      rw [(List.cons.inj h).1] at hdigit
      cases hdigit

theorem jsonNumber_number (x : JsNumber) {rest : List ℕ} (hrest : Closed rest) :
    jsonNumber round (x.toUnits ++ rest) = some (numberToPython round x, rest) := by
  by_cases hx : x.significand = 0
  · rw [JsNumber.toUnits, if_pos hx, numberToPython, if_pos hx, List.singleton_append, jsonNumber,
      (number_zero round hrest).2]
    simp
  · obtain ⟨t⟩ := exists_numberText hx x.exponent
    obtain ⟨c, r, htext, -, hdigit⟩ := magnitudeUnits_head t
    have hread := jsonMagnitude_magnitude round hx x.exponent hrest
    rw [JsNumber.toUnits, if_neg hx, numberToPython_of_ne round hx]
    cases hneg : x.negative with
    | true => rw [if_pos rfl, List.cons_append, jsonNumber, hread]
    | false =>
      have hread := hread false
      rw [if_neg (by decide)]
      rw [htext, List.cons_append] at hread ⊢
      rw [jsonNumber, hread]
      rintro _ h
      rw [(List.cons.inj h).1] at hdigit
      cases hdigit

end Reading

end CodeShare.Harness
