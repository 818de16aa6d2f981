import CodeShare.Harness.Literals
import CodeShare.Text.Occurrence
import Mathlib.Data.List.Chain

/-! # Strings of a JSON text in Python

The code points of `JSON.stringify v` are the same layout with strings quoted by code point, and both
languages read such a string as the code points of the original. `json.loads` also joins escaped
surrogate pairs, but `JSON.stringify` escapes only lone surrogates.
-/

namespace CodeShare.Harness
set_option autoImplicit false
set_option maxRecDepth 100000

/-! ## Code points of a JSON text -/

/-- QuoteJSONString on code points. -/
def quotePoints (text : JsString) : List ℕ := 34 :: ((codePoints text).flatMap escapeCodePoint ++ [34])

theorem codePoints_plain_append {a : JsString} (ha : ∀ c ∈ a, isHighSurrogate c = false)
    (word : JsString) : codePoints (a ++ word) = a ++ codePoints word := by
  induction a with
  | nil => rfl
  | cons c a ih =>
    rw [List.cons_append, codePoints_cons (ha c (by simp)), ih (fun b hb => ha b (by simp [hb])),
      List.cons_append]

theorem escapeCodePoint_not_high (c : ℕ) : ∀ b ∈ escapeCodePoint c, isHighSurrogate b = false := by
  intro b hb
  by_cases hplain : IsPlain c
  · rw [escapeCodePoint_of_plain hplain, List.mem_singleton] at hb
    rw [hb]
    exact hplain.not_high
  · obtain ⟨r, hr, hrange⟩ := escapeCodePoint_of_not_plain hplain
    rw [hr] at hb
    have hlow : b ≤ 117 := by
      rcases List.mem_cons.mp hb with rfl | hb
      · decide
      · rcases hrange b hb with rfl | h
        · decide
        · exact h.2
    simp only [isHighSurrogate, Bool.and_eq_false_iff, decide_eq_false_iff_not, not_le]
    omega

theorem surrogatePair_range (high low : ℕ) : 0x10000 ≤ surrogatePair high low := by
  unfold surrogatePair
  omega

theorem escapeCodePoint_pair (high low : ℕ) :
    escapeCodePoint (surrogatePair high low) = [surrogatePair high low] := by
  have hrange := surrogatePair_range high low
  apply escapeCodePoint_of_plain
  refine ⟨by omega, by omega, by omega, ?_⟩
  simp only [isSurrogate, isHighSurrogate, isLowSurrogate, Bool.or_eq_false_iff,
    Bool.and_eq_false_iff, decide_eq_false_iff_not, not_le]
  omega

theorem codePoints_escapeUnits (s word : JsString) :
    codePoints (escapeUnits s ++ 34 :: word) =
      (codePoints s).flatMap escapeCodePoint ++ 34 :: codePoints word := by
  induction s using escapeUnits.induct with
  | case1 high low rest hpair ih =>
    rw [escapeUnits, if_pos hpair, List.cons_append, List.cons_append, codePoints, if_pos hpair, ih,
      codePoints, if_pos hpair, List.flatMap_cons, escapeCodePoint_pair high low, List.singleton_append,
      List.cons_append]
  | case2 high low rest hpair ih =>
    rw [escapeUnits, if_neg hpair, List.append_assoc,
      codePoints_plain_append (escapeCodePoint_not_high high), ih,
      codePoints, if_neg hpair, List.flatMap_cons, List.append_assoc]
  | case3 c =>
    rw [escapeUnits, codePoints_plain_append (escapeCodePoint_not_high c),
      codePoints_cons (by decide)]
    simp [codePoints]
  | case4 => simp [escapeUnits, codePoints, codePoints_cons (show isHighSurrogate 34 = false by decide)]

theorem codePoints_quoteUnits (s word : JsString) :
    codePoints (quoteUnits s ++ word) = quotePoints s ++ codePoints word := by
  rw [quoteUnits, quotePoints, List.cons_append, codePoints_cons (by decide), List.append_assoc,
    List.singleton_append, codePoints_escapeUnits]
  simp

mutual
theorem codePoints_layout (word : JsString) : ∀ v : Json,
    codePoints (v.layout quoteUnits ++ word) = v.layout quotePoints ++ codePoints word
  | .null | .bool true | .bool false => codePoints_plain_append (by decide) word
  | .num x => codePoints_plain_append (fun c hc => by
      have h := JsNumber.toUnits_range hc
      unfold IsNumberUnit at h
      simp only [isHighSurrogate, Bool.and_eq_false_iff, decide_eq_false_iff_not, not_le]
      omega) word
  | .str text => codePoints_quoteUnits text word
  | .arr items => by
      rw [Json.layout, List.cons_append, codePoints_cons (by decide), codePoints_layoutItems]
      rfl
  | .obj members => by
      rw [Json.layout, List.cons_append, codePoints_cons (by decide), codePoints_layoutMembers]
      rfl
theorem codePoints_layoutItems (word : JsString) : ∀ items : List Json,
    codePoints (Json.layout.layoutItems quoteUnits items ++ word) =
      Json.layout.layoutItems quotePoints items ++ codePoints word
  | [] => codePoints_cons (by decide) word
  | [v] => by
      simp only [Json.layout.layoutItems, List.append_assoc, List.singleton_append]
      rw [codePoints_layout, codePoints_cons (by decide)]
  | v :: w :: rest => by
      have ih := codePoints_layoutItems word (w :: rest)
      rw [Json.layoutItems_cons_cons, Json.layoutItems_cons_cons, List.append_assoc,
        List.cons_append, codePoints_layout, codePoints_cons (by decide), ih, List.append_assoc,
        List.cons_append]
theorem codePoints_layoutMembers (word : JsString) : ∀ members : List (JsString × Json),
    codePoints (Json.layout.layoutMembers quoteUnits members ++ word) =
      Json.layout.layoutMembers quotePoints members ++ codePoints word
  | [] => codePoints_cons (by decide) word
  | [(k, v)] => by
      simp only [Json.layout.layoutMembers, List.append_assoc, List.cons_append, List.nil_append]
      rw [codePoints_quoteUnits, codePoints_cons (by decide), codePoints_layout,
        codePoints_cons (by decide)]
  | (k, v) :: m :: rest => by
      have ih := codePoints_layoutMembers word (m :: rest)
      simp only [Json.layoutMembers_cons_cons, List.append_assoc, List.cons_append]
      rw [codePoints_quoteUnits, codePoints_cons (by decide), codePoints_layout,
        codePoints_cons (by decide), ih]
end

theorem codePoints_stringify (v : Json) : codePoints v.stringify = v.layout quotePoints := by
  have h := codePoints_layout [] v
  simpa [Json.stringify, codePoints] using h

/-! ## Strings -/

theorem hexValue_hexUnit {n : ℕ} (h : n < 16) : hexValue (hexUnit n) = some n := by
  unfold hexUnit hexValue
  by_cases hn : n < 10
  · rw [if_pos hn, if_pos (by omega)]
    congr 1
    omega
  · rw [if_neg hn, if_neg (by omega), if_pos (by omega)]
    congr 1
    omega

theorem hexQuad_unicodeEscape {c : ℕ} (hc : c < 65536) :
    hexQuad (hexUnit (c / 4096 % 16)) (hexUnit (c / 256 % 16)) (hexUnit (c / 16 % 16))
      (hexUnit (c % 16)) = some c := by
  have hmod : ∀ n, hexValue (hexUnit (n % 16)) = some (n % 16) :=
    fun n => hexValue_hexUnit (Nat.mod_lt n (by decide))
  simp only [hexQuad, hmod, Option.bind_eq_bind, Option.bind_some, Option.some.injEq]
  omega

/-- The three ways in which QuoteJSONString writes a code point; both languages read the letters of
the short escapes alike. -/
inductive Written (c : ℕ) : List ℕ → Prop
  | plain (hlow : 32 ≤ c) (hquote : c ≠ 34) (hback : c ≠ 92) : Written c [c]
  | short (letter : ℕ) (hu : letter ≠ 117) (hpython : pythonEscape letter = some c)
      (hjson : jsonEscape letter = some c) : Written c [92, letter]
  | unicode (hrange : c < 65536) : Written c (unicodeEscape c)

theorem written_escapeCodePoint (c : ℕ) : Written c (escapeCodePoint c) := by
  unfold escapeCodePoint
  split_ifs with h1 h2 h3 h4 h5 h6 h7 h8
  · exact .short 98 (by decide) (by rw [h1]; rfl) (by rw [h1]; rfl)
  · exact .short 116 (by decide) (by rw [h2]; rfl) (by rw [h2]; rfl)
  · exact .short 110 (by decide) (by rw [h3]; rfl) (by rw [h3]; rfl)
  · exact .short 102 (by decide) (by rw [h4]; rfl) (by rw [h4]; rfl)
  · exact .short 114 (by decide) (by rw [h5]; rfl) (by rw [h5]; rfl)
  · exact .short 34 (by decide) (by rw [h6]; rfl) (by rw [h6]; rfl)
  · exact .short 92 (by decide) (by rw [h7]; rfl) (by rw [h7]; rfl)
  · refine .unicode ?_
    rcases h8 with h | h
    · omega
    · simp only [isSurrogate, isHighSurrogate, isLowSurrogate, Bool.or_eq_true, Bool.and_eq_true,
        decide_eq_true_eq] at h
      omega
  · exact .plain (by omega) h6 h7

theorem pythonString_flatMap (points rest : List ℕ) :
    pythonString (points.flatMap escapeCodePoint ++ 34 :: rest) = some (points, rest) := by
  induction points with
  | nil => simp [pythonString]
  | cons c points ih =>
    rw [List.flatMap_cons, List.append_assoc]
    have hwritten := written_escapeCodePoint c
    generalize escapeCodePoint c = w at hwritten ⊢
    cases hwritten with
    | plain hlow hquote hback =>
      rw [List.singleton_append, pythonString]
      · simp [ih, show c ≠ 10 by omega, show c ≠ 13 by omega, hback]
      · exact fun h => hquote h
      · exact fun _ _ _ _ _ h => absurd h hback
      · exact fun _ _ h => absurd h hback
    | short letter hu hpython hjson =>
      rw [List.cons_append, List.singleton_append, pythonString]
      · simp [hpython, ih]
      · exact fun _ _ _ _ _ h => absurd h hu
    | unicode hrange =>
      simp only [unicodeEscape, List.cons_append, List.nil_append]
      rw [pythonString, hexQuad_unicodeEscape hrange]
      simp [ih]

theorem jsonUnits_flatMap (points rest : List ℕ) :
    ∃ units, jsonUnits (points.flatMap escapeCodePoint ++ 34 :: rest) = some (units, rest) ∧
      units.map Prod.fst = points := by
  induction points with
  | nil => exact ⟨[], by simp [jsonUnits], rfl⟩
  | cons c points ih =>
    obtain ⟨units, hread, hfst⟩ := ih
    rw [List.flatMap_cons, List.append_assoc]
    have hwritten := written_escapeCodePoint c
    generalize escapeCodePoint c = w at hwritten ⊢
    cases hwritten with
    | plain hlow hquote hback =>
      refine ⟨(c, false) :: units, ?_, by rw [List.map_cons, hfst]⟩
      rw [List.singleton_append, jsonUnits]
      · simp [hread, hback, hlow]
      · exact fun h => hquote h
      · exact fun _ _ _ _ _ h => absurd h hback
      · exact fun _ _ h => absurd h hback
    | short letter hu hpython hjson =>
      refine ⟨(c, false) :: units, ?_, by rw [List.map_cons, hfst]⟩
      rw [List.cons_append, List.singleton_append, jsonUnits]
      · simp [hjson, hread]
      · exact fun _ _ _ _ _ h => absurd h hu
    | unicode hrange =>
      refine ⟨(c, true) :: units, ?_, by rw [List.map_cons, hfst]⟩
      simp only [unicodeEscape, List.cons_append, List.nil_append]
      rw [jsonUnits, hexQuad_unicodeEscape hrange]
      simp [hread]

/-- No high surrogate stands directly before a low one. -/
def Unpaired (points : List ℕ) : Prop :=
  points.IsChain fun high low => (isHighSurrogate high && isLowSurrogate low) = false

theorem pair_not_surrogate (high low : ℕ) : isHighSurrogate (surrogatePair high low) = false ∧
    isLowSurrogate (surrogatePair high low) = false := by
  have hrange := surrogatePair_range high low
  simp only [isHighSurrogate, isLowSurrogate, Bool.and_eq_false_iff, decide_eq_false_iff_not, not_le]
  omega

theorem codePoints_head {c : ℕ} {s : JsString} {d : ℕ} {points : List ℕ}
    (h : codePoints (c :: s) = d :: points) (hd : isLowSurrogate d = true) : d = c := by
  cases s with
  | nil =>
    rw [codePoints] at h
    · exact (List.cons.inj h).1.symm
    · simp
  | cons b s =>
    rw [codePoints] at h
    split_ifs at h with hpair
    · rw [← (List.cons.inj h).1, (pair_not_surrogate c b).2] at hd
      cases hd
    · exact (List.cons.inj h).1.symm

theorem unpaired_codePoints (s : JsString) : Unpaired (codePoints s) := by
  unfold Unpaired
  induction s using codePoints.induct with
  | case1 high low rest hpair ih =>
    rw [codePoints, if_pos hpair, List.isChain_cons]
    exact ⟨fun d _ => by rw [(pair_not_surrogate high low).1, Bool.false_and], ih⟩
  | case2 high low rest hpair ih =>
    rw [codePoints, if_neg hpair, List.isChain_cons]
    refine ⟨fun d hd => ?_, ih⟩
    cases hlow : isLowSurrogate d with
    | false => rw [Bool.and_false]
    | true =>
      cases hpoints : codePoints (low :: rest) with
      | nil =>
        rw [hpoints] at hd
        cases hd
      | cons e points =>
        rw [hpoints, List.head?_cons, Option.mem_some_iff] at hd
        subst hd
        rw [codePoints_head hpoints hlow] at hlow
        rw [hlow] at hpair
        simpa using hpair
  | case3 short hshort =>
    rcases short with _ | ⟨a, _ | ⟨b, rest⟩⟩
    · simp [codePoints]
    · simp [codePoints]
    · exact absurd rfl (hshort a b rest)

theorem joinPairs_of_unpaired {units : List (ℕ × Bool)} (h : Unpaired (units.map Prod.fst)) :
    joinPairs units = units.map Prod.fst := by
  unfold Unpaired at h
  induction units using joinPairs.induct with
  | case1 high low rest hpair ih =>
    rw [List.map_cons, List.map_cons, List.isChain_cons_cons, hpair] at h
    cases h.1
  | case2 high low rest hpair ih =>
    rw [joinPairs, if_neg hpair, ih (by simpa using h.tail)]
    rfl
  | case3 unit flag rest hne ih =>
    rw [joinPairs, ih (by simpa using h.tail)]
    · rfl
    · exact hne
  | case4 => rfl

theorem jsonString_flatMap (s : JsString) (rest : List ℕ) :
    jsonString ((codePoints s).flatMap escapeCodePoint ++ 34 :: rest) = some (codePoints s, rest) := by
  obtain ⟨units, hread, hfst⟩ := jsonUnits_flatMap (codePoints s) rest
  have hunpaired := unpaired_codePoints s
  rw [← hfst] at hunpaired
  rw [jsonString, hread, Option.map_some]
  simp only [joinPairs_of_unpaired hunpaired, hfst]

end CodeShare.Harness
