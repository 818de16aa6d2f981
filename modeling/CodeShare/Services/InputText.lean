import CodeShare.Services.JsonParse
import CodeShare.Text.Trimming

/-! # The text of an input

What `parseInputAssignments` does to a text before it reads any value: white space is collapsed, inside of strings too,
and the text is split at the commas outside of all brackets and quotes. White space below U+0020 is not there:
`JSON.stringify` escapes it.
-/

namespace CodeShare
open Harness
set_option autoImplicit false

/-! ## White space -/

/-- White space that `JSON.stringify` copies. -/
def isCopiedSpace (c : ℕ) : Bool := isRegexSpace c && decide (32 ≤ c)

/-- What collapsing the white space of its text does to a string. -/
def collapseCopied : Bool → JsString → JsString
  | _, [] => []
  | afterSpace, c :: rest =>
    if isCopiedSpace c then
      if afterSpace then collapseCopied true rest else 32 :: collapseCopied true rest
    else c :: collapseCopied false rest

/-- White space other than control characters is a single U+0020. -/
structure SingleSpaced (text : JsString) : Prop where
  blank : ∀ c ∈ text, isCopiedSpace c = true → c = 32
  single : ¬ [32, 32] <:+: text

theorem singleSpaced_nil : SingleSpaced [] where
  blank := List.forall_mem_nil _
  single := by decide

theorem singleSpaced_cons_iff {c : ℕ} {t : JsString} : SingleSpaced (c :: t) ↔
    (isCopiedSpace c = true → c = 32 ∧ ∀ d ∈ t.head?, isCopiedSpace d = false) ∧ SingleSpaced t := by
  constructor
  · intro h
    refine ⟨fun hc => ?_, ⟨fun d hd => h.blank d (List.mem_cons_of_mem _ hd), fun hi => h.single ?_⟩⟩
    · obtain rfl := h.blank c List.mem_cons_self hc
      refine ⟨rfl, fun d hd => ?_⟩
      obtain ⟨r, rfl⟩ := List.head?_eq_some_iff.mp hd
      by_contra hspace
      rw [Bool.not_eq_false] at hspace
      obtain rfl := h.blank d (by simp) hspace
      exact h.single (List.prefix_append [32, 32] r).isInfix
    · exact hi.trans (List.suffix_cons c t).isInfix
  · rintro ⟨hc, ht⟩
    refine ⟨fun d hd hspace => ?_, fun hi => ?_⟩
    · rcases List.mem_cons.mp hd with rfl | hd
      · exact (hc hspace).1
      · exact ht.blank d hd hspace
    · rcases List.infix_cons_iff.mp hi with hp | hi
      · obtain ⟨r, hr⟩ := hp
        rw [List.cons_append] at hr
        obtain ⟨rfl, rfl⟩ := List.cons.inj hr
        exact absurd ((hc (by decide)).2 32 (by simp)) (by decide)
      · exact ht.single hi

theorem length_collapseCopied_le (b : Bool) (text : JsString) : (collapseCopied b text).length ≤ text.length := by
  induction text generalizing b with
  | nil => exact le_refl _
  | cons c t ih =>
    have hfalse := ih false
    have htrue := ih true
    rw [collapseCopied]
    split_ifs <;> simp only [List.length_cons] <;> omega

theorem collapseCopied_eq_self_iff' (b : Bool) (text : JsString) : collapseCopied b text = text ↔
    SingleSpaced text ∧ (b = true → ∀ d ∈ text.head?, isCopiedSpace d = false) := by
  induction text generalizing b with
  | nil =>
    rw [collapseCopied]
    exact iff_of_true rfl ⟨singleSpaced_nil, fun _ d hd => absurd hd (by simp)⟩
  | cons c t ih =>
    rw [collapseCopied, singleSpaced_cons_iff]
    by_cases hc : isCopiedSpace c = true
    · rw [if_pos hc]
      cases b with
      | true =>
        rw [if_pos rfl]
        refine iff_of_false (fun h => ?_) fun h => ?_
        · have hle := length_collapseCopied_le true t
          rw [h, List.length_cons] at hle
          omega
        · have hhead := h.2 rfl c (by simp)
          rw [hc] at hhead
          cases hhead
      | false =>
        rw [if_neg (by decide), List.cons.injEq, ih]
        constructor
        · rintro ⟨h32, ht, hhead⟩
          exact ⟨⟨fun _ => ⟨h32.symm, hhead rfl⟩, ht⟩, fun h => absurd h (by decide)⟩
        · rintro ⟨⟨hcopied, ht⟩, -⟩
          exact ⟨(hcopied hc).1.symm, ht, fun _ => (hcopied hc).2⟩
    · rw [if_neg hc, List.cons.injEq, ih]
      constructor
      · rintro ⟨-, ht, -⟩
        exact ⟨⟨fun h => absurd h hc, ht⟩, fun _ d hd => by simpa [← Option.mem_some_iff.mp hd] using hc⟩
      · rintro ⟨⟨-, ht⟩, -⟩
        exact ⟨rfl, ht, fun h => absurd h (by decide)⟩

theorem collapseCopied_eq_self_iff (text : JsString) : collapseCopied false text = text ↔ SingleSpaced text := by
  rw [collapseCopied_eq_self_iff']
  exact and_iff_left fun h => absurd h (by decide)

theorem singleSpaced_collapseCopied (b : Bool) (text : JsString) : SingleSpaced (collapseCopied b text) ∧
    (b = true → ∀ d ∈ (collapseCopied b text).head?, isCopiedSpace d = false) := by
  induction text generalizing b with
  | nil => exact ⟨singleSpaced_nil, fun _ d hd => absurd hd (by simp [collapseCopied])⟩
  | cons c t ih =>
    rw [collapseCopied]
    by_cases hc : isCopiedSpace c = true
    · rw [if_pos hc]
      cases b with
      | true => exact ih true
      | false =>
        rw [if_neg (by decide)]
        refine ⟨singleSpaced_cons_iff.mpr ⟨fun _ => ⟨rfl, (ih true).2 rfl⟩, (ih true).1⟩, fun h => absurd h (by decide)⟩
    · rw [if_neg hc]
      refine ⟨singleSpaced_cons_iff.mpr ⟨fun h => absurd h hc, (ih false).1⟩, fun _ d hd => ?_⟩
      simpa [← Option.mem_some_iff.mp hd] using hc

theorem collapseCopied_idem (text : JsString) :
    collapseCopied false (collapseCopied false text) = collapseCopied false text :=
  (collapseCopied_eq_self_iff _).mpr (singleSpaced_collapseCopied false text).1

/-! ### Written strings -/

variable {b : Bool} {c : ℕ} {a t rest : JsString}

theorem collapseSpaces_cons (hc : isRegexSpace c = false) (rest : JsString) :
    collapseSpaces b (c :: rest) = c :: collapseSpaces false rest := by
  rw [collapseSpaces, if_neg (by rw [hc]; exact Bool.false_ne_true)]

theorem collapseSpaces_append (ha : ∀ c ∈ a, isRegexSpace c = false) (rest : JsString) :
    collapseSpaces false (a ++ rest) = a ++ collapseSpaces false rest := by
  induction a with
  | nil => rfl
  | cons c a ih =>
    rw [List.forall_mem_cons] at ha
    rw [List.cons_append, collapseSpaces_cons ha.1, ih ha.2, List.cons_append]

theorem escapeUnits_unpaired (h : isHighSurrogate c = true → ∀ d ∈ t.head?, isLowSurrogate d = false) :
    escapeUnits (c :: t) = escapeCodePoint c ++ escapeUnits t := by
  cases t with
  | nil => simp [escapeUnits]
  | cons d t =>
    rw [escapeUnits, if_neg]
    intro hpair
    rw [Bool.and_eq_true] at hpair
    have hlow := h hpair.1 d (by simp)
    rw [hpair.2] at hlow
    cases hlow

theorem collapseCopied_head {d : ℕ} (hd : d ∈ (collapseCopied false t).head?) : d = 32 ∨ d ∈ t.head? := by
  cases t with
  | nil => exact Or.inr hd
  | cons c t =>
    rw [collapseCopied] at hd
    by_cases hc : isCopiedSpace c = true
    · rw [if_pos hc, if_neg (by decide)] at hd
      exact Or.inl (Option.mem_some_iff.mp hd).symm
    · rw [if_neg hc] at hd
      exact Or.inr hd

theorem escapeCodePoint_spaces (hc : isCopiedSpace c = false) : ∀ d ∈ escapeCodePoint c, isRegexSpace d = false := by
  intro d hd
  by_cases hplain : IsPlain c
  · rw [escapeCodePoint_of_plain hplain, List.mem_singleton] at hd
    subst hd
    unfold isCopiedSpace at hc
    rw [decide_eq_true hplain.1, Bool.and_true] at hc
    exact hc
  · obtain ⟨r, hr, hrange⟩ := escapeCodePoint_of_not_plain hplain
    rw [hr] at hd
    rcases List.mem_cons.mp hd with rfl | hd
    · decide
    · rcases hrange d hd with rfl | h
      · decide
      · simp [isRegexSpace]
        omega

/-- The copied white space is plain. -/
theorem isPlain_of_isCopiedSpace (hc : isCopiedSpace c = true) : IsPlain c := by
  unfold isCopiedSpace at hc
  rw [Bool.and_eq_true, decide_eq_true_eq] at hc
  have hspace := hc.1
  simp only [isRegexSpace, Bool.or_eq_true, Bool.and_eq_true, decide_eq_true_eq] at hspace
  refine ⟨hc.2, by omega, by omega, ?_⟩
  simp [isSurrogate, isHighSurrogate, isLowSurrogate]
  omega

theorem collapseSpaces_unit (hpair : isHighSurrogate c = true → ∀ d ∈ t.head?, isLowSurrogate d = false)
    (ih : ∀ b, collapseSpaces b (escapeUnits t ++ 34 :: rest) =
      escapeUnits (collapseCopied b t) ++ 34 :: collapseSpaces false rest) :
    collapseSpaces b (escapeUnits (c :: t) ++ 34 :: rest) =
      escapeUnits (collapseCopied b (c :: t)) ++ 34 :: collapseSpaces false rest := by
  rw [escapeUnits_unpaired hpair, List.append_assoc, collapseCopied]
  by_cases hc : isCopiedSpace c = true
  · have hspace : isRegexSpace c = true := (Bool.and_eq_true_iff.mp hc).1
    rw [if_pos hc, escapeCodePoint_of_plain (isPlain_of_isCopiedSpace hc), List.singleton_append, collapseSpaces,
      if_pos hspace, ih true]
    cases b with
    | true => rfl
    | false =>
      rw [if_neg (by decide), if_neg (by decide), escapeUnits_plain (by decide), List.cons_append]
  · rw [if_neg hc]
    rw [Bool.not_eq_true] at hc
    have hcollapsed : isHighSurrogate c = true → ∀ d ∈ (collapseCopied false t).head?, isLowSurrogate d = false := by
      intro hhigh d hd
      rcases collapseCopied_head hd with rfl | hd
      · decide
      · exact hpair hhigh d hd
    rw [escapeUnits_unpaired hcollapsed, List.append_assoc, ← ih false]
    have hspaces := escapeCodePoint_spaces hc
    obtain ⟨e, w, hw⟩ : ∃ e w, escapeCodePoint c = e :: w := by
      by_cases hplain : IsPlain c
      · exact ⟨_, _, escapeCodePoint_of_plain hplain⟩
      · obtain ⟨r, hr, -⟩ := escapeCodePoint_of_not_plain hplain
        exact ⟨_, _, hr⟩
    rw [hw, List.forall_mem_cons] at hspaces
    rw [hw, List.cons_append, collapseSpaces_cons hspaces.1, collapseSpaces_append hspaces.2, List.cons_append]

theorem collapseSpaces_escapeUnits (b : Bool) (s rest : JsString) :
    collapseSpaces b (escapeUnits s ++ 34 :: rest) =
      escapeUnits (collapseCopied b s) ++ 34 :: collapseSpaces false rest := by
  induction s using escapeUnits.induct generalizing b with
  | case1 high low tail hpair ih =>
    have hsurrogate : ∀ c, 0xD800 ≤ c → c ≤ 0xDFFF → isRegexSpace c = false := by
      intro c hlow hhigh
      simp [isRegexSpace]
      omega
    have hboth := hpair
    simp only [isHighSurrogate, isLowSurrogate, Bool.and_eq_true, decide_eq_true_eq] at hboth
    have hhigh := hsurrogate high (by omega) (by omega)
    have hlow := hsurrogate low (by omega) (by omega)
    have hcollapsed : collapseCopied b (high :: low :: tail) = high :: low :: collapseCopied false tail := by
      simp [collapseCopied, isCopiedSpace, hhigh, hlow]
    rw [hcollapsed, escapeUnits, if_pos hpair, escapeUnits, if_pos hpair, List.cons_append, List.cons_append,
      collapseSpaces_cons hhigh, collapseSpaces_cons hlow, ih]
    rfl
  | case2 high low tail hpair ih =>
    refine collapseSpaces_unit (fun hhigh d hd => ?_) ih
    obtain rfl := Option.mem_some_iff.mp hd
    rw [hhigh, Bool.true_and, Bool.not_eq_true] at hpair
    exact hpair
  | case3 c =>
    refine collapseSpaces_unit (fun _ d hd => absurd hd (by simp)) fun b => ?_
    exact collapseSpaces_cons (by decide) rest
  | case4 => exact collapseSpaces_cons (by decide) rest

theorem collapseSpaces_append_cons (hc : isRegexSpace c = false) :
    collapseSpaces b (a ++ c :: rest) = collapseSpaces b a ++ c :: collapseSpaces false rest := by
  induction a generalizing b with
  | nil => exact collapseSpaces_cons hc rest
  | cons d a ih =>
    rw [List.cons_append, collapseSpaces, collapseSpaces, ih, ih]
    split_ifs <;> rfl

theorem collapseSpaces_eq_collapseCopied (ha : ∀ c ∈ a, 32 ≤ c) : collapseSpaces b a = collapseCopied b a := by
  induction a generalizing b with
  | nil => rfl
  | cons c a ih =>
    rw [List.forall_mem_cons] at ha
    have hc : isCopiedSpace c = isRegexSpace c := by simp [isCopiedSpace, ha.1]
    rw [collapseSpaces, collapseCopied, ih ha.2, ih ha.2, hc]

theorem escapeUnits_printable (s : JsString) : ∀ c ∈ escapeUnits s, 32 ≤ c := by
  have hpoint : ∀ c, ∀ d ∈ escapeCodePoint c, 32 ≤ d := by
    intro c d hd
    by_cases hplain : IsPlain c
    · rw [escapeCodePoint_of_plain hplain, List.mem_singleton] at hd
      exact hd ▸ hplain.1
    · obtain ⟨r, hr, hrange⟩ := escapeCodePoint_of_not_plain hplain
      rw [hr, List.mem_cons] at hd
      rcases hd with rfl | hd
      · decide
      · have := hrange d hd
        omega
  induction s using escapeUnits.induct with
  | case1 high low tail hpair ih =>
    rw [escapeUnits, if_pos hpair, List.forall_mem_cons, List.forall_mem_cons]
    simp only [isHighSurrogate, isLowSurrogate, Bool.and_eq_true, decide_eq_true_eq] at hpair
    exact ⟨by omega, by omega, ih⟩
  | case2 high low tail hpair ih =>
    rw [escapeUnits, if_neg hpair, List.forall_mem_append]
    exact ⟨hpoint high, ih⟩
  | case3 c => exact hpoint c
  | case4 => exact List.forall_mem_nil _

/-! ### Written values -/

/-- A value after the white space of its text was collapsed. -/
def collapseJson : Json → Json
  | .null => .null
  | .bool b => .bool b
  | .num x => .num x
  | .str text => .str (collapseCopied false text)
  | .arr items => .arr (collapseItems items)
  | .obj members => .obj (collapseMembers members)
where
  collapseItems : List Json → List Json
    | [] => []
    | v :: rest => collapseJson v :: collapseItems rest
  collapseMembers : List (JsString × Json) → List (JsString × Json)
    | [] => []
    | (k, v) :: rest => (collapseCopied false k, collapseJson v) :: collapseMembers rest

theorem collapseMembers_eq_map (members : List (JsString × Json)) :
    collapseJson.collapseMembers members = members.map fun m => (collapseCopied false m.1, collapseJson m.2) := by
  induction members with
  | nil => rfl
  | cons m members ih => rw [collapseJson.collapseMembers, ih, List.map_cons]

theorem isRegexSpace_number (hc : IsNumberUnit c) : isRegexSpace c = false := by
  unfold IsNumberUnit at hc
  simp [isRegexSpace]
  omega

theorem collapseSpaces_quoteUnits (s rest : JsString) :
    collapseSpaces false (quoteUnits s ++ rest) = quoteUnits (collapseCopied false s) ++ collapseSpaces false rest := by
  have hquote : ∀ t r, quoteUnits t ++ r = 34 :: (escapeUnits t ++ 34 :: r) := by simp [quoteUnits]
  rw [hquote, hquote, collapseSpaces_cons (by decide), collapseSpaces_escapeUnits]

mutual
theorem collapseSpaces_layout (rest : JsString) : ∀ v : Json, collapseSpaces false (v.layout quoteUnits ++ rest) =
    (collapseJson v).layout quoteUnits ++ collapseSpaces false rest
  | .null => collapseSpaces_append (by decide) rest
  | .bool true => collapseSpaces_append (by decide) rest
  | .bool false => collapseSpaces_append (by decide) rest
  | .num x => collapseSpaces_append (fun _ hc => isRegexSpace_number (JsNumber.toUnits_range hc)) rest
  | .str text => collapseSpaces_quoteUnits text rest
  | .arr items => by
      have hopen : ∀ r : JsString, collapseSpaces false (91 :: r) = 91 :: collapseSpaces false r :=
        collapseSpaces_cons (by decide)
      rw [Json.layout, List.cons_append, hopen, collapseSpaces_layoutItems rest items]
      rfl
  | .obj members => by
      have hopen : ∀ r : JsString, collapseSpaces false (123 :: r) = 123 :: collapseSpaces false r :=
        collapseSpaces_cons (by decide)
      rw [Json.layout, List.cons_append, hopen, collapseSpaces_layoutMembers rest members]
      rfl
theorem collapseSpaces_layoutItems (rest : JsString) : ∀ items : List Json,
    collapseSpaces false (Json.layout.layoutItems quoteUnits items ++ rest) =
      Json.layout.layoutItems quoteUnits (collapseJson.collapseItems items) ++ collapseSpaces false rest
  | [] => collapseSpaces_append (by decide) rest
  | [v] => by
      have hclose : collapseSpaces false (93 :: rest) = 93 :: collapseSpaces false rest :=
        collapseSpaces_cons (by decide) rest
      simp only [Json.layout.layoutItems, collapseJson.collapseItems, List.append_assoc, List.singleton_append,
        collapseSpaces_layout _ v, hclose]
  | v :: w :: items => by
      have hcomma : ∀ r : JsString, collapseSpaces false (44 :: r) = 44 :: collapseSpaces false r :=
        collapseSpaces_cons (by decide)
      have hmap : collapseJson.collapseItems (v :: w :: items) =
          collapseJson v :: collapseJson w :: collapseJson.collapseItems items := rfl
      rw [Json.layoutItems_cons_cons, List.append_assoc, List.cons_append, collapseSpaces_layout _ v, hcomma,
        collapseSpaces_layoutItems rest (w :: items), hmap, Json.layoutItems_cons_cons, List.append_assoc]
      rfl
theorem collapseSpaces_layoutMembers (rest : JsString) : ∀ members : List (JsString × Json),
    collapseSpaces false (Json.layout.layoutMembers quoteUnits members ++ rest) =
      Json.layout.layoutMembers quoteUnits (collapseJson.collapseMembers members) ++ collapseSpaces false rest
  | [] => collapseSpaces_append (by decide) rest
  | [(k, v)] => by
      have hcolon : ∀ r : JsString, collapseSpaces false (58 :: r) = 58 :: collapseSpaces false r :=
        collapseSpaces_cons (by decide)
      have hclose : collapseSpaces false (125 :: rest) = 125 :: collapseSpaces false rest :=
        collapseSpaces_cons (by decide) rest
      simp only [Json.layout.layoutMembers, collapseJson.collapseMembers, List.append_assoc, List.cons_append,
        List.nil_append, collapseSpaces_quoteUnits, hcolon, collapseSpaces_layout _ v, hclose]
  | (k, v) :: m :: members => by
      have hcolon : ∀ r : JsString, collapseSpaces false (58 :: r) = 58 :: collapseSpaces false r :=
        collapseSpaces_cons (by decide)
      have hcomma : ∀ r : JsString, collapseSpaces false (44 :: r) = 44 :: collapseSpaces false r :=
        collapseSpaces_cons (by decide)
      obtain ⟨k', v'⟩ := m
      have hmap : collapseJson.collapseMembers ((k, v) :: (k', v') :: members) =
          (collapseCopied false k, collapseJson v) ::
            (collapseCopied false k', collapseJson v') :: collapseJson.collapseMembers members := rfl
      simp only [Json.layoutMembers_cons_cons, List.append_assoc, List.cons_append, collapseSpaces_quoteUnits, hcolon,
        collapseSpaces_layout _ v, hcomma, collapseSpaces_layoutMembers rest ((k', v') :: members), hmap]
      rfl
end

theorem collapseSpaces_stringify (v : Json) (rest : JsString) :
    collapseSpaces false (v.stringify ++ rest) = (collapseJson v).stringify ++ collapseSpaces false rest :=
  collapseSpaces_layout rest v

/-! ## Numbers -/

/-- What a written magnitude consists of. -/
theorem magnitudeUnits_mem {significand : ℕ} {exponent : ℤ} (hs : significand ≠ 0)
    (hc : c ∈ magnitudeUnits significand exponent) :
    isDigit c = true ∨ c = 46 ∨ c = 101 ∨ c = 43 ∨ c = 45 := by
  obtain ⟨t⟩ := exists_numberText hs exponent
  rw [t.text, List.mem_append, List.mem_append] at hc
  rcases hc with hc | hc | hc
  · exact Or.inl (t.whole_digits c hc)
  · unfold fractionText at hc
    split_ifs at hc
    · cases hc
    · rcases List.mem_cons.mp hc with rfl | hc
      · exact Or.inr (Or.inl rfl)
      · exact Or.inl (t.fraction_digits c hc)
  · cases hpower : t.power with
    | none =>
      rw [hpower] at hc
      cases hc
    | some e =>
      rw [hpower, exponentText, exponentUnits, List.mem_cons, List.mem_cons] at hc
      rcases hc with rfl | rfl | hc
      · exact Or.inr (Or.inr (Or.inl rfl))
      · split_ifs
        · exact Or.inr (Or.inr (Or.inr (Or.inr rfl)))
        · exact Or.inr (Or.inr (Or.inr (Or.inl rfl)))
      · exact Or.inl (digits_digitUnits _ c hc)

theorem toUnits_mem {x : JsNumber} (hc : c ∈ x.toUnits) :
    isDigit c = true ∨ c = 46 ∨ c = 101 ∨ c = 43 ∨ c = 45 := by
  unfold JsNumber.toUnits at hc
  split_ifs at hc with hzero hnegative
  · obtain rfl := List.mem_singleton.mp hc
    exact Or.inl rfl
  · rcases List.mem_cons.mp hc with rfl | hc
    · exact Or.inr (Or.inr (Or.inr (Or.inr rfl)))
    · exact magnitudeUnits_mem hzero hc
  · exact magnitudeUnits_mem hzero hc

/-- The numbers that are written without an exponent. -/
def WithoutExponent (x : JsNumber) : Prop := x.significand = 0 ∨ (-6 < x.exponent ∧ x.exponent ≤ 21)

theorem magnitudeUnits_exponent {significand : ℕ} {exponent : ℤ} (hs : significand ≠ 0) :
    101 ∈ magnitudeUnits significand exponent ↔ ¬ (-6 < exponent ∧ exponent ≤ 21) := by
  have hdigits : ∀ n, 101 ∉ digitUnits n := by
    intro n hm
    exact absurd (digits_digitUnits n 101 hm) (by decide)
  have hzeros : ∀ n, 101 ∉ zeroUnits n := by
    intro n hm
    exact absurd (digits_zeroUnits n 101 hm) (by decide)
  unfold magnitudeUnits
  dsimp only
  split_ifs with h1 h2 h3
  · have hlength : 0 < (digitUnits significand).length := List.length_pos_of_ne_nil (digitUnits_ne_nil hs)
    refine iff_of_false ?_ (not_not.mpr ⟨by omega, h1.2⟩)
    rw [List.mem_append, not_or]
    exact ⟨hdigits _, hzeros _⟩
  · refine iff_of_false ?_ (not_not.mpr ⟨by omega, h2.2⟩)
    rw [List.mem_append, List.mem_cons, not_or, not_or]
    exact ⟨fun hm => hdigits _ (List.mem_of_mem_take hm), by decide, fun hm => hdigits _ (List.mem_of_mem_drop hm)⟩
  · refine iff_of_false ?_ (not_not.mpr ⟨h3.1, by omega⟩)
    rw [List.mem_cons, List.mem_cons, List.mem_append, not_or, not_or, not_or]
    exact ⟨by decide, by decide, hzeros _, hdigits _⟩
  · have hexponent : 101 ∈ exponentUnits (exponent - 1) := List.mem_cons_self
    refine iff_of_true ?_ fun h => ?_
    · have hne := digitUnits_ne_nil hs
      split
      · exact List.mem_cons_of_mem _ hexponent
      · exact List.mem_cons_of_mem _ (List.mem_cons_of_mem _ (List.mem_append_right _ hexponent))
      · rename_i heq
        exact absurd heq hne
    · by_cases hpos : 0 < exponent
      · exact h2 ⟨hpos, h.2⟩
      · exact h3 ⟨h.1, not_lt.mp hpos⟩

theorem toUnits_exponent (x : JsNumber) : 101 ∈ x.toUnits ↔ ¬ WithoutExponent x := by
  unfold JsNumber.toUnits WithoutExponent
  split_ifs with hzero hnegative
  · exact iff_of_false (by decide) (not_not.mpr (Or.inl hzero))
  · rw [List.mem_cons, or_iff_right (by decide), magnitudeUnits_exponent hzero, or_iff_right hzero]
  · rw [magnitudeUnits_exponent hzero, or_iff_right hzero]

/-- The digits in front of something else. -/
theorem takeWhile_digits {digits : JsString} (hdigits : Digits digits) (hrest : ∀ c ∈ rest.head?, isDigit c = false) :
    (digits ++ rest).takeWhile isDigitUnit = digits ∧ (digits ++ rest).dropWhile isDigitUnit = rest := by
  exact ⟨takeWhile_front hdigits hrest, dropWhile_front hdigits hrest⟩

theorem isDecimalText_parts {whole fraction : JsString} (hwhole : Digits whole) (hne : whole ≠ [])
    (hfraction : Digits fraction) (negative : Bool) :
    isDecimalText ((if negative then [45] else []) ++ (whole ++ fractionText fraction)) = true := by
  have hbody : ∀ text : JsString, text = (if negative then [45] else []) ++ (whole ++ fractionText fraction) →
      (if text.head? = some 45 then text.tail else text) = whole ++ fractionText fraction := by
    rintro text rfl
    cases negative with
    | true => rfl
    | false =>
      obtain ⟨c, w, rfl⟩ := List.exists_cons_of_ne_nil hne
      have hc : c ≠ 45 := by
        rintro rfl
        exact absurd (hwhole 45 List.mem_cons_self) (by decide)
      simp [hc]
  have hstop : ∀ c ∈ (fractionText fraction).head?, isDigit c = false := by
    unfold fractionText
    split_ifs <;> simp
    decide
  obtain ⟨htake, hdrop⟩ := takeWhile_digits hwhole hstop
  unfold isDecimalText
  rw [hbody _ rfl]
  dsimp only
  rw [htake, hdrop]
  unfold fractionText
  by_cases hempty : fraction = []
  · simp [hempty, hne]
  · have hall : fraction.all isDigitUnit = true := List.all_eq_true.mpr hfraction
    simp [hempty, hne, hall]

theorem exponent_not_mem (h : isDecimalText t = true) : 101 ∉ t := by
  have hbody : ∀ body : JsString, (!(body.takeWhile isDigitUnit).isEmpty && ((body.dropWhile isDigitUnit).isEmpty ||
      ((body.dropWhile isDigitUnit).head? = some 46 && !(body.dropWhile isDigitUnit).tail.isEmpty &&
        (body.dropWhile isDigitUnit).tail.all isDigitUnit))) = true → 101 ∉ body := by
    intro body hdecimal hm
    rw [← List.takeWhile_append_dropWhile (p := isDigitUnit) (l := body), List.mem_append] at hm
    rcases hm with hm | hm
    · exact absurd (List.mem_takeWhile_imp hm) (by decide)
    · simp only [Bool.and_eq_true, Bool.or_eq_true, List.isEmpty_iff, decide_eq_true_eq, List.all_eq_true] at hdecimal
      rcases hdecimal.2 with hempty | ⟨⟨hpoint, -⟩, hdigits⟩
      · rw [hempty] at hm
        cases hm
      · obtain ⟨r, hr⟩ := List.head?_eq_some_iff.mp hpoint
        rw [hr] at hm hdigits
        rcases List.mem_cons.mp hm with hm | hm
        · exact absurd hm (by decide)
        · exact absurd (hdigits 101 hm) (by decide)
  unfold isDecimalText at h
  by_cases hminus : t.head? = some 45
  · obtain ⟨r, rfl⟩ := List.head?_eq_some_iff.mp hminus
    rw [List.mem_cons, not_or]
    exact ⟨by decide, hbody r h⟩
  · rw [if_neg hminus] at h
    exact hbody t h

theorem isDecimalText_toUnits (x : JsNumber) : isDecimalText x.toUnits = true ↔ WithoutExponent x := by
  rw [← not_iff_not, ← toUnits_exponent]
  constructor
  · intro hnot
    by_contra hexponent
    apply hnot
    unfold JsNumber.toUnits at hexponent ⊢
    by_cases hzero : x.significand = 0
    · rw [if_pos hzero]
      decide
    · rw [if_neg hzero] at hexponent ⊢
      obtain ⟨t⟩ := exists_numberText hzero x.exponent
      have hpower : t.power = none := by
        cases hpower : t.power with
        | none => rfl
        | some e =>
          refine absurd ?_ hexponent
          have hmem : 101 ∈ magnitudeUnits x.significand x.exponent := by
            rw [t.text, hpower]
            exact List.mem_append_right _ (List.mem_append_right _ List.mem_cons_self)
          split_ifs
          · exact List.mem_cons_of_mem _ hmem
          · exact hmem
      have htext : (if x.negative then 45 :: magnitudeUnits x.significand x.exponent
          else magnitudeUnits x.significand x.exponent) =
            (if x.negative then [45] else []) ++ (t.whole ++ fractionText t.fraction) := by
        rw [t.text, hpower, exponentText, List.append_nil]
        cases x.negative <;> rfl
      rw [htext]
      exact isDecimalText_parts t.whole_digits t.whole_ne_nil t.fraction_digits x.negative
  · exact fun hexponent hdecimal => exponent_not_mem hdecimal hexponent

end CodeShare
