import CodeShare.Services.HintService

/-! # Delimiters of a prompt

What `escapeDelimiters` does to a text: exactly the brackets of the delimiters in it become fullwidth ones. A block
then has two delimiters, its own.
-/

namespace CodeShare.HintService
open Rewriting Substitution
set_option autoImplicit false

/-! ## Delimiters -/

/-- A letter or an underscore. -/
def isTagUnit (c : ℕ) : Bool := (65 ≤ c && c ≤ 90) || (97 ≤ c && c ≤ 122) || c = 95

def TagWords (tags : List JsString) : Prop := ∀ tag ∈ tags, ∀ c ∈ tag, isTagUnit c = true

/-- `[tag]` or `[/tag]` in any letter case. -/
def IsDelimiter (tags : List JsString) (word : JsString) : Prop :=
  ∃ tag ∈ tags ++ [js "SYSTEM"], word.map asciiLower = (js "[" ++ tag ++ js "]").map asciiLower ∨
    word.map asciiLower = (js "[/" ++ tag ++ js "]").map asciiLower

/-- A bracket of a delimiter stands there. -/
def IsBracketAt (tags : List JsString) (text : JsString) (i : ℕ) : Prop :=
  ∃ n word, IsDelimiter tags word ∧ word <+: text.drop n ∧ (i = n ∨ i + 1 = n + word.length)

variable {tags : List JsString} {text word word' label value : JsString} {c i n : ℕ}

theorem tagWords_system (htags : TagWords tags) : ∀ tag ∈ tags ++ [js "SYSTEM"], ∀ c ∈ tag, isTagUnit c = true := by
  have hsystem : ∀ c ∈ js "SYSTEM", isTagUnit c = true := by decide
  intro tag hmem
  rw [List.mem_append, List.mem_singleton] at hmem
  rcases hmem with hmem | rfl
  · exact htags tag hmem
  · exact hsystem

/-- The text of a delimiter between its brackets. -/
structure IsInner (inner : JsString) : Prop where
  unit : ∀ c ∈ inner, isTagUnit c = true ∨ c = 47

theorem IsInner.not_mem (h : IsInner word) (hc : c = 91 ∨ c = 93 ∨ c = 10 ∨ 128 ≤ c) : c ∉ word := by
  intro hm
  have hunit := h.unit c hm
  simp only [isTagUnit, Bool.or_eq_true, Bool.and_eq_true, decide_eq_true_eq] at hunit
  omega

theorem IsDelimiter.exists_inner (htags : TagWords tags) (h : IsDelimiter tags word) :
    ∃ inner, word = 91 :: (inner ++ [93]) ∧ IsInner inner := by
  have hlower : ∀ x, isTagUnit (asciiLower x) = true → isTagUnit x = true := by
    intro x hx
    unfold asciiLower at hx
    simp only [isTagUnit, Bool.or_eq_true, Bool.and_eq_true, decide_eq_true_eq] at hx ⊢
    split_ifs at hx <;> omega
  obtain ⟨tag, hmem, heq⟩ := h
  have htag := tagWords_system htags tag hmem
  have hinner : ∃ middle : JsString, word.map asciiLower = (91 :: (middle ++ [93])).map asciiLower ∧ IsInner middle := by
    rcases heq with heq | heq
    · exact ⟨tag, heq, ⟨fun c hc => Or.inl (htag c hc)⟩⟩
    · refine ⟨47 :: tag, heq, ⟨fun c hc => ?_⟩⟩
      rcases List.mem_cons.mp hc with rfl | hc
      · exact Or.inr rfl
      · exact Or.inl (htag c hc)
  obtain ⟨middle, heq, hmiddle⟩ := hinner
  rw [List.map_cons, List.map_append, List.map_singleton] at heq
  obtain ⟨x, rest, rfl, hx, hrest⟩ := List.map_eq_cons_iff.mp heq
  obtain ⟨inner, last, rfl, hinner, hlast⟩ := List.map_eq_append_iff.mp hrest
  obtain ⟨y, rfl, hy⟩ := List.map_eq_singleton_iff.mp hlast
  obtain rfl := asciiLower_eq (by decide) hx
  obtain rfl := asciiLower_eq (by decide) hy
  refine ⟨inner, rfl, ⟨fun c hc => ?_⟩⟩
  have hm : asciiLower c ∈ middle.map asciiLower := by
    rw [← hinner]
    exact List.mem_map_of_mem hc
  obtain ⟨d, hd, hdc⟩ := List.mem_map.mp hm
  rcases hmiddle.unit d hd with hunit | rfl
  · refine Or.inl (hlower c ?_)
    rw [← hdc]
    unfold asciiLower
    simp only [isTagUnit, Bool.or_eq_true, Bool.and_eq_true, decide_eq_true_eq] at hunit ⊢
    split_ifs <;> omega
  · exact Or.inr (asciiLower_eq (by decide) hdc.symm)

/-- No two delimiters start in one place. -/
theorem IsDelimiter.eq_of_prefix (htags : TagWords tags) (h : IsDelimiter tags word) (h' : IsDelimiter tags word')
    (hp : word <+: text) (hp' : word' <+: text) : word = word' := by
  obtain ⟨inner, rfl, hinner⟩ := h.exists_inner htags
  obtain ⟨inner', rfl, hinner'⟩ := h'.exists_inner htags
  have hname : ∀ w : JsString, IsInner w → ∀ r, (w ++ 93 :: r).takeWhile (· ≠ 93) = w := by
    intro w hw r
    exact takeWhile_append_cons (hw.not_mem (Or.inr (Or.inl rfl))) r
  obtain ⟨r, rfl⟩ := hp
  obtain ⟨r', hr'⟩ := hp'
  have heq : inner' ++ 93 :: r' = inner ++ 93 :: r := by simpa using hr'
  have hsame := hname inner' hinner' r'
  rw [heq, hname inner hinner r] at hsame
  rw [hsame]

/-! ## What is found -/

theorem matchCaseless_eq_some {pattern : JsString} {k : ℕ} :
    matchCaseless pattern text = some k ↔
      ∃ word, word.map asciiLower = pattern.map asciiLower ∧ word <+: text ∧ word.length = k := by
  unfold matchCaseless
  constructor
  · intro h
    split_ifs at h with heq
    obtain rfl := Option.some.inj h
    refine ⟨text.take pattern.length, heq.symm, List.take_prefix _ _, ?_⟩
    have hlength := congrArg List.length heq
    rw [List.length_map, List.length_map] at hlength
    exact hlength.symm
  · rintro ⟨word, heq, hp, rfl⟩
    have hlength : word.length = pattern.length := by
      have h := congrArg List.length heq
      rwa [List.length_map, List.length_map] at h
    rw [← hlength, ← List.prefix_iff_eq_take.mp hp, if_pos heq.symm]

theorem matchDelimiter_eq_some (htags : TagWords tags) (hne : tags ≠ []) {k : ℕ} :
    matchDelimiter tags text = some k ↔ ∃ word, IsDelimiter tags word ∧ word <+: text ∧ word.length = k := by
  have halternatives : alternatives tags = tags ++ [js "SYSTEM"] := by rw [alternatives, if_neg hne]
  have hfound : ∀ k, matchDelimiter tags text = some k →
      ∃ word, IsDelimiter tags word ∧ word <+: text ∧ word.length = k := by
    intro k h
    obtain ⟨tag, hmem, hmatch⟩ := List.exists_of_findSome?_eq_some h
    rw [halternatives] at hmem
    rcases Option.or_eq_some_iff.mp hmatch with hclosing | ⟨-, hopening⟩
    · obtain ⟨word, heq, hword⟩ := matchCaseless_eq_some.mp hclosing
      exact ⟨word, ⟨tag, hmem, Or.inr heq⟩, hword⟩
    · obtain ⟨word, heq, hword⟩ := matchCaseless_eq_some.mp hopening
      exact ⟨word, ⟨tag, hmem, Or.inl heq⟩, hword⟩
  refine ⟨hfound k, ?_⟩
  rintro ⟨word, hword, hp, rfl⟩
  cases hmatch : matchDelimiter tags text with
  | none =>
    obtain ⟨tag, hmem, heq⟩ := hword
    rw [← halternatives] at hmem
    have hnone := List.findSome?_eq_none_iff.mp hmatch tag hmem
    rw [Option.or_eq_none_iff] at hnone
    rcases heq with heq | heq
    · rw [matchCaseless_eq_some.mpr ⟨word, heq, hp, rfl⟩] at hnone
      cases hnone.2
    · rw [matchCaseless_eq_some.mpr ⟨word, heq, hp, rfl⟩] at hnone
      cases hnone.1
  | some k =>
    obtain ⟨word', hword', hp', rfl⟩ := hfound k hmatch
    rw [hword.eq_of_prefix htags hword' hp hp']

theorem matchDelimiter_eq_none (htags : TagWords tags) (hne : tags ≠ []) :
    matchDelimiter tags text = none ↔ ∀ word, IsDelimiter tags word → ¬ word <+: text := by
  rw [Option.eq_none_iff_forall_ne_some]
  constructor
  · intro h word hword hp
    exact h word.length ((matchDelimiter_eq_some htags hne).mpr ⟨word, hword, hp, rfl⟩)
  · intro h k hk
    obtain ⟨word, hword, hp, -⟩ := (matchDelimiter_eq_some htags hne).mp hk
    exact h word hword hp

theorem sized_matchDelimiter (htags : TagWords tags) (hne : tags ≠ []) : Sized (matchDelimiter tags) := by
  intro text n h
  obtain ⟨word, hword, hp, rfl⟩ := (matchDelimiter_eq_some htags hne).mp h
  obtain ⟨inner, rfl, -⟩ := hword.exists_inner htags
  exact ⟨Nat.succ_pos _, hp.length_le⟩

/-! ## What is replaced -/

theorem IsInner.escapeBracket (h : IsInner word) (hc : c ∈ word) : escapeBracket c = c := by
  have hopening : c ≠ 91 := fun heq => h.not_mem (Or.inl heq) hc
  have hclosing : c ≠ 93 := fun heq => h.not_mem (Or.inr (Or.inl heq)) hc
  rw [HintService.escapeBracket, if_neg hopening, if_neg hclosing]

/-- Inside a delimiter no other one starts. -/
theorem eq_of_starts_inside (htags : TagWords tags) {a b : JsString} (ha : IsDelimiter tags a)
    (hword : IsDelimiter tags word) (hp : word <+: (a ++ b).drop n) (hn : n < a.length) : n = 0 ∧ word = a := by
  cases n with
  | zero => exact ⟨rfl, hword.eq_of_prefix htags ha hp (List.prefix_append a b)⟩
  | succ n =>
    exfalso
    obtain ⟨inner, hinner, hunits⟩ := ha.exists_inner htags
    obtain ⟨inner', rfl, -⟩ := hword.exists_inner htags
    have hget : (a ++ b)[n + 1]? = some 91 := by
      obtain ⟨r, hr⟩ := hp
      have hfirst := congrArg (·[0]?) hr
      simp only [List.cons_append, List.getElem?_cons_zero, List.getElem?_drop, Nat.add_zero] at hfirst
      exact hfirst.symm
    rw [List.getElem?_append_left hn, hinner, List.getElem?_cons_succ] at hget
    have hmem := List.mem_of_getElem? hget
    rw [List.mem_append, List.mem_singleton] at hmem
    rcases hmem with hmem | hmem
    · exact hunits.not_mem (Or.inl rfl) hmem
    · cases hmem

theorem isBracketAt_delimiter (htags : TagWords tags) {a b : JsString} (ha : IsDelimiter tags a) (hi : i < a.length) :
    IsBracketAt tags (a ++ b) i ↔ i = 0 ∨ i + 1 = a.length := by
  constructor
  · rintro ⟨n, word, hword, hp, hin⟩
    have hpos : 0 < word.length := by
      obtain ⟨inner, rfl, -⟩ := hword.exists_inner htags
      exact Nat.succ_pos _
    obtain ⟨rfl, rfl⟩ := eq_of_starts_inside htags ha hword hp (by omega)
    omega
  · intro h
    exact ⟨0, a, ha, List.prefix_append a b, by omega⟩

/-- A bracket behind a delimiter. -/
theorem isBracketAt_append (htags : TagWords tags) {a b : JsString} (ha : IsDelimiter tags a) :
    IsBracketAt tags (a ++ b) (a.length + i) ↔ IsBracketAt tags b i := by
  have hdrop (m : ℕ) : (a ++ b).drop (a.length + m) = b.drop m := by
    rw [List.drop_append, List.drop_eq_nil_of_le (by omega), List.nil_append, Nat.add_sub_cancel_left]
  constructor
  · rintro ⟨n, word, hword, hp, hi⟩
    by_cases hn : a.length ≤ n
    · obtain ⟨m, rfl⟩ := Nat.exists_eq_add_of_le hn
      rw [hdrop] at hp
      exact ⟨m, word, hword, hp, by omega⟩
    · obtain ⟨rfl, rfl⟩ := eq_of_starts_inside htags ha hword hp (by omega)
      obtain ⟨inner, rfl, -⟩ := hword.exists_inner htags
      rw [List.length_cons] at hi
      omega
  · rintro ⟨n, word, hword, hp, hi⟩
    refine ⟨a.length + n, word, hword, ?_, by omega⟩
    rw [hdrop]
    exact hp

/-- A bracket behind a unit at which no delimiter starts. -/
theorem isBracketAt_succ {b : JsString} (hnone : ∀ word, IsDelimiter tags word → ¬ word <+: c :: b) :
    IsBracketAt tags (c :: b) (i + 1) ↔ IsBracketAt tags b i := by
  constructor
  · rintro ⟨n, word, hword, hp, hi⟩
    cases n with
    | zero => exact absurd hp (hnone word hword)
    | succ n => exact ⟨n, word, hword, hp, by omega⟩
  · rintro ⟨n, word, hword, hp, hi⟩
    exact ⟨n + 1, word, hword, hp, by omega⟩

theorem not_isBracketAt_zero (htags : TagWords tags) {b : JsString}
    (hnone : ∀ word, IsDelimiter tags word → ¬ word <+: c :: b) : ¬ IsBracketAt tags (c :: b) 0 := by
  rintro ⟨n, word, hword, hp, hi⟩
  obtain ⟨inner, rfl, -⟩ := hword.exists_inner htags
  simp only [List.length_cons, List.length_append] at hi
  have hn : n = 0 := by omega
  subst hn
  exact hnone _ hword hp

open Classical in
/-- **What is changed**: the brackets of delimiters, and nothing else. -/
theorem getElem?_escapeDelimiters (htags : TagWords tags) (hne : tags ≠ []) (value : JsString) (i : ℕ) :
    (escapeDelimiters tags value)[i]? =
      value[i]?.map fun c => if IsBracketAt tags value i then escapeBracket c else c := by
  induction value using rewrite_induction (sized_matchDelimiter htags hne) generalizing i with
  | nil => rfl
  | found a b ha hmatch ih =>
    obtain ⟨word, hword, hp, hlength⟩ := (matchDelimiter_eq_some htags hne).mp hmatch
    have hsame : word = a := (List.prefix_of_prefix_length_le hp (List.prefix_append a b) hlength.le).eq_of_length hlength
    subst hsame
    have hstep : escapeDelimiters tags (word ++ b) = word.map escapeBracket ++ escapeDelimiters tags b :=
      rewrite_match ha hmatch
    rw [hstep]
    by_cases hi : i < word.length
    · rw [List.getElem?_append_left (by rw [List.length_map]; exact hi), List.getElem?_append_left hi, List.getElem?_map,
        isBracketAt_delimiter htags hword hi]
      rw [List.getElem?_eq_getElem hi, Option.map_some, Option.map_some]
      split_ifs with hbracket
      · rfl
      · obtain ⟨inner, rfl, hunits⟩ := hword.exists_inner htags
        rw [hunits.escapeBracket]
        rw [not_or, List.length_cons, List.length_append, List.length_singleton] at hbracket
        obtain ⟨k, rfl⟩ := Nat.exists_eq_succ_of_ne_zero hbracket.1
        rw [List.length_cons, List.length_append, List.length_singleton] at hi
        rw [List.getElem_cons_succ, List.getElem_append_left (by omega)]
        exact List.getElem_mem _
    · obtain ⟨m, rfl⟩ := Nat.exists_eq_add_of_le (Nat.not_lt.mp hi)
      rw [List.getElem?_append_right (by rw [List.length_map]; omega), List.getElem?_append_right (by omega),
        List.length_map, Nat.add_sub_cancel_left, ih m, isBracketAt_append htags hword]
  | copied c b hmatch ih =>
    have hnone := (matchDelimiter_eq_none htags hne).mp hmatch
    have hstep : escapeDelimiters tags (c :: b) = c :: escapeDelimiters tags b := rewrite_cons hmatch
    rw [hstep]
    cases i with
    | zero =>
      rw [List.getElem?_cons_zero, List.getElem?_cons_zero, Option.map_some, if_neg (not_isBracketAt_zero htags hnone)]
    | succ i => rw [List.getElem?_cons_succ, List.getElem?_cons_succ, ih i, isBracketAt_succ hnone]

theorem length_escapeDelimiters (htags : TagWords tags) (hne : tags ≠ []) (value : JsString) :
    (escapeDelimiters tags value).length = value.length := by
  classical
  have hsame (i : ℕ) : (escapeDelimiters tags value)[i]? = none ↔ value[i]? = none := by
    rw [getElem?_escapeDelimiters htags hne, Option.map_eq_none_iff]
  have hle := (hsame (escapeDelimiters tags value).length).mp (List.getElem?_eq_none le_rfl)
  have hge := (hsame value.length).mpr (List.getElem?_eq_none le_rfl)
  rw [List.getElem?_eq_none_iff] at hle hge
  omega

/-- A bracket of a delimiter is a bracket. -/
theorem IsBracketAt.bracket (htags : TagWords tags) (h : IsBracketAt tags text i) :
    text[i]? = some 91 ∨ text[i]? = some 93 := by
  obtain ⟨n, word, hword, ⟨r, hr⟩, hi⟩ := h
  obtain ⟨inner, rfl, -⟩ := hword.exists_inner htags
  have hget (k : ℕ) : text[n + k]? = (91 :: (inner ++ [93]) ++ r)[k]? := by
    rw [hr, List.getElem?_drop]
  rcases hi with rfl | hi
  · exact Or.inl (hget 0)
  · right
    have hk : i = n + (inner.length + 1) := by
      simp only [List.length_cons, List.length_append, List.length_nil] at hi
      omega
    rw [hk, hget]
    simp

/-- An ASCII sign of the result was there before, and not as the bracket of a delimiter. -/
theorem getElem?_of_escapeDelimiters (htags : TagWords tags) (hne : tags ≠ []) (hc : c < 128)
    (h : (escapeDelimiters tags value)[i]? = some c) : ¬ IsBracketAt tags value i ∧ value[i]? = some c := by
  classical
  rw [getElem?_escapeDelimiters htags hne, Option.map_eq_some_iff] at h
  obtain ⟨d, hd, heq⟩ := h
  by_cases hbracket : IsBracketAt tags value i
  · exfalso
    rw [if_pos hbracket] at heq
    rcases hbracket.bracket htags with hb | hb
    · rw [hd, Option.some.injEq] at hb
      rw [← heq, hb] at hc
      exact absurd hc (by decide)
    · rw [hd, Option.some.injEq] at hb
      rw [← heq, hb] at hc
      exact absurd hc (by decide)
  · rw [if_neg hbracket] at heq
    exact ⟨hbracket, by rw [hd, heq]⟩

/-- **No delimiter is left**, and none comes about. -/
theorem escapeDelimiters_lacks (htags : TagWords tags) (hne : tags ≠ []) (hword : IsDelimiter tags word) (n : ℕ) :
    ¬ word <+: (escapeDelimiters tags value).drop n := by
  intro hp
  obtain ⟨inner, hinner, hunits⟩ := hword.exists_inner htags
  have hascii : ∀ c ∈ word, c < 128 := by
    intro c hc
    rw [hinner, List.mem_cons, List.mem_append, List.mem_singleton] at hc
    rcases hc with rfl | hc | rfl
    · decide
    · by_contra hlarge
      exact hunits.not_mem (by omega) hc
    · decide
  have hkept (k : ℕ) (hk : k < word.length) :
      ¬ IsBracketAt tags value (n + k) ∧ value[n + k]? = some word[k] := by
    have hget := List.prefix_iff_getElem?.mp hp k hk
    rw [List.getElem?_drop] at hget
    exact getElem?_of_escapeDelimiters htags hne (hascii _ (List.getElem_mem hk)) hget
  have hoccurs : word <+: value.drop n := by
    rw [List.prefix_iff_getElem?]
    intro k hk
    rw [List.getElem?_drop]
    exact (hkept k hk).2
  have hpos : 0 < word.length := by
    rw [hinner]
    exact Nat.succ_pos _
  exact (hkept 0 hpos).1 ⟨n, word, hword, hoccurs, Or.inl rfl⟩

theorem escapeDelimiters_idempotent (htags : TagWords tags) (hne : tags ≠ []) (value : JsString) :
    escapeDelimiters tags (escapeDelimiters tags value) = escapeDelimiters tags value := by
  have hcopied : escapeDelimiters tags (escapeDelimiters tags value ++ []) =
      escapeDelimiters tags value ++ escapeDelimiters tags [] := by
    refine rewrite_append fun s t hsplit _ => ?_
    rw [List.append_nil, matchDelimiter_eq_none htags hne]
    intro word hword hp
    have hdrop : t = (escapeDelimiters tags value).drop s.length := by rw [hsplit, List.drop_left]
    rw [hdrop] at hp
    exact escapeDelimiters_lacks htags hne hword s.length hp
  have hnil : escapeDelimiters tags [] = [] := rfl
  rw [hnil] at hcopied
  simpa only [List.append_nil] using hcopied

/-! ## Blocks -/

theorem isDelimiter_opening (hlabel : label ∈ tags) : IsDelimiter tags (js "[" ++ label ++ js "]") :=
  ⟨label, List.mem_append_left _ hlabel, Or.inl rfl⟩

theorem isDelimiter_closing (hlabel : label ∈ tags) : IsDelimiter tags (js "[/" ++ label ++ js "]") :=
  ⟨label, List.mem_append_left _ hlabel, Or.inr rfl⟩

theorem IsDelimiter.no_line (htags : TagWords tags) (h : IsDelimiter tags word) : 10 ∉ word := by
  obtain ⟨inner, rfl, hunits⟩ := h.exists_inner htags
  rw [List.mem_cons, List.mem_append, List.mem_singleton]
  rintro (hm | hm | hm)
  · cases hm
  · exact hunits.not_mem (by omega) hm
  · cases hm

/-- Where a delimiter starts in a text of two lines. -/
theorem prefix_drop_lines (htags : TagWords tags) (hword : IsDelimiter tags word) {a b : JsString} :
    word <+: (a ++ 10 :: b).drop n ↔
      word <+: a.drop n ∨ ∃ m, n = a.length + 1 + m ∧ word <+: b.drop m := by
  have hline := hword.no_line htags
  have hne : word ≠ [] := by
    obtain ⟨inner, rfl, -⟩ := hword.exists_inner htags
    exact List.cons_ne_nil _ _
  rcases Nat.lt_trichotomy n a.length with hn | hn | hn
  · have hdrop : (a ++ 10 :: b).drop n = a.drop n ++ 10 :: b := List.drop_append_of_le_length hn.le
    rw [hdrop]
    constructor
    · exact fun hp => Or.inl ((prefix_append_cons_iff hline).mp hp)
    · rintro (hp | ⟨m, hm, -⟩)
      · exact hp.trans (List.prefix_append _ _)
      · omega
  · have hdrop : (a ++ 10 :: b).drop n = 10 :: b := by rw [hn, List.drop_left]
    have hnil : a.drop n = [] := List.drop_eq_nil_of_le hn.ge
    rw [hdrop, hnil]
    constructor
    · intro hp
      obtain ⟨x, rest, rfl⟩ := List.exists_cons_of_ne_nil hne
      rw [List.cons_prefix_cons] at hp
      exact absurd (by rw [hp.1]; exact List.mem_cons_self) hline
    · rintro (hp | ⟨m, hm, -⟩)
      · exact absurd (List.prefix_nil.mp hp) hne
      · omega
  · obtain ⟨m, rfl⟩ := Nat.exists_eq_add_of_lt hn
    have hdrop : (a ++ 10 :: b).drop (a.length + m + 1) = b.drop m := by
      have hsplit : a ++ 10 :: b = (a ++ [10]) ++ b := by simp
      rw [hsplit, List.drop_append, List.drop_eq_nil_of_le (by simp), List.nil_append]
      congr 1
      simp
    have hnil : a.drop (a.length + m + 1) = [] := List.drop_eq_nil_of_le (by omega)
    rw [hdrop, hnil]
    constructor
    · exact fun hp => Or.inr ⟨m, by omega, hp⟩
    · rintro (hp | ⟨k, hk, hp⟩)
      · exact absurd (List.prefix_nil.mp hp) hne
      · have hkm : k = m := by omega
        rwa [hkm] at hp

/-- Where a delimiter starts in a delimiter. -/
theorem prefix_drop_delimiter (htags : TagWords tags) (hword : IsDelimiter tags word) {a : JsString}
    (ha : IsDelimiter tags a) : word <+: a.drop n ↔ n = 0 ∧ word = a := by
  constructor
  · intro hp
    by_cases hn : n < a.length
    · apply eq_of_starts_inside htags ha hword ?_ hn (b := [])
      rw [List.append_nil]
      exact hp
    · rw [List.drop_eq_nil_of_le (by omega), List.prefix_nil] at hp
      obtain ⟨inner, rfl, -⟩ := hword.exists_inner htags
      cases hp
  · rintro ⟨rfl, rfl⟩
    exact List.prefix_refl _

/-- **Escaping is exact.** A block has its opening line and its closing line as its only delimiters. Escaping keeps the
length, changes the brackets of delimiters only, and changes nothing the second time. -/
theorem delimiters_exact (htags : TagWords tags) (hlabel : label ∈ tags) (value : JsString) :
    (∀ word, IsDelimiter tags word → ∀ n, word <+: (buildDelimitedBlock tags label value).drop n ↔
      (n = 0 ∧ word = js "[" ++ label ++ js "]") ∨
        (n = label.length + value.length + 4 ∧ word = js "[/" ++ label ++ js "]")) ∧
    (escapeDelimiters tags value).length = value.length ∧
    (∀ i c, value[i]? = some c →
      (IsBracketAt tags value i → (c = 91 ∨ c = 93) ∧ (escapeDelimiters tags value)[i]? = some (escapeBracket c)) ∧
      (¬ IsBracketAt tags value i → (escapeDelimiters tags value)[i]? = some c)) ∧
    escapeDelimiters tags (escapeDelimiters tags value) = escapeDelimiters tags value := by
  have hne : tags ≠ [] := List.ne_nil_of_mem hlabel
  have hlength := length_escapeDelimiters htags hne value
  refine ⟨?_, hlength, ?_, escapeDelimiters_idempotent htags hne value⟩
  · intro word hword n
    have hlines : buildDelimitedBlock tags label value = (js "[" ++ label ++ js "]") ++
        10 :: (escapeDelimiters tags value ++ 10 :: (js "[/" ++ label ++ js "]")) := by
      have hend : js "]\n" = js "]" ++ [10] := by decide
      have hstart : js "\n[/" = 10 :: js "[/" := by decide
      rw [buildDelimitedBlock, hend, hstart]
      simp
    have hopening : (js "[" ++ label ++ js "]").length = label.length + 2 := by
      rw [List.length_append, List.length_append]
      show 1 + label.length + 1 = label.length + 2
      omega
    rw [hlines, prefix_drop_lines htags hword, prefix_drop_delimiter htags hword (isDelimiter_opening hlabel)]
    refine or_congr_right ?_
    constructor
    · rintro ⟨m, rfl, hp⟩
      rcases (prefix_drop_lines htags hword).mp hp with hinside | ⟨k, rfl, hend⟩
      · exact absurd hinside (escapeDelimiters_lacks htags hne hword m)
      · obtain ⟨rfl, rfl⟩ := (prefix_drop_delimiter htags hword (isDelimiter_closing hlabel)).mp hend
        exact ⟨by omega, rfl⟩
    · rintro ⟨rfl, rfl⟩
      refine ⟨value.length + 1, by omega, (prefix_drop_lines htags hword).mpr (Or.inr ⟨0, by omega, ?_⟩)⟩
      exact List.prefix_refl _
  · classical
    intro i c hc
    have hget := getElem?_escapeDelimiters htags hne value i
    rw [hc, Option.map_some] at hget
    refine ⟨fun hbracket => ⟨?_, ?_⟩, fun hbracket => ?_⟩
    · have hb := hbracket.bracket htags
      rwa [hc, Option.some.injEq, Option.some.injEq] at hb
    · rw [hget, if_pos hbracket]
    · rw [hget, if_neg hbracket]

/-- A value with brackets of its own around a delimiter. -/
theorem delimiters_exact_example : (escapeDelimiters hintTags (js "[[system]")).length = 9 ∧
    ∀ word, IsDelimiter hintTags word → ∀ n,
      word <+: (buildDelimitedBlock hintTags (js "CONSTRAINTS") (js "[[system]")).drop n ↔
        (n = 0 ∧ word = js "[CONSTRAINTS]") ∨ (n = 24 ∧ word = js "[/CONSTRAINTS]") := by
  have htags : TagWords hintTags := by
    unfold TagWords
    decide
  have hlabel : js "CONSTRAINTS" ∈ hintTags := by decide
  obtain ⟨hwords, hlength, -⟩ := delimiters_exact htags hlabel (js "[[system]")
  exact ⟨hlength, hwords⟩

end CodeShare.HintService
