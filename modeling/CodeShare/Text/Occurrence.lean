import CodeShare.Text.Json

/-! # Where a pattern can occur in a JSON text

A pattern of plain letters that JSON syntax never writes occurs in `JSON.stringify v` exactly when
it occurs in one of the strings or member names of `v`: quoting copies plain letters, and an
occurrence cannot reach over a quote.
-/

namespace CodeShare
open Substitution
set_option autoImplicit false

/-- A letter that QuoteJSONString copies. -/
def IsPlain (c : ℕ) : Prop := 32 ≤ c ∧ c ≠ 34 ∧ c ≠ 92 ∧ isSurrogate c = false

instance (c : ℕ) : Decidable (IsPlain c) := inferInstanceAs (Decidable (_ ∧ _))

/-- A pattern of plain letters, starting with a dollar sign or with a brace before a plain letter
that does not close it. -/
structure Foreign (x : ℕ) (p : JsString) : Prop where
  first : x = 36 ∨ (x = 123 ∧ ∃ c r, p = c :: r ∧ c ≠ 34 ∧ c ≠ 125)
  plain : ∀ c ∈ p, IsPlain c

theorem Foreign.head {x : ℕ} {p : JsString} (h : Foreign x p) : x = 36 ∨ x = 123 :=
  h.first.imp_right And.left

theorem Foreign.head_plain {x : ℕ} {p : JsString} (h : Foreign x p) : IsPlain x := by
  rcases h.head with rfl | rfl <;> decide

/-! ## Strings -/

theorem escapeCodePoint_of_plain {c : ℕ} (hc : IsPlain c) : escapeCodePoint c = [c] := by
  obtain ⟨hlow, hquote, hback, hsurr⟩ := hc
  unfold escapeCodePoint
  rw [if_neg (by omega), if_neg (by omega), if_neg (by omega), if_neg (by omega), if_neg (by omega),
    if_neg hquote, if_neg hback, if_neg]
  rintro (h | h)
  · omega
  · rw [hsurr] at h
    cases h

theorem hexUnit_range {n : ℕ} (h : n < 16) : 48 ≤ hexUnit n ∧ hexUnit n ≤ 102 := by
  unfold hexUnit
  split_ifs <;> omega

/-- Other letters are written with a backslash. -/
theorem escapeCodePoint_of_not_plain {c : ℕ} (hc : ¬ IsPlain c) :
    ∃ r, escapeCodePoint c = 92 :: r ∧ ∀ x ∈ r, x = 34 ∨ (48 ≤ x ∧ x ≤ 117) := by
  unfold escapeCodePoint
  split_ifs with h1 h2 h3 h4 h5 h6 h7 h8
  · exact ⟨[98], rfl, by simp⟩
  · exact ⟨[116], rfl, by simp⟩
  · exact ⟨[110], rfl, by simp⟩
  · exact ⟨[102], rfl, by simp⟩
  · exact ⟨[114], rfl, by simp⟩
  · exact ⟨[34], rfl, by simp⟩
  · exact ⟨[92], rfl, by simp⟩
  · refine ⟨_, rfl, ?_⟩
    have hhex : ∀ n, 48 ≤ hexUnit (n % 16) ∧ hexUnit (n % 16) ≤ 117 := by
      intro n
      have h := hexUnit_range (Nat.mod_lt n (by decide : 0 < 16))
      omega
    simp [hhex]
  · refine absurd ⟨?_, h6, h7, ?_⟩ hc
    · omega
    · simpa using fun h => h8 (Or.inr h)

theorem escapeUnits_cons {c : ℕ} (hc : isHighSurrogate c = false) (rest : JsString) :
    escapeUnits (c :: rest) = escapeCodePoint c ++ escapeUnits rest := by
  cases rest with
  | nil => simp [escapeUnits]
  | cons b rest => simp [escapeUnits, hc]

theorem IsPlain.not_high {c : ℕ} (hc : IsPlain c) : isHighSurrogate c = false := by
  have h := hc.2.2.2
  unfold isSurrogate at h
  exact (Bool.or_eq_false_iff.mp h).1

theorem escapeUnits_plain {c : ℕ} (hc : IsPlain c) (rest : JsString) :
    escapeUnits (c :: rest) = c :: escapeUnits rest := by
  rw [escapeUnits_cons hc.not_high, escapeCodePoint_of_plain hc, List.singleton_append]

/-- Quoting neither hides nor creates plain text: here at the start of the text. -/
theorem plain_prefix_escapeUnits {p : JsString} (hp : ∀ c ∈ p, IsPlain c) (s word : JsString) :
    p <+: escapeUnits s ++ 34 :: word ↔ p <+: s := by
  induction p generalizing s with
  | nil => simp
  | cons c p ih =>
    have hc := hp c (by simp)
    cases s with
    | nil =>
      simp only [escapeUnits, List.nil_append, List.cons_prefix_cons, List.prefix_nil,
        List.cons_ne_nil, iff_false]
      exact fun h => hc.2.1 h.1
    | cons b s =>
      by_cases hb : IsPlain b
      · rw [escapeUnits_plain hb, List.cons_append, List.cons_prefix_cons, List.cons_prefix_cons,
          ih (fun a ha => hp a (by simp [ha]))]
      · have hne : c ≠ b := fun h => hb (h ▸ hc)
        have hhead : ∃ a r, escapeUnits (b :: s) = a :: r ∧ (a = 92 ∨ a = b) := by
          obtain ⟨r, hr, -⟩ := escapeCodePoint_of_not_plain hb
          cases s with
          | nil => exact ⟨92, r, by simp [escapeUnits, hr], Or.inl rfl⟩
          | cons d s =>
            by_cases hpair : (isHighSurrogate b && isLowSurrogate d) = true
            · exact ⟨b, _, by rw [escapeUnits, if_pos hpair], Or.inr rfl⟩
            · exact ⟨92, _, by rw [escapeUnits, if_neg hpair, hr, List.cons_append], Or.inl rfl⟩
        obtain ⟨a, r, hr, ha⟩ := hhead
        rw [hr, List.cons_append, List.cons_prefix_cons, List.cons_prefix_cons]
        constructor
        · rintro ⟨h, -⟩
          rcases ha with rfl | rfl
          · exact absurd h hc.2.2.1
          · exact absurd h hne
        · exact fun h => absurd h.1 hne

theorem passedBy_escapeUnits {x : ℕ} {p : JsString} (hp : Foreign x p) {s : JsString}
    (hs : ¬ (x :: p) <:+: s) (word : JsString) :
    PassedBy (x :: p) (escapeUnits s) (34 :: word) := by
  have hesc : ∀ c, c ≠ x → x ∉ escapeCodePoint c := by
    intro c hc
    by_cases hplain : IsPlain c
    · rw [escapeCodePoint_of_plain hplain, List.mem_singleton]
      exact Ne.symm hc
    · obtain ⟨r, hr, hrange⟩ := escapeCodePoint_of_not_plain hplain
      rw [hr, List.mem_cons, not_or]
      refine ⟨by rcases hp.head with rfl | rfl <;> decide, fun hx => ?_⟩
      rcases hp.head with rfl | rfl <;> rcases hrange _ hx with h | h <;> omega
  have htail : ∀ {c : ℕ} {t : JsString}, ¬ (x :: p) <:+: c :: t → ¬ (x :: p) <:+: t :=
    fun h ht => h (ht.trans (List.suffix_cons _ _).isInfix)
  induction s using escapeUnits.induct with
  | case1 high low rest hpair ih =>
    rw [escapeUnits, if_pos hpair]
    have hne : ∀ c, isSurrogate c = true → c ≠ x := by
      rintro c hc rfl
      rw [hp.head_plain.2.2.2] at hc
      cases hc
    rw [Bool.and_eq_true] at hpair
    have h1 := hne high (by simp [isSurrogate, hpair.1])
    have h2 := hne low (by simp [isSurrogate, hpair.2])
    refine PassedBy.append (u := [high, low]) (PassedBy.of_not_mem ?_) (ih (htail (htail hs)))
    simp [Ne.symm h1, Ne.symm h2]
  | case2 high low rest hpair ih =>
    rw [escapeUnits, if_neg hpair]
    by_cases hx : high = x
    · subst hx
      rw [escapeCodePoint_of_plain hp.head_plain, List.singleton_append]
      refine PassedBy.cons ?_ (ih (htail hs))
      rw [List.cons_prefix_cons, plain_prefix_escapeUnits hp.plain]
      exact fun h => hs (List.IsPrefix.isInfix (by rw [List.cons_prefix_cons]; exact h))
    · exact (PassedBy.of_not_mem (hesc high hx)).append (ih (htail hs))
  | case3 c =>
    rw [escapeUnits]
    by_cases hx : c = x
    · subst hx
      rw [escapeCodePoint_of_plain hp.head_plain]
      refine PassedBy.cons ?_ PassedBy.nil
      have h := plain_prefix_escapeUnits hp.plain [] word
      rw [List.nil_append, List.cons_prefix_cons]
      rintro ⟨-, h'⟩
      refine hs (List.IsPrefix.isInfix ?_)
      rw [List.cons_prefix_cons]
      exact ⟨rfl, h.mp (by simpa [escapeUnits] using h')⟩
    · exact PassedBy.of_not_mem (hesc c hx)
  | case4 => exact PassedBy.nil

theorem passedBy_quoteUnits {x : ℕ} {p : JsString} (hp : Foreign x p) {s : JsString}
    (hs : ¬ (x :: p) <:+: s) (word : JsString) : PassedBy (x :: p) (quoteUnits s) word := by
  have hquote : ∀ w, PassedBy (x :: p) [34] w := by
    intro w
    apply PassedBy.of_not_mem
    rcases hp.head with rfl | rfl <;> decide
  exact (hquote _).append ((passedBy_escapeUnits hp hs word).append (hquote word))

theorem infix_quoteUnits {p s : JsString} (hp : ∀ c ∈ p, IsPlain c) (h : p <:+: s) :
    p <:+: quoteUnits s := by
  have hescape : p <:+: escapeUnits s ++ [34] := by
    induction s using escapeUnits.induct with
    | case1 high low rest hpair ih =>
      rw [escapeUnits, if_pos hpair]
      rw [Bool.and_eq_true] at hpair
      rcases List.infix_cons_iff.mp h with h | h
      · rw [← plain_prefix_escapeUnits hp _ [], escapeUnits, if_pos (by simp [hpair])] at h
        exact h.isInfix
      · rcases List.infix_cons_iff.mp h with h | h
        · rw [← plain_prefix_escapeUnits hp _ []] at h
          cases p with
          | nil => simp
          | cons a p =>
            have ha := hp a (by simp)
            rw [plain_prefix_escapeUnits hp, List.cons_prefix_cons] at h
            obtain ⟨rfl, -⟩ := h
            have hs := ha.2.2.2
            simp [isSurrogate, hpair.2] at hs
        · exact (ih h).trans (List.infix_append [high, low] _ [])|>.trans (by simp)
    | case2 high low rest hpair ih =>
      rcases List.infix_cons_iff.mp h with h | h
      · rw [← plain_prefix_escapeUnits hp _ []] at h
        exact h.isInfix
      · rw [escapeUnits, if_neg hpair, List.append_assoc]
        exact (ih h).trans (List.suffix_append _ _).isInfix
    | case3 c =>
      rcases List.infix_cons_iff.mp h with h | h
      · rw [← plain_prefix_escapeUnits hp _ []] at h
        exact h.isInfix
      · rw [List.infix_nil.mp h]
        exact List.nil_infix
    | case4 =>
      rw [List.infix_nil.mp h]
      exact List.nil_infix
  exact hescape.trans (List.suffix_cons _ _).isInfix

/-! ## Values -/

/-- A unit of a JSON number: a digit, one of `+ - .`, or `e`. -/
def IsNumberUnit (c : ℕ) : Prop := 43 ≤ c ∧ c ≤ 57 ∨ c = 101

theorem digitUnits_range {n c : ℕ} (h : c ∈ digitUnits n) : 48 ≤ c ∧ c ≤ 57 := by
  unfold digitUnits at h
  obtain ⟨d, hd, rfl⟩ := List.mem_map.mp h
  have := Nat.digits_lt_base (by decide : 1 < 10) (List.mem_reverse.mp hd)
  omega

theorem magnitudeUnits_range {significand : ℕ} {exponent : ℤ} {c : ℕ}
    (h : c ∈ magnitudeUnits significand exponent) : IsNumberUnit c := by
  have hdigit : ∀ {n : ℕ}, c ∈ digitUnits n → IsNumberUnit c := by
    intro n hn
    have := digitUnits_range hn
    exact Or.inl (by omega)
  have hzero : ∀ {n : ℕ}, c ∈ zeroUnits n → IsNumberUnit c := by
    intro n hn
    exact Or.inl (by rw [List.eq_of_mem_replicate hn]; decide)
  have hexponent : ∀ {e : ℤ}, c ∈ exponentUnits e → IsNumberUnit c := by
    intro e he
    rcases List.mem_cons.mp he with rfl | he
    · exact Or.inr rfl
    rcases List.mem_cons.mp he with rfl | he
    · exact Or.inl (by split_ifs <;> decide)
    · exact hdigit he
  unfold magnitudeUnits at h
  dsimp only at h
  split_ifs at h
  · rcases List.mem_append.mp h with h | h
    · exact hdigit h
    · exact hzero h
  · rcases List.mem_append.mp h with h | h
    · exact hdigit (List.mem_of_mem_take h)
    · rcases List.mem_cons.mp h with rfl | h
      · exact Or.inl (by decide)
      · exact hdigit (List.mem_of_mem_drop h)
  · rcases List.mem_cons.mp h with rfl | h
    · exact Or.inl (by decide)
    rcases List.mem_cons.mp h with rfl | h
    · exact Or.inl (by decide)
    rcases List.mem_append.mp h with h | h
    · exact hzero h
    · exact hdigit h
  · have hdigits : ∀ a ∈ digitUnits significand, a = c → IsNumberUnit c := by
      rintro a ha rfl
      exact hdigit ha
    revert h hdigits
    generalize digitUnits significand = digits
    intro h hdigits
    match digits with
    | [] => cases h
    | [digit] =>
      rcases List.mem_cons.mp h with rfl | h
      · exact hdigits c (by simp) rfl
      · exact hexponent h
    | digit :: a :: rest =>
      rcases List.mem_cons.mp h with rfl | h
      · exact hdigits c (by simp) rfl
      rcases List.mem_cons.mp h with rfl | h
      · exact Or.inl (by decide)
      rcases List.mem_append.mp h with h | h
      · exact hdigits c (List.mem_cons_of_mem _ h) rfl
      · exact hexponent h

theorem JsNumber.toUnits_range {x : JsNumber} {c : ℕ} (h : c ∈ x.toUnits) : IsNumberUnit c := by
  unfold toUnits at h
  split_ifs at h
  · rw [List.mem_singleton.mp h]
    exact Or.inl (by decide)
  · rcases List.mem_cons.mp h with rfl | h
    · exact Or.inl (by decide)
    · exact magnitudeUnits_range h
  · exact magnitudeUnits_range h

namespace Json

/-- The strings and member names of a value. -/
def texts : Json → List JsString
  | str text => [text]
  | arr items => itemTexts items
  | obj members => memberTexts members
  | _ => []
where
  itemTexts : List Json → List JsString
    | [] => []
    | v :: rest => texts v ++ itemTexts rest
  memberTexts : List (JsString × Json) → List JsString
    | [] => []
    | (k, v) :: rest => k :: (texts v ++ memberTexts rest)

section
variable {x : ℕ} {p : JsString}

theorem passedBy_of_ne {c : ℕ} (hc : x ≠ c) (word : JsString) : PassedBy (x :: p) [c] word :=
  PassedBy.of_not_mem (by simpa using hc)

/-- An opening brace is followed by a quote or a closing brace. -/
theorem passedBy_brace (hp : Foreign x p) {c : ℕ} (hc : c = 34 ∨ c = 125) {word rest : JsString}
    (hword : word = c :: rest) : PassedBy (x :: p) [123] word := by
  refine PassedBy.cons ?_ PassedBy.nil
  rw [hword, List.nil_append, List.cons_prefix_cons]
  rintro ⟨hx, h⟩
  rcases hp.first with rfl | ⟨-, b, r, rfl, hquote, hbrace⟩
  · cases hx
  · rw [List.cons_prefix_cons] at h
    omega

theorem Foreign.ne_of_number (hp : Foreign x p) {c : ℕ} (hc : IsNumberUnit c) : x ≠ c := by
  unfold IsNumberUnit at hc
  rcases hp.head with rfl | rfl <;> omega

mutual
theorem passedBy_layout (hp : Foreign x p) : ∀ v : Json,
    (∀ s ∈ v.texts, ¬ (x :: p) <:+: s) → ∀ word, PassedBy (x :: p) (layout quoteUnits v) word
  | null, _, _ => PassedBy.of_not_mem (by rcases hp.head with rfl | rfl <;> decide)
  | bool true, _, _ => PassedBy.of_not_mem (by rcases hp.head with rfl | rfl <;> decide)
  | bool false, _, _ => PassedBy.of_not_mem (by rcases hp.head with rfl | rfl <;> decide)
  | num n, _, _ => PassedBy.of_not_mem fun h =>
      Foreign.ne_of_number hp (JsNumber.toUnits_range h) rfl
  | str text, h, word => passedBy_quoteUnits hp (h text (by simp [texts])) word
  | arr items, h, word => by
      rw [layout]
      refine PassedBy.append (u := [91]) (passedBy_of_ne ?_ _) (passedBy_layoutItems hp items h word)
      rcases hp.head with rfl | rfl <;> decide
  | obj members, h, word => by
      rw [layout]
      refine PassedBy.append (u := [123]) ?_ (passedBy_layoutMembers hp members h word)
      match members with
      | [] => exact passedBy_brace hp (Or.inr rfl) rfl
      | [(k, v)] => exact passedBy_brace hp (Or.inl rfl) rfl
      | (k, v) :: m :: rest => exact passedBy_brace hp (Or.inl rfl) rfl
theorem passedBy_layoutItems (hp : Foreign x p) : ∀ items : List Json,
    (∀ s ∈ texts.itemTexts items, ¬ (x :: p) <:+: s) →
      ∀ word, PassedBy (x :: p) (layout.layoutItems quoteUnits items) word
  | [], _, word => passedBy_of_ne (by rcases hp.head with rfl | rfl <;> decide) word
  | [v], h, word => by
      rw [layout.layoutItems]
      refine (passedBy_layout hp v (fun s hs => h s ?_) _).append (passedBy_of_ne ?_ _)
      · simp [texts.itemTexts, hs]
      · rcases hp.head with rfl | rfl <;> decide
  | v :: w :: rest, h, word => by
      rw [layoutItems_cons_cons]
      refine (passedBy_layout hp v (fun s hs => h s ?_) _).append (PassedBy.append (u := [44])
        (passedBy_of_ne ?_ _) (passedBy_layoutItems hp (w :: rest) (fun s hs => h s ?_) word))
      · simp [texts.itemTexts, hs]
      · rcases hp.head with rfl | rfl <;> decide
      · rw [texts.itemTexts]
        exact List.mem_append_right _ hs
theorem passedBy_layoutMembers (hp : Foreign x p) : ∀ members : List (JsString × Json),
    (∀ s ∈ texts.memberTexts members, ¬ (x :: p) <:+: s) →
      ∀ word, PassedBy (x :: p) (layout.layoutMembers quoteUnits members) word
  | [], _, word => passedBy_of_ne (by rcases hp.head with rfl | rfl <;> decide) word
  | [(k, v)], h, word => by
      rw [layout.layoutMembers]
      refine (passedBy_quoteUnits hp (h k ?_) _).append (PassedBy.append (u := [58])
        (passedBy_of_ne ?_ _) ((passedBy_layout hp v (fun s hs => h s ?_) _).append
          (passedBy_of_ne ?_ _)))
      · simp [texts.memberTexts]
      · rcases hp.head with rfl | rfl <;> decide
      · simp [texts.memberTexts, hs]
      · rcases hp.head with rfl | rfl <;> decide
  | (k, v) :: m :: rest, h, word => by
      rw [layoutMembers_cons_cons]
      refine (passedBy_quoteUnits hp (h k ?_) _).append (PassedBy.append (u := [58])
        (passedBy_of_ne ?_ _) ((passedBy_layout hp v (fun s hs => h s ?_) _).append
          (PassedBy.append (u := [44]) (passedBy_of_ne ?_ _)
            (passedBy_layoutMembers hp (m :: rest) (fun s hs => h s ?_) word))))
      · simp [texts.memberTexts]
      · rcases hp.head with rfl | rfl <;> decide
      · simp [texts.memberTexts, hs]
      · rcases hp.head with rfl | rfl <;> decide
      · rw [texts.memberTexts]
        exact List.mem_cons_of_mem _ (List.mem_append_right _ hs)
end

end

mutual
theorem quoteUnits_infix_layout {s : JsString} : ∀ v : Json,
    s ∈ v.texts → quoteUnits s <:+: layout quoteUnits v
  | null, h | bool _, h | num _, h => by simp [texts] at h
  | str text, h => by
      rw [texts, List.mem_singleton] at h
      subst h
      exact List.infix_rfl
  | arr items, h => (quoteUnits_infix_items items h).trans (List.suffix_cons _ _).isInfix
  | obj members, h => (quoteUnits_infix_members members h).trans (List.suffix_cons _ _).isInfix
theorem quoteUnits_infix_items {s : JsString} : ∀ items : List Json,
    s ∈ texts.itemTexts items → quoteUnits s <:+: layout.layoutItems quoteUnits items
  | [], h => by simp [texts.itemTexts] at h
  | [v], h => by
      rw [texts.itemTexts, texts.itemTexts, List.append_nil] at h
      exact (quoteUnits_infix_layout v h).trans (List.prefix_append _ _).isInfix
  | v :: w :: rest, h => by
      rw [texts.itemTexts, List.mem_append] at h
      rw [layoutItems_cons_cons]
      rcases h with h | h
      · exact (quoteUnits_infix_layout v h).trans (List.prefix_append _ _).isInfix
      · exact (quoteUnits_infix_items (w :: rest) h).trans
          ((List.suffix_cons _ _).trans (List.suffix_append _ _)).isInfix
theorem quoteUnits_infix_members {s : JsString} : ∀ members : List (JsString × Json),
    s ∈ texts.memberTexts members → quoteUnits s <:+: layout.layoutMembers quoteUnits members
  | [], h => by simp [texts.memberTexts] at h
  | [(k, v)], h => by
      simp only [texts.memberTexts, List.append_nil, List.mem_cons] at h
      rw [layout.layoutMembers]
      rcases h with rfl | h
      · exact (List.prefix_append _ _).isInfix
      · exact ((quoteUnits_infix_layout v h).trans (List.prefix_append _ _).isInfix).trans
          ((List.suffix_cons _ _).trans (List.suffix_append _ _)).isInfix
  | (k, v) :: m :: rest, h => by
      rw [texts.memberTexts, List.mem_cons, List.mem_append] at h
      rw [layoutMembers_cons_cons]
      rcases h with rfl | h | h
      · exact (List.prefix_append _ _).isInfix
      · exact ((quoteUnits_infix_layout v h).trans (List.prefix_append _ _).isInfix).trans
          ((List.suffix_cons _ _).trans (List.suffix_append _ _)).isInfix
      · exact ((quoteUnits_infix_members (m :: rest) h).trans
          ((List.suffix_cons _ _).trans (List.suffix_append _ _)).isInfix).trans
            ((List.suffix_cons _ _).trans (List.suffix_append _ _)).isInfix
end

/-- A foreign pattern occurs in the text of a value exactly when it occurs in a string of it. -/
theorem infix_stringify {x : ℕ} {p : JsString} (hp : Foreign x p) (v : Json) :
    (x :: p) <:+: v.stringify ↔ ∃ s ∈ v.texts, (x :: p) <:+: s := by
  constructor
  · intro h
    by_contra hn
    push Not at hn
    have hpassed := passedBy_layout hp v hn []
    rw [← stringify] at hpassed
    unfold PassedBy at hpassed
    obtain ⟨a, b, hab⟩ := h
    rw [List.append_nil, firstIndex, if_neg (by simp), Option.map_none] at hpassed
    have hcontained : (x :: p) <:+: v.stringify := ⟨a, b, hab⟩
    exact firstIndex_ne_none hcontained hpassed
  · rintro ⟨s, hs, h⟩
    have hplain : ∀ c ∈ x :: p, IsPlain c := by
      intro c hc
      rcases List.mem_cons.mp hc with rfl | hc
      · exact hp.head_plain
      · exact hp.plain c hc
    exact (infix_quoteUnits hplain h).trans (quoteUnits_infix_layout v hs)

end Json
end CodeShare
