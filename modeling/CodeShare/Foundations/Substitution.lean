import Mathlib.Data.List.Infix
import Mathlib.Data.List.Basic

/-! # First-occurrence replacement with an escape language

Words over any alphabet. `substitute` replaces the first occurrence of a pattern by a fixed value;
`expand` reads a replacement text in which a marker `d` followed by a letter `c` stands for the
word `f c`. A chain of such replacements over one text is exact when no earlier value contains a
later pattern and no value contains an escape. `Transparent.expand_exact` is the converse: a
transparent text function that reproduces a value behind `expand` found neither in it.
-/

namespace CodeShare.Substitution
set_option autoImplicit false

variable {α : Type} [DecidableEq α]

/-! ## Finding and replacing -/

/-- Position of the first occurrence of `pattern`. -/
def firstIndex (pattern : List α) : List α → Option ℕ
  | [] => if pattern = [] then some 0 else none
  | c :: word => if pattern <+: c :: word then some 0 else (firstIndex pattern word).map (· + 1)

/-- The word with the first occurrence of `pattern`, if there is one, replaced by `value`. -/
def substitute (pattern value : List α) : List α → List α
  | [] => if pattern = [] then value else []
  | c :: word =>
    if pattern <+: c :: word then value ++ (c :: word).drop pattern.length
    else c :: substitute pattern value word

theorem substitute_eq_splice (pattern value word : List α) :
    substitute pattern value word =
      match firstIndex pattern word with
      | none => word
      | some p => word.take p ++ value ++ word.drop (p + pattern.length) := by
  induction word with
  | nil =>
    by_cases hp : pattern = []
    · simp [substitute, firstIndex, hp]
    · simp [substitute, firstIndex, hp]
  | cons c word ih =>
    by_cases hp : pattern <+: c :: word
    · simp [substitute, firstIndex, hp]
    · rw [substitute, if_neg hp, ih, firstIndex, if_neg hp]
      cases firstIndex pattern word with
      | none => rfl
      | some p => simp [Nat.add_right_comm p 1]

theorem substitute_append_pattern (pattern value word : List α) :
    substitute pattern value (pattern ++ word) = value ++ word := by
  cases h : pattern ++ word with
  | nil =>
    obtain ⟨hp, hw⟩ := List.append_eq_nil_iff.mp h
    simp [substitute, hp, hw]
  | cons c rest =>
    have hp : pattern <+: c :: rest := ⟨word, h⟩
    rw [substitute, if_pos hp, ← h, List.drop_left]

theorem substitute_cons_of_clash {pattern value word : List α} {c : α}
    (h : ¬ pattern <+: c :: word) :
    substitute pattern value (c :: word) = c :: substitute pattern value word := by
  rw [substitute, if_neg h]

theorem firstIndex_prefix (pattern word : List α) :
    firstIndex pattern (pattern ++ word) = some 0 := by
  cases h : pattern ++ word with
  | nil => rw [firstIndex, if_pos (List.append_eq_nil_iff.mp h).1]
  | cons c rest => rw [firstIndex, if_pos ⟨word, h⟩]

theorem firstIndex_ne_none {pattern word : List α} (h : pattern <:+: word) :
    firstIndex pattern word ≠ none := by
  induction word with
  | nil =>
    rw [firstIndex, if_pos (List.infix_nil.mp h)]
    simp
  | cons c word ih =>
    rw [firstIndex]
    split_ifs with hp
    · simp
    · rcases List.infix_cons_iff.mp h with h | h
      · exact absurd h hp
      · simpa using ih h

/-- The position found is that of an occurrence, and no other occurrence comes before it. -/
theorem firstIndex_eq_some {pattern word : List α} {p : ℕ} (h : firstIndex pattern word = some p) :
    pattern <+: word.drop p ∧ ∀ q < p, ¬ pattern <+: word.drop q := by
  induction word generalizing p with
  | nil =>
    rw [firstIndex] at h
    split_ifs at h with hp
    obtain rfl := Option.some.inj h
    exact ⟨hp ▸ List.nil_prefix, fun q hq => absurd hq (Nat.not_lt_zero q)⟩
  | cons c word ih =>
    rw [firstIndex] at h
    split_ifs at h with hp
    · obtain rfl := Option.some.inj h
      exact ⟨hp, fun q hq => absurd hq (Nat.not_lt_zero q)⟩
    · obtain ⟨i, hi, rfl⟩ := Option.map_eq_some_iff.mp h
      obtain ⟨hfound, hfirst⟩ := ih hi
      refine ⟨hfound, fun q hq => ?_⟩
      cases q with
      | zero => exact hp
      | succ q => exact hfirst q (by omega)

omit [DecidableEq α] in
/-- An occurrence behind letters that are not in the pattern. -/
theorem infix_of_infix_append {pattern a word : List α} (hne : pattern ≠ []) (ha : ∀ c ∈ a, c ∉ pattern)
    (h : pattern <:+: a ++ word) : pattern <:+: word := by
  induction a with
  | nil => exact h
  | cons c a ih =>
    rw [List.forall_mem_cons] at ha
    refine ih ha.2 ((List.infix_cons_iff.mp h).resolve_left fun hp => ?_)
    obtain ⟨x, tail, rfl⟩ := List.exists_cons_of_ne_nil hne
    have hx : x = c := (List.cons_prefix_cons.mp hp).1
    exact ha.1 (by rw [hx]; exact List.mem_cons_self)

omit [DecidableEq α] in
/-- An occurrence between letters that are not in the pattern. -/
theorem infix_of_infix_between {pattern a word b : List α} (hne : pattern ≠ []) (ha : ∀ c ∈ a, c ∉ pattern)
    (hb : ∀ c ∈ b, c ∉ pattern) (h : pattern <:+: a ++ (word ++ b)) : pattern <:+: word := by
  have hback := infix_of_infix_append hne ha h
  rw [← List.reverse_infix, List.reverse_append] at hback
  rw [← List.reverse_infix]
  refine infix_of_infix_append ?_ ?_ hback
  · exact fun hnil => hne (List.reverse_eq_nil_iff.mp hnil)
  · exact fun c hc hm => hb c (List.mem_reverse.mp hc) (List.mem_reverse.mp hm)

omit [DecidableEq α] in
/-- A prefix does not reach over a letter that it lacks. -/
theorem prefix_append_cons_iff {pattern word rest : List α} {c : α} (hc : c ∉ pattern) :
    pattern <+: word ++ c :: rest ↔ pattern <+: word := by
  refine ⟨fun h => ?_, fun h => h.trans (List.prefix_append _ _)⟩
  rcases List.prefix_or_prefix_of_prefix h (List.prefix_append word (c :: rest)) with hp | ⟨behind, rfl⟩
  · exact hp
  · rw [List.prefix_append_right_inj] at h
    cases behind with
    | nil => rw [List.append_nil]
    | cons x behind =>
      rw [List.cons_prefix_cons] at h
      exact absurd (by rw [h.1]; simp) hc

/-! ## Stretches of text without an occurrence -/

/-- No occurrence of `pattern` in `u ++ word` starts inside `u`. -/
def PassedBy (pattern u word : List α) : Prop :=
  firstIndex pattern (u ++ word) = (firstIndex pattern word).map (· + u.length)

namespace PassedBy
variable {pattern u v word : List α}

theorem nil : PassedBy pattern [] word := by
  simp [PassedBy]

theorem cons {c : α} (hc : ¬ pattern <+: c :: (u ++ word)) (hu : PassedBy pattern u word) :
    PassedBy pattern (c :: u) word := by
  unfold PassedBy at hu ⊢
  rw [List.cons_append, firstIndex, if_neg hc, hu, Option.map_map]
  rfl

theorem append (hu : PassedBy pattern u (v ++ word)) (hv : PassedBy pattern v word) :
    PassedBy pattern (u ++ v) word := by
  unfold PassedBy at hu hv ⊢
  rw [List.append_assoc, hu, hv, Option.map_map, List.length_append]
  congr 1
  funext n
  simp only [Function.comp_apply]
  omega

/-- A stretch without the pattern's first letter. -/
theorem of_not_mem {x : α} {p : List α} (h : x ∉ u) : PassedBy (x :: p) u word := by
  induction u with
  | nil => exact nil
  | cons c u ih =>
    rw [List.mem_cons, not_or] at h
    refine cons ?_ (ih h.2)
    rw [List.cons_prefix_cons]
    exact fun hp => h.1 hp.1

/-- Another pattern with the same first letter, when neither is a prefix of the other. -/
theorem of_clash {x : α} {p q : List α} (hx : x ∉ q) (hpq : ¬ p <+: q) (hqp : ¬ q <+: p) :
    PassedBy (x :: p) (x :: q) word := by
  refine cons ?_ (of_not_mem hx)
  rw [List.cons_prefix_cons]
  rintro ⟨-, hp⟩
  rcases List.prefix_or_prefix_of_prefix hp (List.prefix_append q word) with h | h
  · exact hpq h
  · exact hqp h

/-- A stretch that does not contain the pattern, followed by a letter that is not in it. -/
theorem of_not_infix {c : α} (hc : c ∉ pattern) (hu : ¬ pattern <:+: u) :
    PassedBy pattern u (c :: word) := by
  induction u with
  | nil => exact nil
  | cons a u ih =>
    refine cons ?_ (ih fun h => hu (h.trans (List.suffix_cons a u).isInfix))
    -- an occurrence that reaches beyond the stretch would contain `c`
    rw [← List.cons_append, prefix_append_cons_iff hc]
    exact fun h => hu h.isInfix

theorem substitute (value : List α) (h : PassedBy pattern u word) :
    substitute pattern value (u ++ word) = u ++ Substitution.substitute pattern value word := by
  unfold PassedBy at h
  rw [substitute_eq_splice, substitute_eq_splice, h]
  cases firstIndex pattern word with
  | none => rfl
  | some p =>
    simp only [Option.map_some]
    have htake : p + u.length - u.length = p := by omega
    have hdrop : p + u.length + pattern.length - u.length = p + pattern.length := by omega
    rw [List.take_append, List.drop_append, List.take_of_length_le (by omega),
      List.drop_eq_nil_of_le (by omega), List.nil_append, htake, hdrop]
    simp only [List.append_assoc]

theorem firstIndex_eq (h : PassedBy pattern u (pattern ++ word)) :
    firstIndex pattern (u ++ (pattern ++ word)) = some u.length := by
  unfold PassedBy at h
  rw [h, firstIndex_prefix, Option.map_some, Nat.zero_add]

end PassedBy

/-! ## Escapes -/

section Escapes
variable (d : α) (f : α → Option (List α))

/-- The replacement text read from left to right: `d` followed by `c` stands for `f c`. -/
def expand : List α → List α
  | a :: c :: word =>
    if a = d then
      match f c with
      | some r => r ++ expand word
      | none => a :: expand (c :: word)
    else a :: expand (c :: word)
  | word => word

/-- No marker of the text is followed by a letter that has a meaning. -/
def EscapeFree (word : List α) : Prop := ∀ c, [d, c] <:+: word → f c = none

variable {d f}

omit [DecidableEq α] in
theorem EscapeFree.tail {a : α} {word : List α} (h : EscapeFree d f (a :: word)) :
    EscapeFree d f word :=
  fun c hc => h c (hc.trans (List.suffix_cons a word).isInfix)

omit [DecidableEq α] in
theorem escapeFree_cons {a c : α} {word : List α} (hw : EscapeFree d f (c :: word))
    (hac : a = d → f c = none) : EscapeFree d f (a :: c :: word) := by
  intro b hb
  rcases List.infix_cons_iff.mp hb with h | h
  · rw [List.cons_prefix_cons, List.cons_prefix_cons] at h
    rw [h.2.1]
    exact hac h.1.symm
  · exact hw b h

omit [DecidableEq α] in
theorem escapeFree_short {word : List α} (h : word.length ≤ 1) : EscapeFree d f word := by
  intro c hc
  have := hc.length_le
  simp only [List.length_cons, List.length_nil] at this
  omega

theorem expand_of_escapeFree {word : List α} (h : EscapeFree d f word) :
    expand d f word = word := by
  induction word using expand.induct d f with
  | case1 c word r hr ih =>
    have hn := h c ⟨[], word, rfl⟩
    rw [hr] at hn
    cases hn
  | case2 c word hr ih => rw [expand, if_pos rfl, hr, ih h.tail]
  | case3 a c word ha ih => rw [expand, if_neg ha, ih h.tail]
  | case4 word hshort =>
    unfold expand
    split
    · exact absurd rfl (hshort _ _ _)
    · rfl

end Escapes

/-! ## Transparent text functions -/

/-- `R` copies every letter but the mark `x`; at a mark it either copies it or writes a text that
starts with neither the mark nor the escape letter `d`. -/
structure Transparent (x d : α) (R : List α → List α) : Prop where
  other : ∀ c word, c ≠ x → R (c :: word) = c :: R word
  mark : ∀ word, R (x :: word) = x :: R word ∨ ∃ h t, R (x :: word) = h :: t ∧ h ≠ x ∧ h ≠ d

namespace Transparent
variable {x d : α} {R S : List α → List α}

omit [DecidableEq α] in
theorem id_transparent (x d : α) : Transparent x d id where
  other _ _ _ := rfl
  mark _ := Or.inl rfl

omit [DecidableEq α] in
theorem comp (hS : Transparent x d S) (hR : Transparent x d R) : Transparent x d (S ∘ R) where
  other c word hc := by
    simp only [Function.comp_apply]
    rw [hR.other c word hc, hS.other c _ hc]
  mark word := by
    simp only [Function.comp_apply]
    rcases hR.mark word with h | ⟨h, t, he, hx, hd⟩
    · rw [h]
      exact hS.mark _
    · rw [he, hS.other h t hx]
      exact Or.inr ⟨h, S t, rfl, hx, hd⟩

theorem of_substitute {pattern value : List α} {h : α} {t : List α} (hv : value = h :: t)
    (hx : h ≠ x) (hd : h ≠ d) : Transparent x d (substitute (x :: pattern) value) where
  other c word hc := by
    apply substitute_cons_of_clash
    rw [List.cons_prefix_cons]
    exact fun hp => hc hp.1.symm
  mark word := by
    by_cases hp : (x :: pattern) <+: x :: word
    · rw [substitute, if_pos hp, hv]
      exact Or.inr ⟨h, _, rfl, hx, hd⟩
    · exact Or.inl (substitute_cons_of_clash hp)

/-- Where the output starts with the input's letter, that letter was copied. -/
theorem peel (hR : Transparent x d R) {c : α} {word t : List α} (h : R (c :: word) = c :: t) :
    R word = t := by
  by_cases hc : c = x
  · subst hc
    rcases hR.mark word with he | ⟨b, s, he, hb, -⟩
    · rw [he] at h
      exact (List.cons.inj h).2
    · rw [he] at h
      exact absurd (List.cons.inj h).1 hb
  · rw [hR.other c word hc] at h
    exact (List.cons.inj h).2

theorem peel_append (hR : Transparent x d R) {u word t : List α} (h : R (u ++ word) = u ++ t) :
    R word = t := by
  induction u with
  | nil => exact h
  | cons c u ih => exact ih (hR.peel h)

/-- The escape letter heads the output only where it heads the input. -/
theorem head_ne (hR : Transparent x d R) {c : α} {word t : List α} (hc : c ≠ d) :
    R (c :: word) ≠ d :: t := by
  intro h
  by_cases hx : c = x
  · subst hx
    rcases hR.mark word with he | ⟨b, s, he, -, hb⟩
    · rw [he] at h
      exact hc (List.cons.inj h).1
    · rw [he] at h
      exact hb (List.cons.inj h).1
  · rw [hR.other c word hx] at h
    exact hc (List.cons.inj h).1

/-- A pattern at whose occurrence `R` does not write the mark is not in a text that `R` copies. -/
theorem not_infix_of_copied (hR : Transparent x d R) {p u word t : List α}
    (hp : ∀ w s, R (x :: p ++ w) ≠ x :: s) (h : R (u ++ word) = u ++ t) : ¬ (x :: p) <:+: u := by
  rintro ⟨a, b, rfl⟩
  have h' : R (a ++ (x :: p ++ (b ++ word))) = a ++ (x :: p ++ (b ++ t)) := by
    simpa only [List.append_assoc] using h
  exact hp _ _ (hR.peel_append h')

section Exactness
variable {f : α → Option (List α)}

/-- Once a doubled marker has been contracted, the output lags behind the text by markers and never
catches up. -/
theorem expand_lag (hR : Transparent x d R) (hdx : d ≠ x) (hself : f d = some [d])
    (hf : ∀ c r, c ≠ d → f c = some r → ∃ h t, r = h :: t ∧ h ≠ d) {rest : List α}
    (hrest : ∀ t, R rest ≠ d :: t) (word : List α) :
    ∀ k t, R (expand d f word ++ rest) ≠ List.replicate (k + 1) d ++ (word ++ t) := by
  have hcopy : ∀ {w t : List α} {k : ℕ}, R (d :: w) = List.replicate (k + 1) d ++ (d :: t) →
      R w = List.replicate (k + 1) d ++ t := by
    intro w t k h
    have h1 : R w = List.replicate k d ++ (d :: t) := by
      apply hR.peel
      rw [h, List.replicate_succ, List.cons_append]
    rw [h1, List.replicate_succ', List.append_assoc, List.singleton_append]
  induction word using expand.induct d f with
  | case1 c word r hr ih =>
    intro k t h
    rw [expand, if_pos rfl, hr] at h
    by_cases hc : c = d
    · subst hc
      rw [hself, Option.some.injEq] at hr
      subst hr
      have h1 : R (expand c f word ++ rest) = List.replicate (k + 1) c ++ (c :: (word ++ t)) :=
        hcopy h
      refine ih (k + 1) t ?_
      rw [h1, List.replicate_succ' (n := k + 1), List.append_assoc, List.singleton_append]
    · obtain ⟨b, s, rfl, hb⟩ := hf c r hc hr
      exact hR.head_ne hb h
  | case2 c word hr ih =>
    intro k t h
    rw [expand, if_pos rfl, hr] at h
    exact ih k t (hcopy h)
  | case3 a c word ha ih =>
    intro k t h
    rw [expand, if_neg ha] at h
    exact hR.head_ne ha h
  | case4 word hshort =>
    intro k t h
    match word, hshort with
    | [], _ => exact hrest _ h
    | [a], _ =>
      rw [expand] at h
      · by_cases ha : a = d
        · subst ha
          exact hrest _ (hcopy h)
        · exact hR.head_ne ha h
      · simp
    | a :: c :: word, hshort => exact absurd rfl (hshort a c word)

/-- If a transparent function turns the expansion of `word` back into `word`, the text had no
escape, and `R` copied it. -/
theorem expand_exact (hR : Transparent x d R) (hdx : d ≠ x) (hself : f d = some [d])
    (hf : ∀ c r, c ≠ d → f c = some r → ∃ h t, r = h :: t ∧ h ≠ d) {rest : List α}
    (hrest : ∀ t, R rest ≠ d :: t) {word t : List α}
    (h : R (expand d f word ++ rest) = word ++ t) :
    EscapeFree d f word ∧ R rest = t := by
  induction word using expand.induct d f with
  | case1 c word r hr ih =>
    rw [expand, if_pos rfl, hr] at h
    by_cases hc : c = d
    · subst hc
      rw [hself, Option.some.injEq] at hr
      subst hr
      exact absurd (hR.peel h) (expand_lag hR hdx hself hf hrest word 0 t)
    · obtain ⟨b, s, rfl, hb⟩ := hf c r hc hr
      exact absurd h (hR.head_ne hb)
  | case2 c word hr ih =>
    rw [expand, if_pos rfl, hr] at h
    obtain ⟨hfree, ht⟩ := ih (hR.peel h)
    exact ⟨escapeFree_cons hfree (fun _ => hr), ht⟩
  | case3 a c word ha ih =>
    rw [expand, if_neg ha] at h
    obtain ⟨hfree, ht⟩ := ih (hR.peel h)
    exact ⟨escapeFree_cons hfree (fun he => absurd he ha), ht⟩
  | case4 word hshort =>
    match word, hshort with
    | [], _ => exact ⟨escapeFree_short (by simp), h⟩
    | [a], _ =>
      rw [expand] at h
      · exact ⟨escapeFree_short (by simp), hR.peel h⟩
      · simp
    | a :: c :: word, hshort => exact absurd rfl (hshort a c word)

end Exactness
end Transparent

end CodeShare.Substitution
