import CodeShare.Text.RegExp
import CodeShare.Text.Trimming

/-! # Global replacement of a literal

`replaceAll` piece by piece, what it leaves alone, and what it cannot bring in: a text that avoids the
replacement occurs behind the replacement only where it occurred before.
-/

namespace CodeShare
open Rewriting
set_option autoImplicit false

variable {pattern replacement text a b p q : JsString} {c x y z : ℕ}

theorem matchLiteral_eq_none (h : ¬ pattern <+: text) : matchLiteral pattern text = none := if_neg h

@[simp] theorem replaceAll_nil : replaceAll pattern replacement [] = [] := rfl

theorem replaceAll_pattern (hpattern : pattern ≠ []) :
    replaceAll pattern replacement (pattern ++ b) = replacement ++ replaceAll pattern replacement b :=
  rewrite_match hpattern (if_pos (List.prefix_append pattern b))

theorem replaceAll_cons (h : ¬ pattern <+: c :: text) :
    replaceAll pattern replacement (c :: text) = c :: replaceAll pattern replacement text :=
  rewrite_cons (matchLiteral_eq_none h)

/-- The text starts with the pattern, or its first unit is copied. -/
theorem replaceAll_induction {motive : JsString → Prop} (hpattern : pattern ≠ []) (nil : motive [])
    (found : ∀ text, motive text → motive (pattern ++ text))
    (copied : ∀ c text, ¬ pattern <+: c :: text → motive text → motive (c :: text)) (text : JsString) :
    motive text := by
  induction hlength : text.length using Nat.strong_induction_on generalizing text with
  | _ n ih =>
    cases text with
    | nil => exact nil
    | cons c text =>
      by_cases hp : pattern <+: c :: text
      · obtain ⟨rest, hrest⟩ := hp
        rw [← hrest]
        refine found rest (ih rest.length ?_ rest rfl)
        have hpos := List.length_pos_iff.mpr hpattern
        have htotal := congrArg List.length hrest
        rw [List.length_append] at htotal
        omega
      · exact copied c text hp (ih text.length (by rw [← hlength]; exact Nat.lt_succ_self _) text rfl)

/-! ## Stretches that are copied -/

theorem replaceAll_append_of_not_mem (h : x ∉ a) :
    replaceAll (x :: p) replacement (a ++ b) = a ++ replaceAll (x :: p) replacement b := by
  induction a with
  | nil => rfl
  | cons c a ih =>
    rw [List.mem_cons, not_or] at h
    rw [List.cons_append, replaceAll_cons, ih h.2, List.cons_append]
    rw [List.cons_prefix_cons]
    exact fun hp => h.1 hp.1

/-- Another pattern that starts alike. -/
theorem replaceAll_append_of_clash (hyz : y ≠ z) (hx : x ∉ z :: q) :
    replaceAll (x :: y :: p) replacement (x :: z :: q ++ b) =
      x :: z :: q ++ replaceAll (x :: y :: p) replacement b := by
  have hclash : ¬ x :: y :: p <+: x :: (z :: q ++ b) := by
    rw [List.cons_prefix_cons, List.cons_append, List.cons_prefix_cons]
    exact fun h => hyz h.2.1
  rw [List.cons_append, replaceAll_cons hclash, replaceAll_append_of_not_mem hx]
  rfl

theorem replaceAll_of_lacks (h : ¬ pattern <:+: text) : replaceAll pattern replacement text = text := by
  induction text with
  | nil => rfl
  | cons c text ih =>
    rw [replaceAll_cons fun hp => h hp.isInfix, ih fun hi => h (hi.trans (List.suffix_cons c text).isInfix)]

/-- A unit that is not in the pattern separates. -/
theorem replaceAll_append_cons (hpattern : pattern ≠ []) (hc : c ∉ pattern) (a b : JsString) :
    replaceAll pattern replacement (a ++ c :: b) =
      replaceAll pattern replacement a ++ c :: replaceAll pattern replacement b := by
  induction a using replaceAll_induction hpattern with
  | nil =>
    rw [List.nil_append, replaceAll_cons, replaceAll_nil, List.nil_append]
    intro hp
    cases pattern with
    | nil => exact hpattern rfl
    | cons x p => exact hc (by rw [(List.cons_prefix_cons.mp hp).1]; exact List.mem_cons_self)
  | found a ih =>
    rw [List.append_assoc, replaceAll_pattern hpattern, replaceAll_pattern hpattern, ih, List.append_assoc]
  | copied x a hnot ih =>
    rw [List.cons_append, replaceAll_cons, ih, replaceAll_cons hnot, List.cons_append]
    intro hp
    rcases List.prefix_or_prefix_of_prefix hp (⟨c :: b, rfl⟩ : x :: a <+: (x :: a) ++ c :: b) with hshort | hlong
    · exact hnot hshort
    · -- the occurrence would reach beyond the separator
      obtain ⟨s, rfl⟩ := hlong
      have hs : s <+: c :: b := by
        rwa [← List.cons_append, List.prefix_append_right_inj] at hp
      cases s with
      | nil => exact hnot (by rw [List.append_nil])
      | cons y s =>
        rw [List.cons_prefix_cons] at hs
        exact hc (by simp [hs.1])

/-! ## Lengths -/

theorem length_replaceAll_le (hpattern : pattern ≠ []) (hlength : replacement.length ≤ pattern.length)
    (text : JsString) : (replaceAll pattern replacement text).length ≤ text.length := by
  induction text using replaceAll_induction hpattern with
  | nil => exact Nat.le_refl _
  | found text ih =>
    rw [replaceAll_pattern hpattern, List.length_append, List.length_append]
    omega
  | copied c text hnot ih =>
    rw [replaceAll_cons hnot, List.length_cons, List.length_cons]
    omega

theorem length_replaceAll_lt (hlength : replacement.length < pattern.length) (h : pattern <:+: text) :
    (replaceAll pattern replacement text).length < text.length := by
  have hpattern : pattern ≠ [] := by
    rintro rfl
    exact absurd hlength (Nat.not_lt_zero _)
  induction text using replaceAll_induction hpattern with
  | nil => exact absurd (List.infix_nil.mp h) hpattern
  | found text ih =>
    have hle := length_replaceAll_le hpattern hlength.le text
    rw [replaceAll_pattern hpattern, List.length_append, List.length_append]
    omega
  | copied c text hnot ih =>
    rw [replaceAll_cons hnot, List.length_cons, List.length_cons]
    rcases List.infix_cons_iff.mp h with hp | hi
    · exact absurd hp hnot
    · exact Nat.succ_lt_succ (ih hi)

/-- A replacement that is shorter leaves a text alone exactly when there is nothing to replace. -/
theorem replaceAll_eq_self_iff (hlength : replacement.length < pattern.length) :
    replaceAll pattern replacement text = text ↔ ¬ pattern <:+: text := by
  refine ⟨fun h hcontained => ?_, replaceAll_of_lacks⟩
  have hlt := length_replaceAll_lt hlength hcontained
  rw [h] at hlt
  exact Nat.lt_irrefl _ hlt

/-! ## What does not come in -/

section
variable {f : ℕ → ℕ} {l : JsString}

theorem prefix_of_replaceAll (hpattern : pattern ≠ []) (hl : f c ∉ l)
    (h : l <+: (replaceAll pattern [c] text).map f) : l <+: text.map f := by
  induction text using replaceAll_induction hpattern generalizing l with
  | nil => exact h
  | found text ih =>
    rw [replaceAll_pattern hpattern, List.singleton_append, List.map_cons] at h
    cases l with
    | nil => exact List.nil_prefix
    | cons d l =>
      rw [List.cons_prefix_cons] at h
      exact absurd (by rw [← h.1]; exact List.mem_cons_self) hl
  | copied d text hnot ih =>
    rw [replaceAll_cons hnot, List.map_cons] at h
    cases l with
    | nil => exact List.nil_prefix
    | cons e l =>
      rw [List.cons_prefix_cons] at h
      rw [List.map_cons, List.cons_prefix_cons]
      exact ⟨h.1, ih (fun hm => hl (List.mem_cons_of_mem _ hm)) h.2⟩

theorem lacks_of_replaceAll (hpattern : pattern ≠ []) (hl : f c ∉ l) (hne : l ≠ [])
    (h : l <:+: (replaceAll pattern [c] text).map f) : l <:+: text.map f := by
  induction text using replaceAll_induction hpattern with
  | nil => exact h
  | found text ih =>
    rw [replaceAll_pattern hpattern, List.singleton_append, List.map_cons] at h
    rw [List.map_append]
    rcases List.infix_cons_iff.mp h with hp | hi
    · cases l with
      | nil => exact absurd rfl hne
      | cons d l =>
        rw [List.cons_prefix_cons] at hp
        exact absurd (by rw [← hp.1]; exact List.mem_cons_self) hl
    · exact (ih hi).trans (List.suffix_append _ _).isInfix
  | copied d text hnot ih =>
    have hcons : l <+: (replaceAll pattern [c] (d :: text)).map f → l <+: (d :: text).map f :=
      prefix_of_replaceAll hpattern hl
    rw [replaceAll_cons hnot, List.map_cons] at h hcons
    rcases List.infix_cons_iff.mp h with hp | hi
    · exact (hcons hp).isInfix
    · exact (ih hi).trans (List.suffix_cons _ _).isInfix

end

theorem mem_of_replaceAll (hpattern : pattern ≠ []) (h : x ∈ replaceAll pattern replacement text) :
    x ∈ replacement ∨ x ∈ text := by
  induction text using replaceAll_induction hpattern with
  | nil => cases h
  | found text ih =>
    rw [replaceAll_pattern hpattern, List.mem_append] at h
    rcases h with h | h
    · exact Or.inl h
    · exact (ih h).imp_right (List.mem_append_right pattern)
  | copied c text hnot ih =>
    rw [replaceAll_cons hnot, List.mem_cons] at h
    rcases h with rfl | h
    · exact Or.inr List.mem_cons_self
    · exact (ih h).imp_right (List.mem_cons_of_mem c)

theorem Framed.replaceAll (h : Framed text) (hpattern : pattern ≠ []) (hc : isRegexSpace c = false) :
    Framed (replaceAll pattern [c] text) := by
  refine ⟨?_, ?_⟩
  · obtain ⟨x, hfirst, hx⟩ := h.first
    obtain ⟨rest, rfl⟩ := List.head?_eq_some_iff.mp hfirst
    by_cases hp : pattern <+: x :: rest
    · obtain ⟨b, hb⟩ := hp
      rw [← hb, replaceAll_pattern hpattern]
      exact ⟨c, rfl, hc⟩
    · rw [replaceAll_cons hp]
      exact ⟨x, rfl, hx⟩
  · obtain ⟨x, hlast, hx⟩ := h.last
    clear h
    induction text using replaceAll_induction hpattern with
    | nil => cases hlast
    | found text ih =>
      rw [replaceAll_pattern hpattern, List.getLast?_append]
      cases htext : text.getLast? with
      | none =>
        rw [List.getLast?_eq_none_iff] at htext
        exact ⟨c, by rw [htext]; rfl, hc⟩
      | some y =>
        rw [List.getLast?_append, htext, Option.some_or] at hlast
        obtain ⟨z, hz, hspace⟩ := ih (htext.trans hlast)
        exact ⟨z, by rw [hz]; rfl, hspace⟩
    | copied y text hnot ih =>
      rw [replaceAll_cons hnot, List.getLast?_cons]
      cases htext : text.getLast? with
      | none =>
        rw [List.getLast?_eq_none_iff] at htext
        subst htext
        obtain rfl := Option.some.inj hlast
        exact ⟨y, rfl, hx⟩
      | some z =>
        rw [List.getLast?_cons, htext, Option.getD_some] at hlast
        obtain ⟨w, hw, hspace⟩ := ih (htext.trans hlast)
        exact ⟨w, by rw [hw]; rfl, hspace⟩

end CodeShare
