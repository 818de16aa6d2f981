import Mathlib.Data.List.Infix
import Mathlib.Data.List.Basic

/-! # Lines of a text

A text over any alphabet with a separator. `LineAt` says that a given line stands at a position: it
starts the text or follows a separator, and what follows it ends a line. A line without separators
stands at the start of one of the lines and is that whole line, which is what the rules at the end say
of a text taken apart at its separators.
-/

namespace CodeShare.Lines
set_option autoImplicit false

variable {α : Type}

/-- `ends` says which letters end a line; `none` is the end of the text. -/
structure LineAt (sep : α) (ends : Option α → Prop) (line text : List α) (p : ℕ) : Prop where
  start : p = 0 ∨ text[p - 1]? = some sep
  content : line <+: text.drop p
  stop : ends text[p + line.length]?

/-- The separator ends a line, and no other letter does. -/
def EndsLine (sep : α) (ends : Option α → Prop) : Prop := ∀ c, ends (some c) ↔ c = sep

/-- A text behind which a line starts. -/
def Complete (sep : α) (text : List α) : Prop := text = [] ∨ ∃ u, text = u ++ [sep]

namespace LineAt
variable {sep : α} {ends : Option α → Prop} {line text before rest first : List α} {p q : ℕ}

theorem le_length (h : LineAt sep ends line text p) (hne : line ≠ []) : p < text.length := by
  have hlength := h.content.length_le
  rw [List.length_drop] at hlength
  have hpos : 0 < line.length := List.length_pos_iff.mpr hne
  omega

/-- Lines behind a complete text are lines of what follows it. -/
theorem append_iff (hbefore : Complete sep before) :
    LineAt sep ends line (before ++ rest) (before.length + q) ↔ LineAt sep ends line rest q := by
  have hstart : (before.length + q = 0 ∨ (before ++ rest)[before.length + q - 1]? = some sep) ↔
      (q = 0 ∨ rest[q - 1]? = some sep) := by
    cases q with
    | zero =>
      refine iff_of_true ?_ (Or.inl rfl)
      rcases hbefore with rfl | ⟨u, rfl⟩
      · exact Or.inl rfl
      · refine Or.inr ?_
        simp
    | succ q =>
      have hindex : before.length + (q + 1) - 1 = before.length + q := by omega
      rw [hindex, List.getElem?_append_right (Nat.le_add_right _ _), Nat.add_sub_cancel_left]
      simp
  have hdrop : (before ++ rest).drop (before.length + q) = rest.drop q := by
    rw [List.drop_append, List.drop_of_length_le (by omega), List.nil_append,
      Nat.add_sub_cancel_left]
  have hstop : (before ++ rest)[before.length + q + line.length]? = rest[q + line.length]? := by
    rw [Nat.add_assoc, List.getElem?_append_right (Nat.le_add_right _ _), Nat.add_sub_cancel_left]
  constructor
  · rintro ⟨h, hcontent, hs⟩
    exact ⟨hstart.mp h, hdrop ▸ hcontent, hstop ▸ hs⟩
  · rintro ⟨h, hcontent, hs⟩
    exact ⟨hstart.mpr h, hdrop ▸ hcontent, hstop ▸ hs⟩

/-- A line of a text with a complete beginning is one of the beginning or one of what follows it. -/
theorem append_cases (hbefore : Complete sep before) (hline : sep ∉ line)
    (h : LineAt sep ends line (before ++ rest) p) :
    LineAt sep ends line before p ∨ ∃ q, LineAt sep ends line rest q := by
  rcases Nat.lt_or_ge p before.length with hlt | hge
  · obtain ⟨u, rfl⟩ := hbefore.resolve_left (List.length_pos_iff.mp (by omega))
    rw [List.length_append, List.length_singleton] at hlt
    have hdrop : (u ++ [sep] ++ rest).drop p = u.drop p ++ sep :: rest := by
      rw [List.append_assoc, List.drop_append_of_le_length (by omega), List.singleton_append]
    -- the line would reach over the separator that ends the beginning
    have hfits : line.length ≤ (u.drop p).length := by
      by_contra hover
      obtain ⟨tail, htail⟩ := h.content
      rw [hdrop] at htail
      have hget : (line)[(u.drop p).length]? = some sep := by
        rw [← List.getElem?_append_left (by omega), htail, List.getElem?_append_right le_rfl, Nat.sub_self]
        rfl
      exact hline (List.mem_of_getElem? hget)
    rw [List.length_drop] at hfits
    refine Or.inl ⟨h.start.imp_right fun hsep => ?_, ?_, ?_⟩
    · rwa [List.getElem?_append_left (by simp; omega)] at hsep
    · have hcontent := h.content
      rw [hdrop] at hcontent
      rw [List.drop_append_of_le_length (by omega)]
      refine (List.prefix_of_prefix_length_le hcontent (List.prefix_append _ _) ?_).trans
        (List.prefix_append _ _)
      rwa [List.length_drop]
    · have hstop := h.stop
      rwa [List.getElem?_append_left (by simp; omega)] at hstop
  · obtain ⟨q, rfl⟩ := Nat.exists_eq_add_of_le hge
    exact Or.inr ⟨q, (append_iff hbefore).mp h⟩

/-- At the start of a text, the line is all that stands before the first separator. -/
theorem zero_iff (hends : EndsLine sep ends) (hline : sep ∉ line) (hfirst : sep ∉ first) :
    LineAt sep ends line (first ++ sep :: rest) 0 ↔ line = first := by
  constructor
  · rintro ⟨-, hcontent, hstop⟩
    rw [List.drop_zero] at hcontent
    rw [Nat.zero_add] at hstop
    rcases Nat.lt_trichotomy line.length first.length with hlt | heq | hgt
    · rw [List.getElem?_append_left hlt, List.getElem?_eq_getElem hlt, hends] at hstop
      exact absurd (hstop ▸ List.getElem_mem hlt) hfirst
    · obtain ⟨tail, htail⟩ := hcontent
      exact (List.append_inj htail heq).1
    · obtain ⟨tail, htail⟩ := hcontent
      have hget : (line)[first.length]? = some sep := by
        rw [← List.getElem?_append_left hgt, htail, List.getElem?_append_right le_rfl,
          Nat.sub_self]
        rfl
      exact absurd (List.mem_of_getElem? hget) hline
  · rintro rfl
    refine ⟨Or.inl rfl, List.prefix_append _ _, ?_⟩
    rw [Nat.zero_add, List.getElem?_append_right le_rfl, Nat.sub_self]
    exact (hends sep).mpr rfl

/-- The lines of a text are the first one and those behind it. -/
theorem cons_iff (hends : EndsLine sep ends) (hline : sep ∉ line) (hfirst : sep ∉ first) :
    LineAt sep ends line (first ++ sep :: rest) p ↔
      (p = 0 ∧ line = first) ∨ ∃ q, p = first.length + 1 + q ∧ LineAt sep ends line rest q := by
  have hcomplete : Complete sep (first ++ [sep]) := Or.inr ⟨first, rfl⟩
  have hsplit : first ++ sep :: rest = (first ++ [sep]) ++ rest := by simp
  have hlength : (first ++ [sep]).length = first.length + 1 := by simp
  constructor
  · intro h
    by_cases hp : p = 0
    · subst hp
      exact Or.inl ⟨rfl, (zero_iff hends hline hfirst).mp h⟩
    · have hge : first.length < p := by
        by_contra hlt
        have hsep := h.start.resolve_left hp
        have hindex : p - 1 < first.length := by omega
        rw [List.getElem?_append_left hindex] at hsep
        exact hfirst (List.mem_of_getElem? hsep)
      obtain ⟨q, rfl⟩ : ∃ q, p = first.length + 1 + q := ⟨p - (first.length + 1), by omega⟩
      rw [hsplit, ← hlength, append_iff hcomplete] at h
      exact Or.inr ⟨q, rfl, h⟩
  · rintro (⟨rfl, heq⟩ | ⟨q, rfl, h⟩)
    · exact (zero_iff hends hline hfirst).mpr heq
    · rw [hsplit, ← hlength, append_iff hcomplete]
      exact h

/-- The empty text has no line but the empty one. -/
theorem not_nil (hne : line ≠ []) : ¬ LineAt sep ends line [] p := fun h =>
  Nat.not_lt_zero p (h.le_length hne)

/-- An occurrence that starts a line is not covered by an earlier one. -/
theorem add_length_le (h : LineAt sep ends line text q) (hline : sep ∉ line) (hlt : p < q)
    (hp : line <+: text.drop p) : p + line.length ≤ q := by
  by_contra hover
  have hsep := h.start.resolve_left (by omega)
  obtain ⟨tail, htail⟩ := hp
  have hindex : q - 1 - p < line.length := by omega
  have hget : (line)[q - 1 - p]? = some sep := by
    rw [← List.getElem?_append_left hindex, htail, List.getElem?_drop, ← hsep]
    congr 1
    omega
  exact hline (List.mem_of_getElem? hget)

end LineAt
end CodeShare.Lines
