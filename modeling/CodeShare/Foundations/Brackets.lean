import Mathlib.Data.List.Infix
import Mathlib.Data.List.Count

/-! # Brackets and quotes

Words over any alphabet with kinds of brackets, marks that open and close a quoted part and a letter that
escapes the next one inside of it. The depth of a kind is how many of its brackets are open behind a word.
-/

namespace CodeShare.Brackets
set_option autoImplicit false

variable {α : Type} [DecidableEq α] {kind : α × α} {kinds : List (α × α)} {word before : List α} {c : α}

/-! ## Depths -/

def depth (kind : α × α) (word : List α) : ℤ := word.count kind.1 - word.count kind.2

@[simp] theorem depth_nil : depth kind [] = 0 := rfl

theorem depth_concat : depth kind (word ++ [c]) =
    depth kind word + ((if c = kind.1 then 1 else 0) - (if c = kind.2 then 1 else 0)) := by
  simp only [depth, List.count_append, List.count_singleton, beq_iff_eq]
  split_ifs <;> omega

/-- No bracket of a kind is closed before it is opened, and none is left open. -/
structure Balanced (kinds : List (α × α)) (word : List α) : Prop where
  nonneg : ∀ before, before <+: word → ∀ kind ∈ kinds, 0 ≤ depth kind before
  closed : ∀ kind ∈ kinds, depth kind word = 0

/-- Wherever the letter stands, a bracket is open. -/
def Enclosed (kinds : List (α × α)) (letter : α) (word : List α) : Prop :=
  ∀ before, before ++ [letter] <+: word → ∃ kind ∈ kinds, 0 < depth kind before

/-- All the brackets that were opened are closed again. -/
def Level (kinds : List (α × α)) (word : List α) : Prop := ∀ kind ∈ kinds, depth kind word = 0

theorem Enclosed.not_level (h : Enclosed kinds c word) (hbefore : before ++ [c] <+: word) : ¬ Level kinds before := by
  intro hlevel
  obtain ⟨kind, hkind, hopen⟩ := h before hbefore
  have hzero := hlevel kind hkind
  omega

instance : Decidable (Level kinds word) := inferInstanceAs (Decidable (∀ kind ∈ kinds, _))

instance : Decidable (Balanced kinds word) :=
  decidable_of_iff ((∀ before ∈ word.inits, ∀ kind ∈ kinds, 0 ≤ depth kind before) ∧ Level kinds word) <| by
    simp only [List.mem_inits]
    exact ⟨fun h => ⟨h.1, h.2⟩, fun h => ⟨h.nonneg, h.closed⟩⟩

instance : Decidable (Enclosed kinds c word) :=
  decidable_of_iff
    (∀ before ∈ word.inits, before ++ [c] <+: word → ∃ kind ∈ kinds, 0 < depth kind before) <| by
    simp only [List.mem_inits]
    exact ⟨fun h before hc => h before ((List.prefix_append _ _).trans hc) hc, fun h before _ => h before⟩

/-! ## Quoted parts -/

/-- What stands outside of the quoted parts, if all of them are closed; the first argument is the mark of the
quoted part that the word starts in. -/
def unquoted (marks : List α) (escape : α) : Option α → List α → Option (List α)
  | none, [] => some []
  | none, c :: rest =>
    if c ∈ marks then unquoted marks escape (some c) rest else (unquoted marks escape none rest).map (c :: ·)
  | some _, [] => none
  | some mark, c :: rest =>
    if c = escape then
      match rest with
      | [] => none
      | _ :: rest => unquoted marks escape (some mark) rest
    else if c = mark then unquoted marks escape none rest
    else unquoted marks escape (some mark) rest

section
variable {marks : List α} {escape mark : α} {rest outside : List α}

theorem unquoted_opening (hc : c ∈ marks) :
    unquoted marks escape none (c :: rest) = unquoted marks escape (some c) rest := if_pos hc

theorem unquoted_sign (hc : c ∉ marks) :
    unquoted marks escape none (c :: rest) = (unquoted marks escape none rest).map (c :: ·) := if_neg hc

theorem unquoted_escaped :
    unquoted marks escape (some mark) (escape :: c :: rest) = unquoted marks escape (some mark) rest := if_pos rfl

theorem unquoted_closing (hmark : mark ≠ escape) :
    unquoted marks escape (some mark) (mark :: rest) = unquoted marks escape none rest := by
  rw [unquoted.eq_def]
  simp [hmark]

theorem unquoted_inside (hescape : c ≠ escape) (hmark : c ≠ mark) :
    unquoted marks escape (some mark) (c :: rest) = unquoted marks escape (some mark) rest := by
  rw [unquoted.eq_def]
  simp [hescape, hmark]

end
end CodeShare.Brackets
