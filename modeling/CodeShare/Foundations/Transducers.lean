import Mathlib.Data.List.Basic

/-! # Transducers

A transducer reads one letter at a time, writes some letters for it and keeps a state. Fed with a word in pieces it
writes what it writes for the whole word.
-/

namespace CodeShare
set_option autoImplicit false

structure Transducer (σ α β : Type) where
  step : σ → α → List β × σ

namespace Transducer
variable {σ α β : Type} (T : Transducer σ α β)

/-- What is written for a word, and the state behind it. -/
def feed (s : σ) : List α → List β × σ
  | [] => ([], s)
  | a :: word => ((T.step s a).1 ++ (feed (T.step s a).2 word).1, (feed (T.step s a).2 word).2)

@[simp] theorem feed_nil (s : σ) : T.feed s [] = ([], s) := rfl

theorem feed_cons (s : σ) (a : α) (word : List α) : T.feed s (a :: word) =
    ((T.step s a).1 ++ (T.feed (T.step s a).2 word).1, (T.feed (T.step s a).2 word).2) := rfl

theorem feed_append (s : σ) (word word' : List α) : T.feed s (word ++ word') =
    ((T.feed s word).1 ++ (T.feed (T.feed s word).2 word').1, (T.feed (T.feed s word).2 word').2) := by
  induction word generalizing s with
  | nil => rfl
  | cons a word ih =>
    rw [List.cons_append, feed_cons, ih, feed_cons]
    simp only [List.append_assoc]

end Transducer

/-! ## Lines -/

/-- The lines of a word, without the separator; the state is the line that has begun. -/
def lineTransducer {α : Type} [DecidableEq α] (sep : α) : Transducer (List α) α (List α) where
  step line a := if a = sep then ([line], []) else ([], line ++ [a])

section
variable {α : Type} [DecidableEq α] {sep : α}

/-- The lines are the parts between the separators, but for the last. -/
theorem lineTransducer_feed {line : List α} (hline : sep ∉ line) (word : List α) :
    ∃ last, sep ∉ last ∧ (line ++ word).splitOn sep = ((lineTransducer sep).feed line word).1 ++ [last] ∧
      ((lineTransducer sep).feed line word).2 = last := by
  induction word generalizing line with
  | nil =>
    rw [List.append_nil, List.splitOn_eq_singleton hline]
    exact ⟨line, hline, rfl, rfl⟩
  | cons a word ih =>
    by_cases ha : a = sep
    · subst ha
      have hstep : (lineTransducer a).step line a = ([line], []) := if_pos rfl
      obtain ⟨last, hlast, hsplit, hstate⟩ := ih (List.not_mem_nil (a := a))
      refine ⟨last, hlast, ?_, ?_⟩
      · rw [List.splitOn_append_cons_self_of_not_mem hline, Transducer.feed_cons, hstep, List.append_assoc,
          ← hsplit]
        rfl
      · rw [Transducer.feed_cons, hstep]
        exact hstate
    · have hstep : (lineTransducer sep).step line a = ([], line ++ [a]) := if_neg ha
      have hlonger : sep ∉ line ++ [a] := by
        rw [List.mem_append, List.mem_singleton, not_or]
        exact ⟨hline, fun h => ha h.symm⟩
      obtain ⟨last, hlast, hsplit, hstate⟩ := ih hlonger
      refine ⟨last, hlast, ?_, ?_⟩
      · rw [List.append_cons, hsplit, Transducer.feed_cons, hstep]
        rfl
      · rw [Transducer.feed_cons, hstep]
        exact hstate

/-- A word has complete lines and the beginning of another, which goes on behind the word. -/
theorem exists_splitOn_append (sep : α) (word : List α) : ∃ complete line, sep ∉ line ∧ ∀ rest : List α,
    (word ++ rest).splitOn sep = complete ++ (line ++ rest).splitOn sep := by
  obtain ⟨line, hline, -, hstate⟩ := lineTransducer_feed (List.not_mem_nil (a := sep)) word
  refine ⟨((lineTransducer sep).feed [] word).1, line, hline, fun rest => ?_⟩
  obtain ⟨last, -, hwhole, hlast⟩ := lineTransducer_feed (List.not_mem_nil (a := sep)) (word ++ rest)
  obtain ⟨last', -, hrest, hlast'⟩ := lineTransducer_feed hline rest
  rw [Transducer.feed_append, hstate] at hwhole hlast
  have hsame : last = last' := hlast.symm.trans hlast'
  rw [hrest, ← hsame, ← List.append_assoc]
  exact hwhole

end
end CodeShare
