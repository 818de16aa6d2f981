import Mathlib.Data.List.Basic

/-! # Global replacement

A text over any alphabet, taken apart by a function that tells how long the match at its head is. The
matches do not overlap, and the text is searched from left to right. A rewriting is computed piece by piece: a
match is replaced, and a letter at which no match starts is copied.
-/

namespace CodeShare.Rewriting
set_option autoImplicit false

variable {α : Type}

/-- The number is that of the letters that belong to a match which has been replaced. -/
def rewriteFrom (matchLength : List α → Option ℕ) (replacement : List α → List α) :
    ℕ → List α → List α
  | _, [] => []
  | matched + 1, _ :: rest => rewriteFrom matchLength replacement matched rest
  | 0, c :: rest =>
    match matchLength (c :: rest) with
    | some (n + 1) => replacement ((c :: rest).take (n + 1)) ++ rewriteFrom matchLength replacement n rest
    | _ => c :: rewriteFrom matchLength replacement 0 rest

/-- A match of length 0 counts as none. -/
def rewrite (matchLength : List α → Option ℕ) (replacement : List α → List α) : List α → List α :=
  rewriteFrom matchLength replacement 0

/-- The matches, from left to right. -/
def matchesFrom (matchLength : List α → Option ℕ) : ℕ → List α → List (List α)
  | _, [] => []
  | matched + 1, _ :: rest => matchesFrom matchLength matched rest
  | 0, c :: rest =>
    match matchLength (c :: rest) with
    | some (n + 1) => (c :: rest).take (n + 1) :: matchesFrom matchLength n rest
    | _ => matchesFrom matchLength 0 rest

def allMatches (matchLength : List α → Option ℕ) : List α → List (List α) := matchesFrom matchLength 0

/-! ## Piece by piece -/

variable {matchLength : List α → Option ℕ} {replacement : List α → List α}

theorem rewriteFrom_length (a b : List α) :
    rewriteFrom matchLength replacement a.length (a ++ b) = rewrite matchLength replacement b := by
  induction a with
  | nil => cases b <;> rfl
  | cons c a ih => exact ih

theorem matchesFrom_length (a b : List α) :
    matchesFrom matchLength a.length (a ++ b) = allMatches matchLength b := by
  induction a with
  | nil => cases b <;> rfl
  | cons c a ih => exact ih

@[simp] theorem rewrite_nil : rewrite matchLength replacement [] = [] := rfl

@[simp] theorem allMatches_nil : allMatches matchLength [] = [] := rfl

theorem rewrite_match {a b : List α} (ha : a ≠ []) (h : matchLength (a ++ b) = some a.length) :
    rewrite matchLength replacement (a ++ b) = replacement a ++ rewrite matchLength replacement b := by
  cases a with
  | nil => exact absurd rfl ha
  | cons c a =>
    have htake : (c :: (a ++ b)).take (a.length + 1) = c :: a := by simp
    rw [List.cons_append, List.length_cons] at h
    rw [List.cons_append, rewrite, rewriteFrom, h]
    dsimp only
    rw [htake, rewriteFrom_length]
    rfl

theorem rewrite_cons {c : α} {rest : List α} (h : matchLength (c :: rest) = none) :
    rewrite matchLength replacement (c :: rest) = c :: rewrite matchLength replacement rest := by
  rw [rewrite, rewriteFrom, h]

theorem allMatches_match {a b : List α} (ha : a ≠ []) (h : matchLength (a ++ b) = some a.length) :
    allMatches matchLength (a ++ b) = a :: allMatches matchLength b := by
  cases a with
  | nil => exact absurd rfl ha
  | cons c a =>
    have htake : (c :: (a ++ b)).take (a.length + 1) = c :: a := by simp
    rw [List.cons_append, List.length_cons] at h
    rw [List.cons_append, allMatches, matchesFrom, h]
    dsimp only
    rw [htake, matchesFrom_length]
    rfl

/-- A stretch in which no match starts. -/
theorem rewrite_append {a b : List α} (h : ∀ s t, a = s ++ t → t ≠ [] → matchLength (t ++ b) = none) :
    rewrite matchLength replacement (a ++ b) = a ++ rewrite matchLength replacement b := by
  induction a with
  | nil => rfl
  | cons c a ih =>
    have hhead : matchLength (c :: (a ++ b)) = none := h [] (c :: a) rfl (List.cons_ne_nil _ _)
    have hrest := ih fun s t hsplit ht => h (c :: s) t (by rw [hsplit, List.cons_append]) ht
    rw [List.cons_append, rewrite_cons hhead, hrest, List.cons_append]

/-! ## Texts written out

A text whose letters stand for words: a rewriting of the words that finds its matches where a rewriting of the
letters does comes to the same text.
-/

/-- A match is a nonempty part of the text. -/
def Sized (matchLength : List α → Option ℕ) : Prop :=
  ∀ text n, matchLength text = some n → 0 < n ∧ n ≤ text.length

/-- The text starts with a match, or its first letter is copied. -/
theorem rewrite_induction {motive : List α → Prop} (hsized : Sized matchLength) (nil : motive [])
    (found : ∀ a b, a ≠ [] → matchLength (a ++ b) = some a.length → motive b → motive (a ++ b))
    (copied : ∀ c b, matchLength (c :: b) = none → motive b → motive (c :: b)) (text : List α) : motive text := by
  induction hlength : text.length using Nat.strongRecOn generalizing text with
  | _ k ih =>
    cases text with
    | nil => exact nil
    | cons c rest =>
      cases hmatch : matchLength (c :: rest) with
      | none => exact copied c rest hmatch (ih rest.length (by rw [← hlength]; exact Nat.lt_succ_self _) rest rfl)
      | some n =>
        obtain ⟨hpos, hle⟩ := hsized _ _ hmatch
        have htake : ((c :: rest).take n).length = n := List.length_take_of_le hle
        have hsplit : (c :: rest).take n ++ (c :: rest).drop n = c :: rest := List.take_append_drop n _
        have hshorter : ((c :: rest).drop n).length < k := by
          rw [List.length_drop, hlength]
          omega
        rw [← hsplit]
        refine found _ _ ?_ ?_ (ih _ hshorter _ rfl)
        · rw [← List.length_pos_iff, htake]
          exact hpos
        · rw [hsplit, htake, hmatch]

variable {β : Type} {matchWritten : List β → Option ℕ} {rewritten : List β → List β} {write : α → List β}

theorem rewrite_flatMap {text : List α} (hsized : Sized matchLength)
    (hfound : ∀ a b, a ++ b <:+ text → a ≠ [] → matchLength (a ++ b) = some a.length →
      a.flatMap write ≠ [] ∧
      matchWritten (a.flatMap write ++ b.flatMap write) = some (a.flatMap write).length ∧
      rewritten (a.flatMap write) = (replacement a).flatMap write)
    (hcopied : ∀ c b, c :: b <:+ text → matchLength (c :: b) = none →
      ∀ s t, write c = s ++ t → t ≠ [] → matchWritten (t ++ b.flatMap write) = none) :
    rewrite matchWritten rewritten (text.flatMap write) =
      (rewrite matchLength replacement text).flatMap write := by
  have hsuffix : ∀ part, part <:+ text → rewrite matchWritten rewritten (part.flatMap write) =
      (rewrite matchLength replacement part).flatMap write := by
    intro part
    induction part using rewrite_induction hsized with
    | nil => exact fun _ => rfl
    | found a b ha hmatch ih =>
      intro hpart
      obtain ⟨hne, hwritten, hsame⟩ := hfound a b hpart ha hmatch
      rw [List.flatMap_append, rewrite_match hne hwritten, rewrite_match ha hmatch, List.flatMap_append, hsame,
        ih ((List.suffix_append a b).trans hpart)]
    | copied c b hmatch ih =>
      intro hpart
      rw [List.flatMap_cons, rewrite_append (hcopied c b hpart hmatch), rewrite_cons hmatch, List.flatMap_cons,
        ih ((List.suffix_cons c b).trans hpart)]
  exact hsuffix text (List.suffix_refl text)

/-- What the replacements read as the matches did. -/
theorem flatMap_rewrite {text : List α} (hsized : Sized matchLength)
    (hfound : ∀ a b, a ++ b <:+ text → matchLength (a ++ b) = some a.length →
      (replacement a).flatMap write = a.flatMap write) :
    (rewrite matchLength replacement text).flatMap write = text.flatMap write := by
  have hsuffix : ∀ part, part <:+ text →
      (rewrite matchLength replacement part).flatMap write = part.flatMap write := by
    intro part
    induction part using rewrite_induction hsized with
    | nil => exact fun _ => rfl
    | found a b ha hmatch ih =>
      intro hpart
      rw [rewrite_match ha hmatch, List.flatMap_append, List.flatMap_append, hfound a b hpart hmatch,
        ih ((List.suffix_append a b).trans hpart)]
    | copied c b hmatch ih =>
      intro hpart
      rw [rewrite_cons hmatch, List.flatMap_cons, List.flatMap_cons, ih ((List.suffix_cons c b).trans hpart)]
  exact hsuffix text (List.suffix_refl text)

theorem forall_mem_rewrite {text : List α} {good : α → Prop} (hsized : Sized matchLength)
    (htext : ∀ x ∈ text, good x)
    (hfound : ∀ a b, a ++ b <:+ text → matchLength (a ++ b) = some a.length → ∀ x ∈ replacement a, good x) :
    ∀ x ∈ rewrite matchLength replacement text, good x := by
  have hsuffix : ∀ part, part <:+ text → ∀ x ∈ rewrite matchLength replacement part, good x := by
    intro part
    induction part using rewrite_induction hsized with
    | nil => exact fun _ x hx => absurd hx List.not_mem_nil
    | found a b ha hmatch ih =>
      intro hpart x hx
      rw [rewrite_match ha hmatch, List.mem_append] at hx
      rcases hx with hx | hx
      · exact hfound a b hpart hmatch x hx
      · exact ih ((List.suffix_append a b).trans hpart) x hx
    | copied c b hmatch ih =>
      intro hpart x hx
      rw [rewrite_cons hmatch, List.mem_cons] at hx
      rcases hx with rfl | hx
      · exact htext x (hpart.subset List.mem_cons_self)
      · exact ih ((List.suffix_cons c b).trans hpart) x hx
  exact hsuffix text (List.suffix_refl text)

end CodeShare.Rewriting
