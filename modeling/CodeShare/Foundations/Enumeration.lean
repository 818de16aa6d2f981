import Mathlib.Data.List.Range
import Mathlib.Data.List.Sort

/-! # Numbered lists

The members of a list carry a number each, and the numbers are to be `0..n-1` in some order. Sorting
such a list by its numbers gives the one list that has them in order, whatever order it arrived in.
-/

namespace CodeShare.Enumeration
set_option autoImplicit false

variable {α : Type} {index : α → ℤ} {n : ℕ} {l l' : List α}

/-- The numbers are `0..n-1`, each of them once. -/
def Enumerates (index : α → ℤ) (n : ℕ) (l : List α) : Prop :=
  (l.map index).Perm ((List.range n).map Nat.cast)

theorem nodup_range_cast : ((List.range n).map (Nat.cast : ℕ → ℤ)).Nodup :=
  List.nodup_range.map fun _ _ h => Int.ofNat.inj h

theorem Enumerates.length_eq (h : Enumerates index n l) : l.length = n := by
  simpa using List.Perm.length_eq h

theorem Enumerates.mem_iff (h : Enumerates index n l) {k : ℤ} :
    k ∈ l.map index ↔ 0 ≤ k ∧ k < n := by
  rw [List.Perm.mem_iff h, List.mem_map]
  constructor
  · rintro ⟨i, hi, rfl⟩
    rw [List.mem_range] at hi
    omega
  · rintro ⟨hlow, hhigh⟩
    exact ⟨k.toNat, List.mem_range.mpr (by omega), by omega⟩

theorem Enumerates.nodup (h : Enumerates index n l) : (l.map index).Nodup :=
  (List.Perm.nodup_iff h).mpr nodup_range_cast

/-- Length, bounds and no number twice. -/
theorem enumerates_iff :
    Enumerates index n l ↔
      l.length = n ∧ (∀ a ∈ l, 0 ≤ index a ∧ index a < n) ∧ (l.map index).Nodup := by
  constructor
  · intro h
    refine ⟨h.length_eq, fun a ha => ?_, h.nodup⟩
    exact h.mem_iff.mp (List.mem_map_of_mem ha)
  · rintro ⟨hlength, hbounds, hnodup⟩
    have hsub : l.map index ⊆ (List.range n).map Nat.cast := by
      intro k hk
      obtain ⟨a, ha, rfl⟩ := List.mem_map.mp hk
      obtain ⟨hlow, hhigh⟩ := hbounds a ha
      exact List.mem_map.mpr ⟨(index a).toNat, List.mem_range.mpr (by omega), by omega⟩
    apply (List.subperm_of_subset hnodup hsub).perm_of_length_le
    simp [hlength]

theorem enumerates_congr (h : l.Perm l') : Enumerates index n l ↔ Enumerates index n l' :=
  ⟨((h.map index).symm.trans ·), ((h.map index).trans ·)⟩

/-- Members with the same number are the same. -/
theorem Enumerates.eq_of_index (h : Enumerates index n l) {a b : α} (ha : a ∈ l) (hb : b ∈ l)
    (hab : index a = index b) : a = b :=
  List.inj_on_of_nodup_map h.nodup ha hb hab

theorem Enumerates.map_insertionSort (h : Enumerates index n l) :
    (l.insertionSort fun a b => index a ≤ index b).map index = (List.range n).map Nat.cast := by
  have hperm : ((l.insertionSort fun a b => index a ≤ index b).map index).Perm
      ((List.range n).map Nat.cast) :=
    ((List.perm_insertionSort _ l).map index).trans h
  have hsorted : ((l.insertionSort fun a b => index a ≤ index b).map index).Pairwise (· ≤ ·) := by
    rw [List.pairwise_map]
    exact List.pairwise_insertionSort _ l
  have hrange : ((List.range n).map (Nat.cast : ℕ → ℤ)).Pairwise (· ≤ ·) := by
    rw [List.pairwise_map]
    exact List.pairwise_le_range.imp fun hle => Int.ofNat_le.mpr hle
  exact hperm.eq_of_pairwise (fun _ _ _ _ => Int.le_antisymm) hsorted hrange

/-- The order of arrival does not matter. -/
theorem Enumerates.insertionSort_congr (h : Enumerates index n l) (hperm : l'.Perm l) :
    (l'.insertionSort fun a b => index a ≤ index b) =
      l.insertionSort fun a b => index a ≤ index b := by
  have hsame : ∀ a b, a ∈ l'.insertionSort (fun a b => index a ≤ index b) →
      b ∈ l.insertionSort (fun a b => index a ≤ index b) → index a ≤ index b → index b ≤ index a →
        a = b := by
    intro a b ha hb hab hba
    rw [List.mem_insertionSort] at ha hb
    exact h.eq_of_index (hperm.subset ha) hb (Int.le_antisymm hab hba)
  have hsorted : (l'.insertionSort fun a b => index a ≤ index b).Perm
      (l.insertionSort fun a b => index a ≤ index b) :=
    ((List.perm_insertionSort _ l').trans hperm).trans (List.perm_insertionSort _ l).symm
  exact hsorted.eq_of_pairwise hsame (List.pairwise_insertionSort _ l') (List.pairwise_insertionSort _ l)

/-! ## Keys -/

/-- A member is found by its key when no other member has it. -/
theorem find_of_mem {κ : Type} [DecidableEq κ] {key : α → κ} (hnodup : (l.map key).Nodup) {a : α} (ha : a ∈ l) :
    l.find? (fun b => key b = key a) = some a := by
  cases hfind : l.find? fun b => key b = key a with
  | none => exact absurd (decide_eq_true rfl) (List.find?_eq_none.mp hfind a ha)
  | some b =>
    have hkey : key b = key a := by simpa using List.find?_some hfind
    rw [List.inj_on_of_nodup_map hnodup (List.mem_of_find?_eq_some hfind) ha hkey]

theorem find_key_iff {κ : Type} [DecidableEq κ] {key : α → κ} (hnodup : (l.map key).Nodup) {k : κ} {a : α} :
    l.find? (fun b => key b = k) = some a ↔ a ∈ l ∧ key a = k := by
  constructor
  · intro hfind
    exact ⟨List.mem_of_find?_eq_some hfind, by simpa using List.find?_some hfind⟩
  · rintro ⟨ha, rfl⟩
    exact find_of_mem hnodup ha

/-- The value of a key. -/
theorem find_value_iff {κ ν : Type} [DecidableEq κ] {entries : List (κ × ν)}
    (hnodup : (entries.map Prod.fst).Nodup) {k : κ} {v : ν} :
    (entries.find? fun entry => entry.1 = k).map Prod.snd = some v ↔ (k, v) ∈ entries := by
  rw [Option.map_eq_some_iff]
  constructor
  · rintro ⟨⟨k', v'⟩, hfind, rfl⟩
    obtain ⟨hentry, rfl⟩ := (find_key_iff hnodup).mp hfind
    exact hentry
  · intro hentry
    exact ⟨(k, v), find_of_mem hnodup hentry, rfl⟩

end CodeShare.Enumeration
