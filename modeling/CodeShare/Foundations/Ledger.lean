import Mathlib.Data.List.Basic
import Mathlib.Data.List.Perm.Subperm

/-! # Ledgers

Accounts that are opened once, charged at most once while they are open, and closed once. An open
account carries a flag that says whether it was charged; closed and charged keys are kept in two
lists. The total is the number of closed accounts that were charged.
-/

namespace CodeShare
set_option autoImplicit false

/-- The keys in use are those that `used` allows. -/
structure Ledger {κ : Type} (used : κ → Prop) (accounts : List (κ × Bool)) (closed charged : List κ) :
    Prop where
  accounts_nodup : (accounts.map Prod.fst).Nodup
  closed_nodup : closed.Nodup
  charged_nodup : charged.Nodup
  not_closed : ∀ account ∈ accounts, account.1 ∉ closed
  charged_iff : ∀ account ∈ accounts, account.1 ∈ charged ↔ account.2 = true
  accounts_used : ∀ account ∈ accounts, used account.1
  closed_used : ∀ key ∈ closed, used key
  charged_used : ∀ key ∈ charged, used key

theorem nodup_concat {κ : Type} {keys : List κ} {key : κ} (h : keys.Nodup) (hkey : key ∉ keys) :
    (keys ++ [key]).Nodup :=
  (List.perm_append_singleton key keys).nodup_iff.mpr (List.nodup_cons.mpr ⟨hkey, h⟩)

theorem forall_mem_concat {κ : Type} {keys : List κ} {key : κ} {p : κ → Prop} (h : ∀ k ∈ keys, p k)
    (hkey : p key) : ∀ k ∈ keys ++ [key], p k :=
  List.forall_mem_append.mpr ⟨h, List.forall_mem_singleton.mpr hkey⟩

namespace Ledger
variable {κ : Type} {used used' : κ → Prop} {accounts accounts' : List (κ × Bool)}
  {closed charged : List κ} {key : κ} {flag : Bool}

theorem empty : Ledger used [] [] [] where
  accounts_nodup := List.nodup_nil
  closed_nodup := List.nodup_nil
  charged_nodup := List.nodup_nil
  not_closed := List.forall_mem_nil _
  charged_iff := List.forall_mem_nil _
  accounts_used := List.forall_mem_nil _
  closed_used := List.forall_mem_nil _
  charged_used := List.forall_mem_nil _

/-- Accounts may be reordered, and forgotten. -/
theorem subperm (h : Ledger used accounts closed charged) (hsub : accounts'.Subperm accounts) :
    Ledger used accounts' closed charged where
  accounts_nodup := by
    obtain ⟨kept, hperm, hkept⟩ := hsub
    exact (hperm.map Prod.fst).nodup_iff.mp (h.accounts_nodup.sublist (hkept.map Prod.fst))
  closed_nodup := h.closed_nodup
  charged_nodup := h.charged_nodup
  not_closed account hm := h.not_closed account (hsub.subset hm)
  charged_iff account hm := h.charged_iff account (hsub.subset hm)
  accounts_used account hm := h.accounts_used account (hsub.subset hm)
  closed_used := h.closed_used
  charged_used := h.charged_used

/-- A new account under a key never used before. -/
theorem opened (h : Ledger used accounts closed charged) (hkey : ¬used key) (hkey' : used' key)
    (hused : ∀ k, used k → used' k) : Ledger used' ((key, false) :: accounts) closed charged where
  accounts_nodup := by
    refine List.nodup_cons.mpr ⟨fun hm => ?_, h.accounts_nodup⟩
    obtain ⟨account, ha, rfl⟩ := List.mem_map.mp hm
    exact hkey (h.accounts_used account ha)
  closed_nodup := h.closed_nodup
  charged_nodup := h.charged_nodup
  not_closed := List.forall_mem_cons.mpr ⟨fun hm => hkey (h.closed_used _ hm), h.not_closed⟩
  charged_iff := by
    have hfree : key ∉ charged := fun hm => hkey (h.charged_used _ hm)
    exact List.forall_mem_cons.mpr ⟨by simp [hfree], h.charged_iff⟩
  accounts_used :=
    List.forall_mem_cons.mpr ⟨hkey', fun account hm => hused _ (h.accounts_used account hm)⟩
  closed_used k hm := hused k (h.closed_used k hm)
  charged_used k hm := hused k (h.charged_used k hm)

theorem key_ne (h : Ledger used ((key, flag) :: accounts) closed charged) :
    ∀ account ∈ accounts, account.1 ≠ key := by
  rintro account hm rfl
  have hkeys : account.1 ∈ accounts.map Prod.fst := List.mem_map_of_mem hm
  exact (List.nodup_cons.mp h.accounts_nodup).1 hkeys

theorem charge (h : Ledger used ((key, false) :: accounts) closed charged) :
    Ledger used ((key, true) :: accounts) closed (charged ++ [key]) where
  accounts_nodup := h.accounts_nodup
  closed_nodup := h.closed_nodup
  charged_nodup := by
    have hiff := h.charged_iff (key, false) List.mem_cons_self
    exact nodup_concat h.charged_nodup (by simpa using hiff)
  not_closed := List.forall_mem_cons.mpr (List.forall_mem_cons.mp h.not_closed)
  charged_iff := by
    refine List.forall_mem_cons.mpr ⟨by simp, fun account hm => ?_⟩
    rw [List.mem_append, List.mem_singleton, h.charged_iff account (List.mem_cons_of_mem _ hm)]
    simp [h.key_ne account hm]
  accounts_used := List.forall_mem_cons.mpr (List.forall_mem_cons.mp h.accounts_used)
  closed_used := h.closed_used
  charged_used := forall_mem_concat h.charged_used (h.accounts_used _ List.mem_cons_self)

theorem close (h : Ledger used ((key, flag) :: accounts) closed charged) :
    Ledger used accounts (closed ++ [key]) charged where
  accounts_nodup := (List.nodup_cons.mp h.accounts_nodup).2
  closed_nodup := nodup_concat h.closed_nodup (h.not_closed (key, flag) List.mem_cons_self)
  charged_nodup := h.charged_nodup
  not_closed account hm := by
    rw [List.mem_append, List.mem_singleton]
    rintro (hin | heq)
    · exact h.not_closed account (List.mem_cons_of_mem _ hm) hin
    · exact h.key_ne account hm heq
  charged_iff account hm := h.charged_iff account (List.mem_cons_of_mem _ hm)
  accounts_used account hm := h.accounts_used account (List.mem_cons_of_mem _ hm)
  closed_used := forall_mem_concat h.closed_used (h.accounts_used _ List.mem_cons_self)
  charged_used := h.charged_used

variable [DecidableEq κ]

/-- How many accounts were charged before they were closed. -/
def total (closed charged : List κ) : ℕ := closed.countP fun key => key ∈ charged

/-- Charging an open account does not show in the total yet. -/
theorem total_charge (h : Ledger used ((key, flag) :: accounts) closed charged) :
    total closed (charged ++ [key]) = total closed charged := by
  refine List.countP_congr fun k hk => ?_
  have hne : k ≠ key := by
    rintro rfl
    exact h.not_closed (k, flag) List.mem_cons_self hk
  simp [hne]

theorem total_close (h : Ledger used ((key, flag) :: accounts) closed charged) :
    total (closed ++ [key]) charged = total closed charged + flag.toNat := by
  have hiff : key ∈ charged ↔ flag = true := h.charged_iff (key, flag) List.mem_cons_self
  unfold total
  rw [List.countP_append, List.countP_singleton]
  cases flag <;> simp [hiff]

end Ledger
end CodeShare
