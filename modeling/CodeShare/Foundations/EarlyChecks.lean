import CodeShare.Foundations.Tasks

/-! # Early checks

A task relies on what was checked when it began to wait, and no segment of its own has kept it since.
Runs in which no other segment takes it away meet, at the end of the wait, what a late check would ask.
-/

namespace CodeShare.Tasks
set_option autoImplicit false

section
variable {σ τ ε ι ω : Type}

/-- What the waiting tasks rely on still holds. -/
def Relied (relies : σ → τ → Prop) (c : Conf σ τ) : Prop := ∀ task ∈ c.pool, relies c.shared task

namespace Machine
variable {M : Machine σ τ ε ι ω} {c c' : Conf σ τ} {out : List ω} {t : Trigger ε τ ι} {g : Segment σ τ ω}
  {rest : List τ}

/-- A segment that nothing else counts in works on the one task that does. -/
theorem StepBy.alone (hby : M.StepBy c c' out t g rest) {counts : τ → Bool}
    (hone : c.pool.countP counts ≤ t.taken.countP counts) : ∀ task ∈ rest, counts task = false := by
  intro task hm
  have hpool := hby.before.countP_eq counts
  rw [List.countP_append] at hpool
  have hnone : rest.countP counts = 0 := by omega
  exact Bool.eq_false_iff.mpr (List.countP_eq_zero.mp hnone task hm)

/-- The rule of early checks. A schedule that takes from no waiting task what it relies on meets every
condition that the tasks rely on. -/
theorem meets_of_relied (relies : σ → τ → Prop) {P Q : Conf σ τ → Trigger ε τ ι → Prop}
    (hrest : ∀ c c' out t g rest, P c t → M.StepBy c c' out t g rest →
      ∀ task ∈ rest, relies c.shared task → relies g.state task)
    (hnext : ∀ c c' out t g rest, P c t → M.StepBy c c' out t g rest →
      (∀ task ∈ t.taken, relies c.shared task) → ∀ task ∈ g.next, relies g.state task)
    (hmet : ∀ c c' out t g rest, P c t → M.StepBy c c' out t g rest → Relied relies c → Q c t)
    {acts : List (Act ε ι)} (hmeets : M.Meets P c acts) (hrun : M.run c acts = some (c', out))
    (hinit : Relied relies c) : M.Meets Q c acts := by
  induction acts generalizing c out with
  | nil => trivial
  | cons a acts ih =>
    obtain ⟨c₁, out₁, out₂, hs, hr, rfl⟩ := run_cons hrun
    obtain ⟨t, g, ht, hby⟩ := step_by hs
    have hP := hmeets.1 t ht
    have hafter : Relied relies c₁ := by
      intro task hm
      rw [hby.shared]
      rcases hby.mem_after hm with hm | hm
      · exact hrest _ _ _ _ _ _ hP hby task hm (hinit task (hby.mem_of_rest hm))
      · exact hnext _ _ _ _ _ _ hP hby (fun task hm => hinit task (hby.mem_of_taken hm)) task hm
    refine ⟨fun t' ht' => ?_, fun c₂ out' hs' => ?_⟩
    · obtain rfl := Option.some.inj (ht.symm.trans ht')
      exact hmet _ _ _ _ _ _ hP hby hinit
    · obtain ⟨rfl, rfl⟩ := Prod.mk.inj (Option.some.inj (hs.symm.trans hs'))
      exact ih (hmeets.2 _ _ hs) hr hafter

end Machine

end
end CodeShare.Tasks
