import CodeShare.Foundations.Tasks

/-! # Holdings

A suspended task may hold keys, and the shared state lists the keys that are held. Locks are held like this, and
so are the rows that open transactions have inserted.
-/

namespace CodeShare.Tasks
set_option autoImplicit false

/-- What is held is what tasks hold, and no key is held twice. -/
structure Exclusive {σ τ κ : Type} (held : σ → List κ) (holding : τ → List κ) (c : Conf σ τ) : Prop where
  perm : (c.pool.flatMap holding).Perm (held c.shared)
  nodup : (held c.shared).Nodup

namespace Exclusive
variable {σ τ ε ι ω κ : Type} {M : Machine σ τ ε ι ω} {held : σ → List κ} {holding : τ → List κ}
  {c c' : Conf σ τ} {out : List ω} {t : Trigger ε τ ι} {g : Segment σ τ ω} {rest : List τ} {key : κ}

theorem mem_of_pool (h : Exclusive held holding c) {task : τ} (hm : task ∈ c.pool)
    (hkey : key ∈ holding task) : key ∈ held c.shared :=
  h.perm.mem_iff.mp (List.mem_flatMap.mpr ⟨task, hm, hkey⟩)

/-- What is held around the task that runs. -/
theorem around (h : Exclusive held holding c) (hby : M.StepBy c c' out t g rest) :
    (t.taken.flatMap holding ++ rest.flatMap holding).Perm (held c.shared) := by
  rw [← List.flatMap_append]
  exact (hby.before.flatMap_right holding).trans h.perm

/-- What the other tasks hold, and those that are left behind. -/
theorem held_after (hby : M.StepBy c c' out t g rest) :
    c'.pool.flatMap holding = rest.flatMap holding ++ g.next.flatMap holding := by
  rw [hby.after, List.flatMap_append]

theorem kept (h : Exclusive held holding c) (hby : M.StepBy c c' out t g rest)
    (hheld : held g.state = held c.shared)
    (hnext : g.next.flatMap holding = t.taken.flatMap holding) : Exclusive held holding c' where
  perm := by
    rw [held_after hby, hnext, hby.shared, hheld]
    exact List.perm_append_comm.trans (h.around hby)
  nodup := by
    rw [hby.shared, hheld]
    exact h.nodup

/-- A key that is free is taken. -/
theorem acquired (h : Exclusive held holding c) (hby : M.StepBy c c' out t g rest)
    (hfree : key ∉ held c.shared) (hheld : held g.state = key :: held c.shared)
    (hnext : (g.next.flatMap holding).Perm (key :: t.taken.flatMap holding)) : Exclusive held holding c' where
  perm := by
    rw [held_after hby, hby.shared, hheld]
    refine (List.perm_append_comm.trans (hnext.append_right _)).trans ?_
    exact (h.around hby).cons key
  nodup := by
    rw [hby.shared, hheld]
    exact List.nodup_cons.mpr ⟨hfree, h.nodup⟩

/-- The task gives back what it held, if it held anything. -/
theorem released [DecidableEq κ] (h : Exclusive held holding c) {task : τ} (htask : t.taken = [task])
    (hby : M.StepBy c c' out t g rest)
    (hheld : held g.state = (held c.shared).filter (· ∉ holding task))
    (hnext : g.next.flatMap holding = []) : Exclusive held holding c' where
  perm := by
    have haround := h.around hby
    rw [htask, List.flatMap_singleton] at haround
    have hnodup := haround.nodup_iff.mpr h.nodup
    rw [held_after hby, hnext, hby.shared, hheld, List.append_nil]
    have hrest : (rest.flatMap holding).filter (· ∉ holding task) = rest.flatMap holding := by
      apply List.filter_eq_self.mpr
      intro k hk
      exact decide_eq_true fun hown => (List.nodup_append.mp hnodup).2.2 k hown k hk rfl
    have hown : (holding task).filter (· ∉ holding task) = [] := by
      apply List.filter_eq_nil_iff.mpr
      simp
    have hfiltered := haround.filter (· ∉ holding task)
    rw [List.filter_append, hrest, hown, List.nil_append] at hfiltered
    exact hfiltered
  nodup := by
    rw [hby.shared, hheld]
    exact h.nodup.filter _

end Exclusive
end CodeShare.Tasks
