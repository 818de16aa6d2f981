import CodeShare.Foundations.Tasks

/-! # Queues of suspended tasks

Nothing orders the tasks of a pool. Tasks that wait for the same thing form a queue only when the
scheduler lets none of them pass an older one; then they pass in the order in which they were suspended.
-/

namespace CodeShare.Tasks
set_option autoImplicit false

/-! ## Schedules -/

section
variable {σ τ ε ι ω : Type} (M : Machine σ τ ε ι ω)

/-- Every choice of the scheduler meets the condition on the configuration in which it is made. -/
def Machine.Obeys (P : Conf σ τ → Act ε ι → Prop) (c : Conf σ τ) : List (Act ε ι) → Prop
  | [] => True
  | a :: acts => P c a ∧ ∀ c' out, M.step c a = some (c', out) → Obeys P c' acts

/-- The tasks that a segment of the run has left behind. -/
def Machine.suspended (turn : Turn σ τ ε ι ω) : List τ :=
  ((M.fire turn.before.shared turn.trigger).map Segment.next).getD []

variable {M} {c c' : Conf σ τ} {out : List ω} {acts : List (Act ε ι)}

/-- Whether a given run obeys a condition can be computed. -/
instance Machine.decidableObeys {P : Conf σ τ → Act ε ι → Prop} [∀ c a, Decidable (P c a)] :
    ∀ (c : Conf σ τ) (acts : List (Act ε ι)), Decidable (M.Obeys P c acts)
  | _, [] => isTrue trivial
  | c, a :: acts =>
    have : ∀ r : Conf σ τ × List ω, Decidable (M.Obeys P r.1 acts) := fun r => decidableObeys r.1 acts
    decidable_of_iff (P c a ∧ ∀ r ∈ M.step c a, M.Obeys P r.1 acts)
      (and_congr_right' ⟨fun h c' out => h (c', out), fun h r => h r.1 r.2⟩)

theorem Machine.suspended_eq {turn : Turn σ τ ε ι ω} {g : Segment σ τ ω} {rest : List τ}
    (hby : M.StepBy turn.before turn.after turn.out turn.trigger g rest) : M.suspended turn = g.next := by
  rw [suspended, hby.fire]
  rfl

/-- The rule for schedules: an invariant that every choice meeting the condition preserves holds at both
ends of every segment. -/
theorem Machine.invariant_of_obeys {P : Conf σ τ → Act ε ι → Prop} {I : Conf σ τ → Prop}
    (hstep : ∀ c a c' out, I c → P c a → M.step c a = some (c', out) → I c') (hinit : I c)
    (hobeys : M.Obeys P c acts) {turn : Turn σ τ ε ι ω} (hm : turn ∈ M.history c acts) :
    I turn.before ∧ I turn.after := by
  induction acts generalizing c with
  | nil => cases hm
  | cons a acts ih =>
    rw [history] at hm
    split at hm
    · rename_i t c₁ out₁ ht hs
      have hnext := hstep c a c₁ out₁ hinit hobeys.1 hs
      by_cases hfirst : turn = ⟨c, t, c₁, out₁⟩
      · subst hfirst
        exact ⟨hinit, hnext⟩
      · apply ih hnext (hobeys.2 c₁ out₁ hs)
        exact List.mem_of_ne_of_mem hfirst hm
    · cases hm

end

/-! ## Queues -/

section
variable {σ τ ε ι ω κ α : Type} [DecidableEq κ]

/-- What is seen of the tasks in one queue, in the order of the pool: the label of a task is its queue and
what it stands for there. -/
def waiting (label : τ → Option (κ × α)) (k : κ) (pool : List τ) : List α :=
  pool.filterMap fun t => (label t).bind fun x => if x.1 = k then some x.2 else none

/-- What passes its queue in a segment. -/
def Turn.passed (label : τ → Option (κ × α)) (passes : ι → Bool) (k : κ) (turn : Turn σ τ ε ι ω) :
    List α :=
  match turn.trigger with
  | .event _ => []
  | .task t o => if passes o then waiting label k [t] else []

/-- A task that passes is the first of its queue. -/
def InTurn (label : τ → Option (κ × α)) (passes : ι → Bool) (c : Conf σ τ) : Act ε ι → Prop
  | .event _ => True
  | .resume i o => passes o = true → ∀ t ∈ c.pool[i]?, ∀ x ∈ label t,
      ∀ t' ∈ c.pool.take i, ∀ x' ∈ label t', x'.1 ≠ x.1

instance (label : τ → Option (κ × α)) (passes : ι → Bool) (c : Conf σ τ) :
    ∀ a : Act ε ι, Decidable (InTurn label passes c a)
  | .event _ => isTrue trivial
  | .resume i o => inferInstanceAs (Decidable (passes o = true → ∀ t ∈ c.pool[i]?, ∀ x ∈ label t,
      ∀ t' ∈ c.pool.take i, ∀ x' ∈ label t', x'.1 ≠ x.1))

variable {label : τ → Option (κ × α)} {passes : ι → Bool} {k : κ}

theorem waiting_append (pool pool' : List τ) :
    waiting label k (pool ++ pool') = waiting label k pool ++ waiting label k pool' :=
  List.filterMap_append

/-- Nobody older is in the queue of a task that passes. -/
theorem waiting_take {c : Conf σ τ} {i : ℕ} {o : ι} {t : τ}
    (hturn : InTurn (ε := ε) label passes c (.resume i o)) (hpasses : passes o = true)
    (ht : c.pool[i]? = some t) (hmem : waiting label k [t] ≠ []) :
    waiting label k (c.pool.take i) = [] := by
  have hqueue : ∃ x, label t = some x ∧ x.1 = k := by
    cases hlabel : label t with
    | none => simp [waiting, hlabel] at hmem
    | some x =>
      by_cases hk : x.1 = k
      · exact ⟨x, rfl, hk⟩
      · simp [waiting, hlabel, hk] at hmem
  obtain ⟨x, hx, rfl⟩ := hqueue
  apply List.filterMap_eq_nil_iff.mpr
  intro t' ht'
  cases hlabel : label t' with
  | none => rfl
  | some x' => exact if_neg (hturn hpasses t ht x hx t' ht' x' hlabel)

/-- The step lemma: what passes in a segment stood in front of those that still wait. -/
theorem passed_waiting_sublist {c c' : Conf σ τ} {out : List ω} {a : Act ε ι} {t : Trigger ε τ ι}
    (hturn : InTurn label passes c a) (ht : Machine.trigger c a = some t) :
    (Turn.passed label passes k ⟨c, t, c', out⟩ ++ waiting label k (Machine.rest c a)).Sublist
      (waiting label k c.pool) := by
  cases a with
  | event e =>
    cases ht
    exact List.Sublist.refl _
  | resume i o =>
    obtain ⟨task, htask, rfl⟩ := Option.map_eq_some_iff.mp ht
    have hsplit : c.pool = c.pool.take i ++ task :: c.pool.drop (i + 1) := Machine.pool_eq htask
    have hrest : Machine.rest c (.resume i o : Act ε ι) = c.pool.take i ++ c.pool.drop (i + 1) :=
      List.eraseIdx_eq_take_drop_succ c.pool i
    have hpool : waiting label k c.pool = waiting label k (c.pool.take i) ++
        (waiting label k [task] ++ waiting label k (c.pool.drop (i + 1))) := by
      rw [← waiting_append, ← waiting_append, List.singleton_append, ← hsplit]
    rw [hpool, hrest, waiting_append]
    by_cases hmem : passes o = true ∧ waiting label k [task] ≠ []
    · have hfront := waiting_take hturn hmem.1 htask hmem.2
      rw [hfront, List.nil_append, List.nil_append]
      simp only [Turn.passed, if_pos hmem.1]
      exact List.Sublist.refl _
    · have hnone : Turn.passed label passes k
          (⟨c, .task task o, c', out⟩ : Turn σ τ ε ι ω) = [] := by
        simp only [Turn.passed]
        split_ifs with hpasses
        · by_contra hne
          exact hmem ⟨hpasses, hne⟩
        · rfl
      rw [hnone, List.nil_append]
      apply List.Sublist.append_left
      exact List.sublist_append_right _ _

/-- In a run in which nobody passes an older one, what has passed a queue and what still waits there have
entered it in this order. -/
theorem passed_sublist {M : Machine σ τ ε ι ω} {c c' : Conf σ τ} {out : List ω} {acts : List (Act ε ι)}
    (hturns : M.Obeys (InTurn label passes) c acts) (hrun : M.run c acts = some (c', out)) :
    ((M.history c acts).flatMap (Turn.passed label passes k) ++ waiting label k c'.pool).Sublist
      (waiting label k c.pool ++ (M.history c acts).flatMap fun turn =>
        waiting label k (M.suspended turn)) := by
  induction acts generalizing c out with
  | nil =>
    rw [Machine.run, Option.some.injEq, Prod.mk.injEq] at hrun
    rw [Machine.history, hrun.1, List.flatMap_nil, List.flatMap_nil, List.append_nil, List.nil_append]
  | cons a acts ih =>
    obtain ⟨c₁, out₁, out₂, hs, hr, rfl⟩ := Machine.run_cons hrun
    obtain ⟨t, g, ht, hby⟩ := Machine.step_by hs
    have hfirst : (Turn.passed label passes k ⟨c, t, c₁, out₁⟩ ++
        waiting label k (Machine.rest c a)).Sublist (waiting label k c.pool) :=
      passed_waiting_sublist hturns.1 ht
    have hsuspended : M.suspended ⟨c, t, c₁, out₁⟩ = g.next := Machine.suspended_eq hby
    have hlater := ih (hturns.2 c₁ out₁ hs) hr
    rw [hby.after, waiting_append, List.append_assoc] at hlater
    rw [Machine.history_cons ht hs, List.flatMap_cons, List.flatMap_cons, List.append_assoc,
      hsuspended]
    refine (hlater.append_left _).trans ?_
    rw [← List.append_assoc]
    exact hfirst.append_right _

end
end CodeShare.Tasks
