import CodeShare.Foundations.Tasks

/-! # A machine seen in another

A machine may be part of a larger one, with its state, its tasks and its outputs among those of the whole.
When every segment of the whole is one of the part, or nothing there, every run of the whole is a run of
the part.
-/

namespace CodeShare.Tasks
set_option autoImplicit false

/-- What the part has of the state, the tasks and the outputs of the whole. -/
structure View (σ' τ' ω' σ τ ω : Type) where
  state : σ' → σ
  task : τ' → Option τ
  effect : ω' → Option ω

namespace View
variable {σ' τ' ε' ι' ω' σ τ ε ι ω : Type} (V : View σ' τ' ω' σ τ ω) (M : Machine σ τ ε ι ω)

def conf (c : Conf σ' τ') : Conf σ τ := ⟨V.state c.shared, c.pool.filterMap V.task⟩

def segment (g : Segment σ' τ' ω') : Segment σ τ ω :=
  ⟨V.state g.state, g.out.filterMap V.effect, g.next.filterMap V.task⟩

/-- A segment of the whole, seen in the part. -/
inductive Shows (s : σ') : Trigger ε' τ' ι' → Segment σ' τ' ω' → Prop where
  | nothing (t : Trigger ε' τ' ι') (g : Segment σ' τ' ω') (htaken : t.taken.filterMap V.task = [])
      (h : V.segment g = Segment.of (V.state s)) : Shows s t g
  | event (t : Trigger ε' τ' ι') (g : Segment σ' τ' ω') (e : ε) (htaken : t.taken.filterMap V.task = [])
      (h : M.handle (V.state s) e = some (V.segment g)) : Shows s t g
  | task (task' : τ') (o' : ι') (g : Segment σ' τ' ω') (task : τ) (o : ι) (htask : V.task task' = some task)
      (h : M.resume (V.state s) task o = some (V.segment g)) : Shows s (.task task' o') g

variable {V M} {N : Machine σ' τ' ε' ι' ω'} {c c' : Conf σ' τ'} {out : List ω'}

/-- The tasks of the part that are left when a task of something else is gone. -/
theorem rest_of_taken {a : Act ε' ι'} {t : Trigger ε' τ' ι'} (ht : Machine.trigger c a = some t)
    (htaken : t.taken.filterMap V.task = []) :
    (Machine.rest c a).filterMap V.task = c.pool.filterMap V.task := by
  obtain ⟨front, back, hpool, hrest⟩ := Machine.taken_rest_split ht
  rw [hpool, hrest, List.filterMap_append, List.filterMap_append, List.filterMap_append, htaken, List.nil_append]

/-- The step rule. -/
theorem step (hshows : ∀ s t g, N.fire s t = some g → V.Shows M s t g) {a : Act ε' ι'}
    (h : N.step c a = some (c', out)) :
    ∃ acts, M.run (V.conf c) acts = some (V.conf c', out.filterMap V.effect) := by
  obtain ⟨t, g, ht, hby⟩ := Machine.step_by h
  have hc' : V.conf c' = ⟨V.state g.state, (Machine.rest c a).filterMap V.task ++
      g.next.filterMap V.task⟩ := by
    unfold conf
    rw [hby.shared, hby.after, List.filterMap_append]
  rw [hc', hby.out]
  cases hshows c.shared t g hby.fire with
  | nothing t g htaken hg =>
    obtain ⟨hstate, hout, hnext⟩ := Segment.mk.inj hg
    rw [rest_of_taken ht htaken, hstate, hout, hnext, List.append_nil]
    exact ⟨[], rfl⟩
  | event t g e htaken hg =>
    have hfire : M.fire (V.conf c).shared (.event e) = some (V.segment g) := hg
    rw [rest_of_taken ht htaken]
    exact ⟨[.event e], Machine.run_single (Machine.step_eq rfl hfire)⟩
  | task task' o' g task o htask hg =>
    obtain ⟨front, back, hsplit, hleft⟩ := Machine.taken_rest_split ht
    -- in the part the task stands behind those that stand before it in the whole
    let before := front.filterMap V.task
    let after := back.filterMap V.task
    have hpool : (V.conf c).pool = before ++ task :: after := by
      change c.pool.filterMap V.task = _
      rw [hsplit, List.filterMap_append]
      exact congrArg (before ++ ·) (List.filterMap_cons_some htask)
    have hrest : (Machine.rest c a).filterMap V.task = before ++ after := by
      rw [hleft, List.filterMap_append]
    have htrigger : Machine.trigger (V.conf c) (.resume before.length o : Act ε ι) =
        some (.task task o) := by
      simp [Machine.trigger, hpool]
    have herase : Machine.rest (V.conf c) (.resume before.length o : Act ε ι) = before ++ after := by
      simp [Machine.rest, hpool, List.eraseIdx_append_of_length_le]
    have hfire : M.fire (V.conf c).shared (.task task o) = some (V.segment g) := hg
    have hs := Machine.step_eq htrigger hfire
    rw [herase] at hs
    rw [hrest]
    exact ⟨_, Machine.run_single hs⟩

/-- The run rule: every run of the whole is a run of the part. -/
theorem run (hshows : ∀ s t g, N.fire s t = some g → V.Shows M s t g) {acts : List (Act ε' ι')}
    (hrun : N.run c acts = some (c', out)) :
    ∃ acts', M.run (V.conf c) acts' = some (V.conf c', out.filterMap V.effect) := by
  induction acts generalizing c out with
  | nil =>
    rw [Machine.run, Option.some.injEq, Prod.mk.injEq] at hrun
    obtain ⟨rfl, rfl⟩ := hrun
    exact ⟨[], rfl⟩
  | cons a acts ih =>
    obtain ⟨c₁, out₁, out₂, hs, hr, rfl⟩ := Machine.run_cons hrun
    obtain ⟨first, hfirst⟩ := step hshows hs
    obtain ⟨later, hlater⟩ := ih hr
    rw [List.filterMap_append]
    exact ⟨first ++ later, Machine.run_join hfirst hlater⟩

end View
end CodeShare.Tasks
