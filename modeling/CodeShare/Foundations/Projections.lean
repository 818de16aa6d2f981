import CodeShare.Foundations.Tasks

/-! # A machine that carries more

A machine may have more in its states and in its tasks than another one and do the same with what they share. Its
runs are then those of the other one, segment by segment.
-/

namespace CodeShare.Tasks
set_option autoImplicit false

section
variable {σ' τ' σ τ ε ι ω : Type} (f : σ' → σ) (p : τ' → τ)

def Segment.project (g : Segment σ' τ' ω) : Segment σ τ ω := ⟨f g.state, g.out, g.next.map p⟩

def Trigger.project : Trigger ε τ' ι → Trigger ε τ ι
  | .event e => .event e
  | .task t o => .task (p t) o

def Conf.project (c : Conf σ' τ') : Conf σ τ := ⟨f c.shared, c.pool.map p⟩

def Turn.project (turn : Turn σ' τ' ε ι ω) : Turn σ τ ε ι ω :=
  ⟨turn.before.project f p, turn.trigger.project p, turn.after.project f p, turn.out⟩

namespace Machine

/-- Every segment of the one is, without what it carries, a segment of the other. -/
def Projects (N : Machine σ' τ' ε ι ω) (M : Machine σ τ ε ι ω) : Prop :=
  ∀ s t, M.fire (f s) (t.project p) = (N.fire s t).map (Segment.project f p)

variable {f p} {N : Machine σ' τ' ε ι ω} {M : Machine σ τ ε ι ω}

theorem trigger_project (c : Conf σ' τ') (a : Act ε ι) :
    trigger (c.project f p) a = (trigger c a).map (Trigger.project p) := by
  cases a with
  | event e => rfl
  | resume i o =>
    simp only [trigger, Conf.project, List.getElem?_map, Option.map_map]
    rfl

theorem rest_project (c : Conf σ' τ') (a : Act ε ι) : rest (c.project f p) a = (rest c a).map p := by
  cases a with
  | event e => rfl
  | resume i o => exact List.eraseIdx_map _ _ _

theorem step_project (h : Projects f p N M) (c : Conf σ' τ') (a : Act ε ι) :
    M.step (c.project f p) a = (N.step c a).map fun r => (r.1.project f p, r.2) := by
  unfold step
  rw [trigger_project]
  cases trigger c a with
  | none => rfl
  | some t =>
    have hfire : M.fire (c.project f p).shared (t.project p) = (N.fire c.shared t).map (Segment.project f p) :=
      h c.shared t
    simp only [Option.map_some]
    rw [hfire]
    cases N.fire c.shared t with
    | none => rfl
    | some g =>
      simp only [Option.map_some]
      rw [rest_project]
      simp only [Segment.project, Conf.project, List.map_append]

/-- The runs are the same, and every run of the other is one of them. -/
theorem run_project (h : Projects f p N M) (c : Conf σ' τ') (acts : List (Act ε ι)) :
    M.run (c.project f p) acts = (N.run c acts).map fun r => (r.1.project f p, r.2) := by
  induction acts generalizing c with
  | nil => rfl
  | cons a acts ih =>
    rw [run, run, step_project h]
    cases N.step c a with
    | none => rfl
    | some r =>
      simp only [Option.map_some]
      rw [ih]
      cases N.run r.1 acts <;> rfl

/-- So are their segments. -/
theorem history_project (h : Projects f p N M) (c : Conf σ' τ') (acts : List (Act ε ι)) :
    M.history (c.project f p) acts = (N.history c acts).map (Turn.project f p) := by
  induction acts generalizing c with
  | nil => rfl
  | cons a acts ih =>
    rw [history, history, trigger_project, step_project h]
    cases trigger c a with
    | none => rfl
    | some t =>
      cases N.step c a with
      | none => rfl
      | some r =>
        simp only [Option.map_some]
        rw [ih]
        rfl

end Machine
end
end CodeShare.Tasks
