import CodeShare.Foundations.Tasks
import Mathlib.Algebra.BigOperators.Group.List.Basic
import Mathlib.Algebra.GroupWithZero.Nat

/-! # Machines that drain

Tasks carry a weight, and resuming a task leaves less weight behind than it took. Then the events of
a run bound its resumptions, in whatever order tasks are resumed. If in addition no suspended task is
ever stuck, resumptions alone empty the pool.
-/

namespace CodeShare.Tasks
set_option autoImplicit false

/-! ## Work -/

def workload {τ : Type} (weight : τ → ℕ) (pool : List τ) : ℕ := (pool.map weight).sum

section
variable {τ : Type} {weight : τ → ℕ} {pool pool' : List τ}

@[simp] theorem workload_nil : workload weight [] = 0 := rfl

@[simp] theorem workload_append :
    workload weight (pool ++ pool') = workload weight pool + workload weight pool' := by
  simp [workload]

theorem workload_singleton (t : τ) : workload weight [t] = weight t := by simp [workload]

theorem workload_perm (weight : τ → ℕ) (h : pool.Perm pool') : workload weight pool = workload weight pool' :=
  (h.map weight).sum_eq

end

namespace Act
variable {ε ι : Type}

def isResume : Act ε ι → Bool
  | event _ => false
  | resume _ _ => true

/-- What an event may bring in. -/
def cost (price : ε → ℕ) : Act ε ι → ℕ
  | event e => price e
  | resume _ _ => 0

/-- The answer that a task goes on with, if one does, is as required. -/
def Answers (p : ι → Prop) : Act ε ι → Prop
  | event _ => True
  | resume _ outcome => p outcome

instance (p : ι → Prop) [DecidablePred p] : DecidablePred (Answers (ε := ε) p) := fun a =>
  match a with
  | event _ => isTrue trivial
  | resume _ outcome => inferInstanceAs (Decidable (p outcome))

end Act

/-- The resumptions of a run. -/
def resumptions {ε ι : Type} (acts : List (Act ε ι)) : ℕ := acts.countP Act.isResume

/-- What the events of a run may bring in. -/
def totalCost {ε ι : Type} (price : ε → ℕ) (acts : List (Act ε ι)) : ℕ := (acts.map (Act.cost price)).sum

section
variable {ε ι : Type} (price : ε → ℕ) (a : Act ε ι) (acts : List (Act ε ι))

theorem resumptions_cons : resumptions (a :: acts) = a.isResume.toNat + resumptions acts := by
  unfold resumptions
  rw [List.countP_cons]
  cases a.isResume <;> simp [Nat.add_comm]

theorem totalCost_cons : totalCost price (a :: acts) = a.cost price + totalCost price acts := by
  simp [totalCost]

variable {acts}

theorem resumptions_of_resumes (h : ∀ a ∈ acts, a.isResume = true) : resumptions acts = acts.length :=
  List.countP_eq_length.mpr h

/-- Resumptions bring nothing in. -/
theorem totalCost_of_resumes (h : ∀ a ∈ acts, a.isResume = true) : totalCost price acts = 0 := by
  refine List.sum_eq_zero fun n hn => ?_
  obtain ⟨a, ha, rfl⟩ := List.mem_map.mp hn
  have hresume := h a ha
  cases a with
  | event e => cases hresume
  | resume i o => rfl

end

namespace Machine
variable {σ τ ε ι ω : Type}

/-! ## Bounded work -/

/-- An event leaves at most its price behind, and an admissible answer less than the task weighed. -/
structure Drains (M : Machine σ τ ε ι ω) (weight : τ → ℕ) (price : ε → ℕ) (p : ι → Prop) : Prop where
  event : ∀ s e g, M.handle s e = some g → workload weight g.next ≤ price e
  resume : ∀ s t o g, p o → M.resume s t o = some g → workload weight g.next < weight t

variable {M : Machine σ τ ε ι ω} {weight : τ → ℕ} {price : ε → ℕ} {p : ι → Prop} {c c' : Conf σ τ}
  {out : List ω}

theorem Drains.step_bound (h : M.Drains weight price p) {a : Act ε ι} (ha : a.Answers p)
    (hs : M.step c a = some (c', out)) :
    a.isResume.toNat + workload weight c'.pool ≤ workload weight c.pool + a.cost price := by
  obtain ⟨t, g, ht, hby⟩ := step_by hs
  have hbefore := workload_perm weight hby.before
  have hafter := congrArg (workload weight) hby.after
  rw [workload_append] at hbefore hafter
  cases a with
  | event e =>
    cases ht
    have hnext := h.event _ e g hby.fire
    simp only [Act.isResume, Act.cost, Trigger.taken, workload_nil, Bool.toNat_false] at hbefore ⊢
    omega
  | resume i o =>
    obtain ⟨task, -, rfl⟩ := Option.map_eq_some_iff.mp ht
    have hnext := h.resume _ task o g ha hby.fire
    simp only [Act.isResume, Act.cost, Trigger.taken, workload_singleton, Bool.toNat_true] at hbefore ⊢
    omega

/-- **Work is bounded by events.** However the scheduler picks tasks, the resumptions of a run and the
work it leaves behind were paid for by the work it found and by its events. -/
theorem Drains.run_bound (h : M.Drains weight price p) {acts : List (Act ε ι)}
    (hanswers : ∀ a ∈ acts, a.Answers p) (hrun : M.run c acts = some (c', out)) :
    resumptions acts + workload weight c'.pool ≤ workload weight c.pool + totalCost price acts := by
  induction acts generalizing c out with
  | nil =>
    rw [run, Option.some.injEq, Prod.mk.injEq] at hrun
    rw [hrun.1]
    simp [resumptions, totalCost]
  | cons a acts ih =>
    obtain ⟨c₁, out₁, out₂, hs, hr, -⟩ := run_cons hrun
    have hfirst := h.step_bound (hanswers a List.mem_cons_self) hs
    have hlater := ih (fun b hb => hanswers b (List.mem_cons_of_mem a hb)) hr
    rw [resumptions_cons, totalCost_cons]
    omega

/-! ## Draining -/

/-- No task is ever stuck: in every configuration of an invariant each of its tasks can go on with
every answer it waits for, and waits for an admissible one. -/
structure Goes (M : Machine σ τ ε ι ω) (I : Conf σ τ → Prop) (awaits : τ → ι → Prop) (p : ι → Prop) :
    Prop where
  keeps : ∀ c c' out t g rest, I c → M.StepBy c c' out t g rest → I c'
  goes : ∀ c task o, I c → task ∈ c.pool → awaits task o → ∃ g, M.resume c.shared task o = some g
  answered : ∀ task, ∃ o, awaits task o ∧ p o

variable {I : Conf σ τ → Prop} {awaits : τ → ι → Prop}

/-- The scheduler may pick any task and any of its answers. -/
theorem Goes.step_some (h : M.Goes I awaits p) (hI : I c) {i : ℕ} {task : τ} {o : ι}
    (htask : c.pool[i]? = some task) (ho : awaits task o) :
    ∃ c' out, M.step c (.resume i o) = some (c', out) := by
  obtain ⟨g, hg⟩ := h.goes c task o hI (List.mem_of_getElem? htask) ho
  refine ⟨_, _, step_eq (t := .task task o) ?_ hg⟩
  rw [trigger, htask, Option.map_some]

/-- **A drain.** From every configuration of the invariant, resumptions alone reach an empty pool, and
take at most as many segments as the pool weighs. -/
theorem Goes.drain (hgoes : M.Goes I awaits p) (hdrains : M.Drains weight price p) (hI : I c) :
    ∃ acts c' out, (∀ a ∈ acts, a.isResume = true ∧ a.Answers p) ∧
      acts.length ≤ workload weight c.pool ∧ M.run c acts = some (c', out) ∧ I c' ∧ c'.pool = [] := by
  induction hwork : workload weight c.pool using Nat.strongRecOn generalizing c with
  | _ work ih =>
    cases hpool : c.pool with
    | nil => exact ⟨[], c, [], List.forall_mem_nil _, Nat.zero_le _, rfl, hI, hpool⟩
    | cons task pool =>
      -- The first task goes on with some answer; what it leaves weighs less.
      obtain ⟨o, ho, hp⟩ := hgoes.answered task
      obtain ⟨c₁, out₁, hs⟩ := hgoes.step_some (i := 0) hI (by rw [hpool]; rfl) ho
      obtain ⟨t, g, -, hby⟩ := step_by hs
      have hless := hdrains.step_bound (a := .resume 0 o) hp hs
      have hstep : workload weight c₁.pool < work := by
        simp only [Act.cost, Act.isResume, Bool.toNat_true] at hless
        omega
      obtain ⟨acts, c', out, hacts, hlength, hrun, hI', hempty⟩ :=
        ih _ hstep (hgoes.keeps _ _ _ _ _ _ hI hby) rfl
      refine ⟨.resume 0 o :: acts, c', out₁ ++ out, ?_, ?_, ?_, hI', hempty⟩
      · exact List.forall_mem_cons.mpr ⟨⟨rfl, hp⟩, hacts⟩
      · rw [List.length_cons]
        omega
      · rw [run, hs]
        dsimp only
        rw [hrun]

end Machine
end CodeShare.Tasks
