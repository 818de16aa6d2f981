import Mathlib.Data.List.Basic
import Mathlib.Data.List.Perm.Basic

/-! # Single-threaded machines with suspended tasks

A machine handles one event or resumes one suspended task at a time. Each such segment runs to its
end without interruption: it changes the shared state, writes outputs and leaves new suspended
tasks. Nothing is said about the order in which tasks resume. The rules at the end turn what one
segment does into what holds along every run, also for runs whose segments meet a condition.
-/

namespace CodeShare.Tasks
set_option autoImplicit false

/-! ## Segments -/

/-- What one uninterrupted piece of code leaves behind. -/
structure Segment (σ τ ω : Type) where
  state : σ
  out : List ω
  next : List τ

namespace Segment
variable {σ τ ω : Type}

/-- The segment that does nothing. -/
def of (s : σ) : Segment σ τ ω := ⟨s, [], []⟩

def modify (g : Segment σ τ ω) (f : σ → σ) : Segment σ τ ω := { g with state := f g.state }

/-- Write outputs that depend on the state reached so far. -/
def emits (g : Segment σ τ ω) (f : σ → List ω) : Segment σ τ ω := { g with out := g.out ++ f g.state }

def emit (g : Segment σ τ ω) (o : ω) : Segment σ τ ω := g.emits fun _ => [o]

def suspend (g : Segment σ τ ω) (t : τ) : Segment σ τ ω := { g with next := g.next ++ [t] }

variable (g : Segment σ τ ω) (s : σ) (f : σ → σ) (e : σ → List ω) (o : ω) (t : τ)

@[simp] theorem of_state : (of s : Segment σ τ ω).state = s := rfl
@[simp] theorem of_out : (of s : Segment σ τ ω).out = [] := rfl
@[simp] theorem of_next : (of s : Segment σ τ ω).next = [] := rfl
@[simp] theorem modify_state : (g.modify f).state = f g.state := rfl
@[simp] theorem modify_out : (g.modify f).out = g.out := rfl
@[simp] theorem modify_next : (g.modify f).next = g.next := rfl
@[simp] theorem emits_state : (g.emits e).state = g.state := rfl
@[simp] theorem emits_out : (g.emits e).out = g.out ++ e g.state := rfl
@[simp] theorem emits_next : (g.emits e).next = g.next := rfl
@[simp] theorem emit_state : (g.emit o).state = g.state := rfl
@[simp] theorem emit_out : (g.emit o).out = g.out ++ [o] := rfl
@[simp] theorem emit_next : (g.emit o).next = g.next := rfl
@[simp] theorem suspend_state : (g.suspend t).state = g.state := rfl
@[simp] theorem suspend_out : (g.suspend t).out = g.out := rfl
@[simp] theorem suspend_next : (g.suspend t).next = g.next ++ [t] := rfl

end Segment

/-! ## Machines -/

/-- How events are handled and how tasks go on with the outcome they were waiting for; `none` is an
event or outcome that cannot occur there. -/
structure Machine (σ τ ε ι ω : Type) where
  handle : σ → ε → Option (Segment σ τ ω)
  resume : σ → τ → ι → Option (Segment σ τ ω)

/-- The shared state and the suspended tasks. -/
structure Conf (σ τ : Type) where
  shared : σ
  pool : List τ

/-- A scheduler's choice: an event, or the task at a position of the pool with its outcome. -/
inductive Act (ε ι : Type) where
  | event (e : ε)
  | resume (position : ℕ) (outcome : ι)

/-- What runs: an event, or a task with its outcome. -/
inductive Trigger (ε τ ι : Type) where
  | event (e : ε)
  | task (t : τ) (outcome : ι)

namespace Machine
variable {σ τ ε ι ω : Type} (M : Machine σ τ ε ι ω)

def fire (s : σ) : Trigger ε τ ι → Option (Segment σ τ ω)
  | .event e => M.handle s e
  | .task t o => M.resume s t o

def trigger (c : Conf σ τ) : Act ε ι → Option (Trigger ε τ ι)
  | .event e => some (.event e)
  | .resume i o => (c.pool[i]?).map fun t => .task t o

/-- The pool without the task that runs. -/
def rest (c : Conf σ τ) : Act ε ι → List τ
  | .event _ => c.pool
  | .resume i _ => c.pool.eraseIdx i

def step (c : Conf σ τ) (a : Act ε ι) : Option (Conf σ τ × List ω) :=
  match trigger c a with
  | none => none
  | some t =>
    match M.fire c.shared t with
    | none => none
    | some g => some (⟨g.state, rest c a ++ g.next⟩, g.out)

/-- All outputs, in order, and the configuration reached. -/
def run (c : Conf σ τ) : List (Act ε ι) → Option (Conf σ τ × List ω)
  | [] => some (c, [])
  | a :: acts =>
    match M.step c a with
    | none => none
    | some (c', out) =>
      match run c' acts with
      | none => none
      | some (c'', out') => some (c'', out ++ out')

/-- Every segment of the run meets the condition on the configuration in which it starts. -/
def Meets (P : Conf σ τ → Trigger ε τ ι → Prop) (c : Conf σ τ) : List (Act ε ι) → Prop
  | [] => True
  | a :: acts =>
    (∀ t, trigger c a = some t → P c t) ∧
      ∀ c' out, M.step c a = some (c', out) → Meets P c' acts

/-- Every configuration of the run, the first and the last included. -/
def Always (Q : Conf σ τ → Prop) (c : Conf σ τ) : List (Act ε ι) → Prop
  | [] => Q c
  | a :: acts => Q c ∧ ∀ c' out, M.step c a = some (c', out) → Always Q c' acts

end Machine

/-- One segment of a run: where it started, what ran, where it ended and what it wrote. -/
structure Turn (σ τ ε ι ω : Type) where
  before : Conf σ τ
  trigger : Trigger ε τ ι
  after : Conf σ τ
  out : List ω

/-- The segments of a run, in order. -/
def Machine.history {σ τ ε ι ω : Type} (M : Machine σ τ ε ι ω) (c : Conf σ τ) :
    List (Act ε ι) → List (Turn σ τ ε ι ω)
  | [] => []
  | a :: acts =>
    match trigger c a, M.step c a with
    | some t, some (c', out) => ⟨c, t, c', out⟩ :: history M c' acts
    | _, _ => []

/-- Every segment of the run meets the condition on the segments before it and on the configuration in
which it starts. -/
def Machine.MeetsPast {σ τ ε ι ω : Type} (M : Machine σ τ ε ι ω)
    (P : List (Turn σ τ ε ι ω) → Conf σ τ → Trigger ε τ ι → Prop) (past : List (Turn σ τ ε ι ω))
    (c : Conf σ τ) : List (Act ε ι) → Prop
  | [] => True
  | a :: acts =>
    ∀ t, trigger c a = some t → P past c t ∧
      ∀ c' out, M.step c a = some (c', out) → MeetsPast M P (past ++ [⟨c, t, c', out⟩]) c' acts

/-- The task a trigger takes from the pool. -/
def Trigger.taken {ε τ ι : Type} : Trigger ε τ ι → List τ
  | .event _ => []
  | .task t _ => [t]

/-! ## One step -/

/-- A step, seen as one segment: the task that ran is gone, the others are still there, and the
segment's tasks are new. -/
structure Machine.StepBy {σ τ ε ι ω : Type} (M : Machine σ τ ε ι ω) (c c' : Conf σ τ) (out : List ω)
    (t : Trigger ε τ ι) (g : Segment σ τ ω) (rest : List τ) : Prop where
  fire : M.fire c.shared t = some g
  shared : c'.shared = g.state
  out : out = g.out
  before : (t.taken ++ rest).Perm c.pool
  after : c'.pool = rest ++ g.next

namespace Machine
variable {σ τ ε ι ω : Type} {M : Machine σ τ ε ι ω} {c c' : Conf σ τ} {out : List ω}

/-- The pool around the task that runs. -/
theorem pool_eq {i : ℕ} {task : τ} (h : c.pool[i]? = some task) :
    c.pool = c.pool.take i ++ task :: c.pool.drop (i + 1) := by
  obtain ⟨hi, rfl⟩ := List.getElem?_eq_some_iff.mp h
  rw [List.getElem_cons_drop, List.take_append_drop]

/-- The others keep their order. -/
theorem taken_rest_split {a : Act ε ι} {t : Trigger ε τ ι} (h : trigger c a = some t) :
    ∃ front back, c.pool = front ++ (t.taken ++ back) ∧ rest c a = front ++ back := by
  cases a with
  | event e =>
    rw [trigger, Option.some.injEq] at h
    subst h
    exact ⟨c.pool, [], (List.append_nil _).symm, (List.append_nil _).symm⟩
  | resume i o =>
    rw [trigger, Option.map_eq_some_iff] at h
    obtain ⟨task, htask, rfl⟩ := h
    exact ⟨c.pool.take i, c.pool.drop (i + 1), pool_eq htask, List.eraseIdx_eq_take_drop_succ _ _⟩

theorem taken_rest_perm {a : Act ε ι} {t : Trigger ε τ ι} (h : trigger c a = some t) :
    (t.taken ++ rest c a).Perm c.pool := by
  obtain ⟨front, back, hpool, hrest⟩ := taken_rest_split h
  rw [hpool, hrest]
  exact List.perm_append_comm_assoc _ _ _

theorem step_by {a : Act ε ι} (h : M.step c a = some (c', out)) :
    ∃ t g, trigger c a = some t ∧ M.StepBy c c' out t g (rest c a) := by
  unfold step at h
  cases ht : trigger c a with
  | none => rw [ht] at h; cases h
  | some t =>
    rw [ht] at h
    dsimp only at h
    cases hg : M.fire c.shared t with
    | none => rw [hg] at h; cases h
    | some g =>
      rw [hg, Option.some.injEq, Prod.mk.injEq] at h
      obtain ⟨rfl, rfl⟩ := h
      exact ⟨t, g, rfl, hg, rfl, rfl, taken_rest_perm ht, rfl⟩

/-- What fires is a step. -/
theorem step_eq {a : Act ε ι} {t : Trigger ε τ ι} {g : Segment σ τ ω} (ht : trigger c a = some t)
    (hg : M.fire c.shared t = some g) : M.step c a = some (⟨g.state, rest c a ++ g.next⟩, g.out) := by
  rw [step, ht]
  dsimp only
  rw [hg]

namespace StepBy
variable {t : Trigger ε τ ι} {g : Segment σ τ ω} {rest : List τ}

theorem mem_after (h : M.StepBy c c' out t g rest) {task : τ} (hm : task ∈ c'.pool) :
    task ∈ rest ∨ task ∈ g.next := by
  rw [h.after] at hm
  exact List.mem_append.mp hm

theorem mem_of_rest (h : M.StepBy c c' out t g rest) {task : τ} (hm : task ∈ rest) :
    task ∈ c.pool :=
  h.before.mem_iff.mp (List.mem_append_right _ hm)

theorem mem_of_taken (h : M.StepBy c c' out t g rest) {task : τ} (hm : task ∈ t.taken) :
    task ∈ c.pool :=
  h.before.mem_iff.mp (List.mem_append_left _ hm)

/-- Counting tasks: those taken go, those left behind come. -/
theorem countP_after (h : M.StepBy c c' out t g rest) (p : τ → Bool) :
    c'.pool.countP p + t.taken.countP p = c.pool.countP p + g.next.countP p := by
  rw [h.after, List.countP_append, ← h.before.countP_eq, List.countP_append]
  omega

/-- The keys of the pool: those taken go, those of the new tasks come. -/
theorem filterMap_before {κ : Type} (h : M.StepBy c c' out t g rest) (key : τ → Option κ) :
    (t.taken.filterMap key ++ rest.filterMap key).Perm (c.pool.filterMap key) := by
  rw [← List.filterMap_append]
  exact h.before.filterMap key

theorem filterMap_after {κ : Type} (h : M.StepBy c c' out t g rest) (key : τ → Option κ) :
    c'.pool.filterMap key = rest.filterMap key ++ g.next.filterMap key := by
  rw [h.after, List.filterMap_append]

end StepBy

/-! ## Flags -/

/-- A flag that is held by a task, and by at most one. -/
def Owned (flag : σ → Bool) (owner : τ → Bool) (c : Conf σ τ) : Prop :=
  c.pool.countP owner = (flag c.shared).toNat

section
variable {flag : σ → Bool} {owner : τ → Bool} {t : Trigger ε τ ι} {g : Segment σ τ ω} {rest : List τ}

theorem Owned.of_mem (h : Owned flag owner c) {task : τ} (hm : task ∈ c.pool)
    (hown : owner task = true) : flag c.shared = true := by
  have hpos : 0 < c.pool.countP owner := List.countP_pos_iff.mpr ⟨task, hm, hown⟩
  rw [h] at hpos
  cases hf : flag c.shared with
  | true => rfl
  | false => rw [hf] at hpos; simp at hpos

/-- While the owner of a flag runs, no other task owns it. -/
theorem Owned.not_of_rest (h : Owned flag owner c) (hby : M.StepBy c c' out t g rest) {task other : τ}
    (htaken : task ∈ t.taken) (howner : owner task = true) (hm : other ∈ rest) : owner other = false := by
  rw [Bool.eq_false_iff]
  intro hother
  have htaken := List.countP_pos_iff.mpr ⟨task, htaken, howner⟩
  have hrest := List.countP_pos_iff.mpr ⟨other, hm, hother⟩
  have hpool := hby.before.countP_eq owner
  have hflag := Bool.toNat_le (flag c.shared)
  rw [List.countP_append, h] at hpool
  omega

/-- A segment keeps a flag owned exactly when it moves the flag and its owners together. -/
theorem Owned.after_iff (h : Owned flag owner c) (hby : M.StepBy c c' out t g rest) :
    Owned flag owner c' ↔ g.next.countP owner + (flag c.shared).toNat =
      t.taken.countP owner + (flag g.state).toNat := by
  have hcount := hby.countP_after owner
  unfold Owned at h ⊢
  rw [hby.shared]
  omega

theorem Owned.after (h : Owned flag owner c) (hby : M.StepBy c c' out t g rest)
    (hseg : g.next.countP owner + (flag c.shared).toNat =
      t.taken.countP owner + (flag g.state).toNat) : Owned flag owner c' :=
  (h.after_iff hby).mpr hseg

end

/-! ## Runs -/

theorem run_cons {a : Act ε ι} {acts : List (Act ε ι)} (h : M.run c (a :: acts) = some (c', out)) :
    ∃ c₁ out₁ out₂, M.step c a = some (c₁, out₁) ∧ M.run c₁ acts = some (c', out₂) ∧
      out = out₁ ++ out₂ := by
  rw [run] at h
  cases hs : M.step c a with
  | none => rw [hs] at h; cases h
  | some r =>
    obtain ⟨c₁, out₁⟩ := r
    rw [hs] at h
    dsimp only at h
    cases hr : M.run c₁ acts with
    | none => rw [hr] at h; cases h
    | some r =>
      obtain ⟨c₂, out₂⟩ := r
      rw [hr, Option.some.injEq, Prod.mk.injEq] at h
      obtain ⟨rfl, rfl⟩ := h
      exact ⟨c₁, out₁, out₂, rfl, hr, rfl⟩

/-- A run of one step. -/
theorem run_single {a : Act ε ι} (h : M.step c a = some (c', out)) : M.run c [a] = some (c', out) := by
  rw [run, h]
  dsimp only [run]
  rw [List.append_nil]

theorem run_append {before after : List (Act ε ι)} (h : M.run c (before ++ after) = some (c', out)) :
    ∃ c₁ out₁ out₂, M.run c before = some (c₁, out₁) ∧ M.run c₁ after = some (c', out₂) ∧
      out = out₁ ++ out₂ := by
  induction before generalizing c out with
  | nil => exact ⟨c, [], out, rfl, h, rfl⟩
  | cons a before ih =>
    obtain ⟨c₁, out₁, out₂, hs, hr, rfl⟩ := run_cons h
    obtain ⟨c₂, out₃, out₄, hb, ha, rfl⟩ := ih hr
    refine ⟨c₂, out₁ ++ out₃, out₄, ?_, ha, (List.append_assoc _ _ _).symm⟩
    rw [run, hs]
    dsimp only
    rw [hb]

/-- Two runs, one behind the other. -/
theorem run_join {before after : List (Act ε ι)} {c₁ : Conf σ τ} {out₁ out₂ : List ω}
    (hbefore : M.run c before = some (c₁, out₁)) (hafter : M.run c₁ after = some (c', out₂)) :
    M.run c (before ++ after) = some (c', out₁ ++ out₂) := by
  induction before generalizing c out₁ with
  | nil =>
    rw [run, Option.some.injEq, Prod.mk.injEq] at hbefore
    obtain ⟨rfl, rfl⟩ := hbefore
    exact hafter
  | cons a before ih =>
    obtain ⟨c₂, out, out', hs, hr, rfl⟩ := run_cons hbefore
    rw [List.cons_append, run, hs]
    dsimp only
    rw [ih hr, List.append_assoc]

/-- The run rule. An invariant of the configuration and of the outputs written so far that every
segment meeting the condition preserves holds at the end of every run that meets it. -/
theorem run_preserves_from {P : Conf σ τ → Trigger ε τ ι → Prop} {I : Conf σ τ → List ω → Prop}
    (hstep : ∀ c c' past out t g rest, I c past → P c t → M.StepBy c c' out t g rest →
      I c' (past ++ out))
    {acts : List (Act ε ι)} {past : List ω} (hinit : I c past) (hmeets : M.Meets P c acts)
    (hrun : M.run c acts = some (c', out)) : I c' (past ++ out) := by
  induction acts generalizing c past out with
  | nil =>
    rw [run, Option.some.injEq, Prod.mk.injEq] at hrun
    obtain ⟨rfl, rfl⟩ := hrun
    rwa [List.append_nil]
  | cons a acts ih =>
    obtain ⟨c₁, out₁, out₂, hs, hr, rfl⟩ := run_cons hrun
    obtain ⟨t, g, ht, hby⟩ := step_by hs
    rw [← List.append_assoc]
    exact ih (hstep c c₁ past out₁ t g _ hinit (hmeets.1 t ht) hby) (hmeets.2 c₁ out₁ hs) hr

/-- The run rule from the start of the outputs. -/
theorem run_preserves {P : Conf σ τ → Trigger ε τ ι → Prop} {I : Conf σ τ → List ω → Prop}
    (hstep : ∀ c c' past out t g rest, I c past → P c t → M.StepBy c c' out t g rest →
      I c' (past ++ out))
    {acts : List (Act ε ι)} (hinit : I c []) (hmeets : M.Meets P c acts)
    (hrun : M.run c acts = some (c', out)) : I c' out :=
  run_preserves_from hstep hinit hmeets hrun

/-- A condition that shows in what each segment writes holds along a run exactly when it shows in all
outputs. -/
theorem meets_iff_forall_out {P : Conf σ τ → Trigger ε τ ι → Prop} {q : ω → Prop}
    (hseg : ∀ c t g, M.fire c.shared t = some g → (P c t ↔ ∀ o ∈ g.out, q o))
    {acts : List (Act ε ι)} (hrun : M.run c acts = some (c', out)) :
    M.Meets P c acts ↔ ∀ o ∈ out, q o := by
  induction acts generalizing c out with
  | nil =>
    rw [run, Option.some.injEq, Prod.mk.injEq] at hrun
    rw [← hrun.2]
    exact ⟨fun _ => nofun, fun _ => trivial⟩
  | cons a acts ih =>
    obtain ⟨c₁, out₁, out₂, hs, hr, rfl⟩ := run_cons hrun
    obtain ⟨t, g, ht, hby⟩ := step_by hs
    have hfirst := hseg c t g hby.fire
    rw [← hby.out] at hfirst
    rw [List.forall_mem_append, Meets, ← ih hr, ← hfirst]
    constructor
    · rintro ⟨hP, hrest⟩
      exact ⟨hP t ht, hrest c₁ out₁ hs⟩
    · rintro ⟨hP, hrest⟩
      refine ⟨fun t' ht' => ?_, fun c₂ out' hs' => ?_⟩
      · obtain rfl := Option.some.inj (ht.symm.trans ht')
        exact hP
      · obtain ⟨rfl, rfl⟩ := Prod.mk.inj (Option.some.inj (hs.symm.trans hs'))
        exact hrest

theorem Always.head {Q : Conf σ τ → Prop} {acts : List (Act ε ι)} (h : M.Always Q c acts) : Q c := by
  cases acts with
  | nil => exact h
  | cons _ _ => exact h.1

/-- A condition under which a segment keeps what holds before it, and without which it does not, is met
along a run exactly when this holds in all of its configurations. -/
theorem meets_iff_always {P R : Conf σ τ → Trigger ε τ ι → Prop} {Q : Conf σ τ → Prop}
    (hstep : ∀ c c' out t g rest, Q c → R c t → M.StepBy c c' out t g rest → (P c t ↔ Q c'))
    {acts : List (Act ε ι)} (hinit : Q c) (hmeets : M.Meets R c acts)
    (hrun : M.run c acts = some (c', out)) : M.Meets P c acts ↔ M.Always Q c acts := by
  induction acts generalizing c out with
  | nil => exact iff_of_true trivial hinit
  | cons a acts ih =>
    obtain ⟨c₁, out₁, out₂, hs, hr, rfl⟩ := run_cons hrun
    obtain ⟨t, g, ht, hby⟩ := step_by hs
    have hfirst := hstep c c₁ out₁ t g _ hinit (hmeets.1 t ht) hby
    have hrest := fun h : Q c₁ => ih h (hmeets.2 c₁ out₁ hs) hr
    rw [Meets, Always]
    constructor
    · rintro ⟨hP, hlater⟩
      have hQ := hfirst.mp (hP t ht)
      refine ⟨hinit, fun c₂ out' hs' => ?_⟩
      obtain ⟨rfl, rfl⟩ := Prod.mk.inj (Option.some.inj (hs.symm.trans hs'))
      exact (hrest hQ).mp (hlater c₁ out₁ hs)
    · rintro ⟨-, hlater⟩
      have halways := hlater c₁ out₁ hs
      have hQ := halways.head
      refine ⟨fun t' ht' => ?_, fun c₂ out' hs' => ?_⟩
      · obtain rfl := Option.some.inj (ht.symm.trans ht')
        exact hfirst.mpr hQ
      · obtain ⟨rfl, rfl⟩ := Prod.mk.inj (Option.some.inj (hs.symm.trans hs'))
        exact (hrest hQ).mpr halways

/-- Two machines whose segments differ in their outputs only, and there only in what they say: what is
observed of a run of the first and of the same run of the second agrees exactly when the run meets the
condition under which the segments agree. -/
theorem run_observe {κ : Type} {N : Machine σ τ ε ι ω} {P Q : Conf σ τ → Trigger ε τ ι → Prop}
    {obs : List ω → List κ} (happend : ∀ o o', obs (o ++ o') = obs o ++ obs o')
    (hseg : ∀ c t g, P c t → M.fire c.shared t = some g →
      ∃ out', N.fire c.shared t = some ⟨g.state, out', g.next⟩ ∧
        (obs out').length = (obs g.out).length ∧ (obs out' = obs g.out ↔ Q c t))
    {acts : List (Act ε ι)} (hmeets : M.Meets P c acts) (hrun : M.run c acts = some (c', out)) :
    ∃ out', N.run c acts = some (c', out') ∧ (obs out').length = (obs out).length ∧
      (obs out' = obs out ↔ M.Meets Q c acts) := by
  induction acts generalizing c out with
  | nil =>
    rw [run, Option.some.injEq, Prod.mk.injEq] at hrun
    obtain ⟨rfl, rfl⟩ := hrun
    exact ⟨[], rfl, rfl, iff_of_true rfl trivial⟩
  | cons a acts ih =>
    obtain ⟨c₁, out₁, out₂, hs, hr, rfl⟩ := run_cons hrun
    obtain ⟨t, g, ht, hby⟩ := step_by hs
    obtain ⟨first, hfirst, hlength, hiff⟩ := hseg c t g (hmeets.1 t ht) hby.fire
    obtain ⟨others, hothers, hlength', hiff'⟩ := ih (hmeets.2 c₁ out₁ hs) hr
    have hc₁ : c₁ = ⟨g.state, rest c a ++ g.next⟩ := by
      rw [← hby.shared, ← hby.after]
    have hs' : N.step c a = some (c₁, first) := by
      rw [step, ht, hc₁]
      dsimp only
      rw [hfirst]
    refine ⟨first ++ others, ?_, ?_, ?_⟩
    · rw [run, hs']
      dsimp only
      rw [hothers]
    · rw [happend, happend, List.length_append, List.length_append, hby.out, hlength, hlength']
    · rw [happend, happend, hby.out, Meets]
      constructor
      · intro heq
        obtain ⟨hsame, hothers'⟩ := List.append_inj heq hlength
        refine ⟨fun t' ht' => ?_, fun c₂ out' hs'' => ?_⟩
        · obtain rfl := Option.some.inj (ht.symm.trans ht')
          exact hiff.mp hsame
        · obtain ⟨rfl, rfl⟩ := Prod.mk.inj (Option.some.inj (hs.symm.trans hs''))
          exact hiff'.mp hothers'
      · rintro ⟨hQ, hrest⟩
        rw [hiff.mpr (hQ t ht), hiff'.mpr (hrest c₁ out₁ hs)]

/-- Whether a given run meets a condition can be computed. -/
instance decidableMeets {P : Conf σ τ → Trigger ε τ ι → Prop} [∀ c t, Decidable (P c t)] :
    ∀ (c : Conf σ τ) (acts : List (Act ε ι)), Decidable (M.Meets P c acts)
  | _, [] => isTrue trivial
  | c, a :: acts =>
    have : ∀ r : Conf σ τ × List ω, Decidable (M.Meets P r.1 acts) := fun r => decidableMeets r.1 acts
    decidable_of_iff ((∀ t ∈ trigger c a, P c t) ∧ ∀ r ∈ M.step c a, M.Meets P r.1 acts)
      (and_congr_right' ⟨fun h c' out => h (c', out), fun h r => h r.1 r.2⟩)

/-- Every run meets the trivial condition. -/
theorem meets_true (c : Conf σ τ) (acts : List (Act ε ι)) : M.Meets (fun _ _ => True) c acts := by
  induction acts generalizing c with
  | nil => trivial
  | cons a acts ih => exact ⟨fun _ _ => trivial, fun c' _ _ => ih c'⟩

/-- Two conditions at once. -/
theorem meets_and {P Q : Conf σ τ → Trigger ε τ ι → Prop} {acts : List (Act ε ι)}
    (hP : M.Meets P c acts) (hQ : M.Meets Q c acts) : M.Meets (fun c t => P c t ∧ Q c t) c acts := by
  induction acts generalizing c with
  | nil => trivial
  | cons a acts ih =>
    exact ⟨fun t ht => ⟨hP.1 t ht, hQ.1 t ht⟩, fun c' out hs => ih (hP.2 c' out hs) (hQ.2 c' out hs)⟩

/-- A run in two parts meets a condition in each. -/
theorem meets_append {P : Conf σ τ → Trigger ε τ ι → Prop} {before after : List (Act ε ι)}
    (hmeets : M.Meets P c (before ++ after)) (hrun : M.run c before = some (c', out)) :
    M.Meets P c before ∧ M.Meets P c' after := by
  induction before generalizing c out with
  | nil =>
    rw [run, Option.some.injEq, Prod.mk.injEq] at hrun
    obtain ⟨rfl, rfl⟩ := hrun
    exact ⟨trivial, hmeets⟩
  | cons a before ih =>
    obtain ⟨c₁, out₁, out₂, hs, hr, rfl⟩ := run_cons hrun
    obtain ⟨hbefore, hafter⟩ := ih (hmeets.2 c₁ out₁ hs) hr
    refine ⟨⟨hmeets.1, fun c₂ out' hs' => ?_⟩, hafter⟩
    obtain ⟨rfl, rfl⟩ := Prod.mk.inj (Option.some.inj (hs.symm.trans hs'))
    exact hbefore

/-- Every run meets an invariant at the start of its segments. -/
theorem meets_of_invariant {I : Conf σ τ → Prop}
    (hstep : ∀ c c' out t g rest, I c → M.StepBy c c' out t g rest → I c') (hinit : I c)
    (acts : List (Act ε ι)) : M.Meets (fun c _ => I c) c acts := by
  induction acts generalizing c with
  | nil => trivial
  | cons a acts ih =>
    refine ⟨fun _ _ => hinit, fun c' out hs => ih ?_⟩
    obtain ⟨t, g, -, hby⟩ := step_by hs
    exact hstep c c' out t g _ hinit hby

/-- The run rule without a condition. -/
theorem run_preserves_always {I : Conf σ τ → List ω → Prop}
    (hstep : ∀ c c' past out t g rest, I c past → M.StepBy c c' out t g rest → I c' (past ++ out))
    {acts : List (Act ε ι)} (hinit : I c []) (hrun : M.run c acts = some (c', out)) : I c' out :=
  run_preserves (P := fun _ _ => True) (fun c c' past out t g rest hI _ => hstep c c' past out t g rest hI)
    hinit (meets_true c acts) hrun

/-! ## Histories -/

theorem history_cons {a : Act ε ι} {t : Trigger ε τ ι} (ht : trigger c a = some t)
    (hs : M.step c a = some (c', out)) (acts : List (Act ε ι)) :
    M.history c (a :: acts) = ⟨c, t, c', out⟩ :: M.history c' acts := by
  rw [history, ht, hs]

/-- The history of a run in two parts. -/
theorem history_append {before after : List (Act ε ι)} {c₁ : Conf σ τ}
    (hbefore : M.run c before = some (c₁, out)) :
    M.history c (before ++ after) = M.history c before ++ M.history c₁ after := by
  induction before generalizing c out with
  | nil =>
    rw [run, Option.some.injEq, Prod.mk.injEq] at hbefore
    rw [hbefore.1]
    rfl
  | cons a before ih =>
    obtain ⟨c₂, out₁, out₂, hs, hr, -⟩ := run_cons hbefore
    obtain ⟨t, g, ht, -⟩ := step_by hs
    rw [List.cons_append, history_cons ht hs, history_cons ht hs, ih hr, List.cons_append]

/-- A segment in the history of a run. -/
theorem history_at {before after : List (Act ε ι)} {a : Act ε ι} {t : Trigger ε τ ι} {c₁ c₂ : Conf σ τ}
    {out' : List ω} (hbefore : M.run c before = some (c₁, out)) (ht : trigger c₁ a = some t)
    (hs : M.step c₁ a = some (c₂, out')) : M.history c (before ++ a :: after) =
      M.history c before ++ ⟨c₁, t, c₂, out'⟩ :: M.history c₂ after := by
  rw [history_append hbefore, history_cons ht hs]

/-- The outputs of a run, segment by segment. -/
theorem history_out {acts : List (Act ε ι)} (hrun : M.run c acts = some (c', out)) :
    (M.history c acts).flatMap Turn.out = out := by
  induction acts generalizing c out with
  | nil =>
    rw [run, Option.some.injEq, Prod.mk.injEq] at hrun
    exact hrun.2
  | cons a acts ih =>
    obtain ⟨c₁, out₁, out₂, hs, hr, rfl⟩ := run_cons hrun
    obtain ⟨t, g, ht, -⟩ := step_by hs
    rw [history_cons ht hs, List.flatMap_cons, ih hr]

/-- A segment of a history is a step behind the run that wrote what came before. -/
theorem history_split {acts : List (Act ε ι)} {past later : List (Turn σ τ ε ι ω)}
    {turn : Turn σ τ ε ι ω} (h : M.history c acts = past ++ turn :: later) :
    ∃ before a after, acts = before ++ a :: after ∧ M.history c before = past ∧
      M.run c before = some (turn.before, past.flatMap Turn.out) ∧
      trigger turn.before a = some turn.trigger ∧
      M.step turn.before a = some (turn.after, turn.out) := by
  induction acts generalizing c past with
  | nil => cases past <;> cases h
  | cons a acts ih =>
    rw [history] at h
    split at h
    · rename_i t c₁ out₁ ht hs
      cases past with
      | nil =>
        obtain ⟨rfl, -⟩ := List.cons.inj h
        exact ⟨[], a, acts, rfl, rfl, rfl, ht, hs⟩
      | cons first past =>
        obtain ⟨rfl, hrest⟩ := List.cons.inj h
        obtain ⟨before, a', after, rfl, rfl, hrun, ht', hs'⟩ := ih hrest
        refine ⟨a :: before, a', after, rfl, history_cons ht hs before, ?_, ht', hs'⟩
        rw [run, hs]
        dsimp only
        rw [hrun]
        rfl
    · cases past <;> cases h

/-- A segment of a history is a step. -/
theorem history_by {acts : List (Act ε ι)} {turn : Turn σ τ ε ι ω} (hm : turn ∈ M.history c acts) :
    ∃ g rest, M.StepBy turn.before turn.after turn.out turn.trigger g rest := by
  obtain ⟨past, later, hsplit⟩ := List.append_of_mem hm
  obtain ⟨_, _, _, _, _, _, htrigger, hstep⟩ := history_split hsplit
  obtain ⟨t, g, ht, hby⟩ := step_by hstep
  obtain rfl := Option.some.inj (htrigger.symm.trans ht)
  exact ⟨g, _, hby⟩

/-- An event in a history is one of the run. -/
theorem event_of_history {acts : List (Act ε ι)} {turn : Turn σ τ ε ι ω} {e : ε}
    (hm : turn ∈ M.history c acts) (he : turn.trigger = .event e) : .event e ∈ acts := by
  obtain ⟨past, later, hsplit⟩ := List.append_of_mem hm
  obtain ⟨before, a, after, rfl, -, -, htrigger, -⟩ := history_split hsplit
  cases a with
  | event e' =>
    cases htrigger.trans (congrArg some he)
    exact List.mem_append_right _ List.mem_cons_self
  | resume i o =>
    obtain ⟨task, -, htask⟩ := Option.map_eq_some_iff.mp htrigger
    rw [he] at htask
    cases htask

/-- A run meets a condition when all its segments do. -/
theorem meets_iff_history {P : Conf σ τ → Trigger ε τ ι → Prop} {acts : List (Act ε ι)}
    (hrun : M.run c acts = some (c', out)) :
    M.Meets P c acts ↔ ∀ turn ∈ M.history c acts, P turn.before turn.trigger := by
  induction acts generalizing c out with
  | nil => exact iff_of_true trivial nofun
  | cons a acts ih =>
    obtain ⟨c₁, out₁, out₂, hs, hr, rfl⟩ := run_cons hrun
    obtain ⟨t, g, ht, hby⟩ := step_by hs
    rw [history_cons ht hs, List.forall_mem_cons, Meets, ← ih hr]
    constructor
    · rintro ⟨hfirst, hlater⟩
      exact ⟨hfirst t ht, hlater c₁ out₁ hs⟩
    · rintro ⟨hfirst, hlater⟩
      refine ⟨fun t' ht' => ?_, fun c₂ out' hs' => ?_⟩
      · obtain rfl := Option.some.inj (ht.symm.trans ht')
        exact hfirst
      · obtain ⟨rfl, rfl⟩ := Prod.mk.inj (Option.some.inj (hs.symm.trans hs'))
        exact hlater

/-- A condition on the start of a segment that decides what holds of the segment decides it along runs. -/
theorem forall_history_iff_meets {P R : Conf σ τ → Trigger ε τ ι → Prop}
    {Q : Turn σ τ ε ι ω → Prop}
    (hturn : ∀ turn g rest, R turn.before turn.trigger →
      M.StepBy turn.before turn.after turn.out turn.trigger g rest →
      (Q turn ↔ P turn.before turn.trigger))
    {acts : List (Act ε ι)} (hmeets : M.Meets R c acts) (hrun : M.run c acts = some (c', out)) :
    (∀ turn ∈ M.history c acts, Q turn) ↔ M.Meets P c acts := by
  have hinvariant := (meets_iff_history hrun).mp hmeets
  rw [meets_iff_history hrun]
  refine forall₂_congr fun turn hm => ?_
  obtain ⟨g, rest, hby⟩ := history_by hm
  exact hturn turn g rest (hinvariant turn hm) hby

/-- A condition on the events alone. -/
theorem meets_event_iff {p : ε → Prop} {acts : List (Act ε ι)}
    (hrun : M.run c acts = some (c', out)) :
    M.Meets (fun _ t => ∀ e, t = .event e → p e) c acts ↔ ∀ e, .event e ∈ acts → p e := by
  induction acts generalizing c out with
  | nil => exact iff_of_true trivial nofun
  | cons a acts ih =>
    obtain ⟨c₁, out₁, out₂, hs, hr, rfl⟩ := run_cons hrun
    rw [Meets]
    constructor
    · rintro ⟨hfirst, hlater⟩ e he
      rcases List.mem_cons.mp he with rfl | he
      · exact hfirst (.event e) rfl e rfl
      · exact (ih hr).mp (hlater c₁ out₁ hs) e he
    · intro hall
      refine ⟨fun t ht e he => ?_, fun c₂ out' hs' => ?_⟩
      · subst he
        cases a with
        | event e' =>
          cases ht
          exact hall e (List.mem_cons_self)
        | resume position outcome =>
          obtain ⟨task, -, htask⟩ := Option.map_eq_some_iff.mp ht
          cases htask
      · obtain ⟨rfl, rfl⟩ := Prod.mk.inj (Option.some.inj (hs.symm.trans hs'))
        exact (ih hr).mpr fun e he => hall e (List.mem_cons_of_mem _ he)

theorem Always.last {Q : Conf σ τ → Prop} {acts : List (Act ε ι)} (h : M.Always Q c acts)
    (hrun : M.run c acts = some (c', out)) : Q c' := by
  induction acts generalizing c out with
  | nil =>
    rw [run, Option.some.injEq, Prod.mk.injEq] at hrun
    rw [← hrun.1]
    exact h
  | cons a acts ih =>
    obtain ⟨c₁, out₁, out₂, hs, hr, -⟩ := run_cons hrun
    exact ih (h.2 c₁ out₁ hs) hr

/-- An invariant that every segment meeting the condition preserves holds in every configuration. -/
theorem always_of_meets {P : Conf σ τ → Trigger ε τ ι → Prop} {I : Conf σ τ → Prop}
    (hstep : ∀ c c' out t g rest, I c → P c t → M.StepBy c c' out t g rest → I c') (hinit : I c)
    {acts : List (Act ε ι)} (hmeets : M.Meets P c acts) : M.Always I c acts := by
  induction acts generalizing c with
  | nil => exact hinit
  | cons a acts ih =>
    refine ⟨hinit, fun c₁ out₁ hs => ?_⟩
    obtain ⟨t, g, ht, hby⟩ := step_by hs
    exact ih (hstep c c₁ out₁ t g _ hinit (hmeets.1 t ht) hby) (hmeets.2 c₁ out₁ hs)

/-- What holds in every configuration of a run holds at both ends of its segments. -/
theorem Always.of_mem {Q : Conf σ τ → Prop} {acts : List (Act ε ι)} {turn : Turn σ τ ε ι ω}
    (h : M.Always Q c acts) (hm : turn ∈ M.history c acts) : Q turn.before ∧ Q turn.after := by
  induction acts generalizing c with
  | nil => cases hm
  | cons a acts ih =>
    rw [history] at hm
    split at hm
    · rename_i t c₁ out₁ ht hs
      have hlater := h.2 c₁ out₁ hs
      rcases List.mem_cons.mp hm with rfl | hm
      · exact ⟨h.1, hlater.head⟩
      · exact ih hlater hm
    · cases hm

/-- The run rule with the history of the run: an invariant of the configuration and of the segments so
far that every segment preserves holds at the end, where the condition on a segment may depend on what
came before it. -/
theorem history_preserves {P : List (Turn σ τ ε ι ω) → Conf σ τ → Trigger ε τ ι → Prop}
    {I : List (Turn σ τ ε ι ω) → Conf σ τ → Prop}
    (hstep : ∀ past c c' out t g rest, I past c → P past c t → M.StepBy c c' out t g rest →
      I (past ++ [⟨c, t, c', out⟩]) c')
    {acts : List (Act ε ι)} {past : List (Turn σ τ ε ι ω)} (hinit : I past c)
    (hmeets : ∀ before turn later, M.history c acts = before ++ turn :: later →
      P (past ++ before) turn.before turn.trigger)
    (hrun : M.run c acts = some (c', out)) : I (past ++ M.history c acts) c' := by
  induction acts generalizing c past out with
  | nil =>
    rw [run, Option.some.injEq, Prod.mk.injEq] at hrun
    obtain ⟨rfl, rfl⟩ := hrun
    rwa [history, List.append_nil]
  | cons a acts ih =>
    obtain ⟨c₁, out₁, out₂, hs, hr, rfl⟩ := run_cons hrun
    obtain ⟨t, g, ht, hby⟩ := step_by hs
    have hhistory := history_cons ht hs acts
    have hP : P past c t := by
      have hfirst := hmeets [] ⟨c, t, c₁, out₁⟩ _ hhistory
      rwa [List.append_nil] at hfirst
    have hnext := ih (hstep past c c₁ out₁ t g _ hinit hP hby) (fun before turn later hsplit => by
      rw [List.append_assoc]
      refine hmeets (⟨c, t, c₁, out₁⟩ :: before) turn later ?_
      rw [hhistory, hsplit, List.cons_append]) hr
    rwa [List.append_assoc, List.singleton_append, ← hhistory] at hnext

theorem meetsPast_split {P : List (Turn σ τ ε ι ω) → Conf σ τ → Trigger ε τ ι → Prop}
    {acts : List (Act ε ι)} {past before later : List (Turn σ τ ε ι ω)} {turn : Turn σ τ ε ι ω}
    (hmeets : M.MeetsPast P past c acts) (hsplit : M.history c acts = before ++ turn :: later) :
    P (past ++ before) turn.before turn.trigger := by
  induction acts generalizing c past before with
  | nil => cases before <;> cases hsplit
  | cons a acts ih =>
    rw [history] at hsplit
    split at hsplit
    · rename_i t c₁ out₁ ht hs
      obtain ⟨hfirst, hlater⟩ := hmeets t ht
      cases before with
      | nil =>
        obtain ⟨rfl, -⟩ := List.cons.inj hsplit
        rwa [List.append_nil]
      | cons first before =>
        obtain ⟨rfl, hrest⟩ := List.cons.inj hsplit
        rw [List.append_cons]
        exact ih (hlater c₁ out₁ hs) hrest
    · cases before <;> cases hsplit

/-- Whether a given run meets such a condition can be computed. -/
instance decidableMeetsPast {P : List (Turn σ τ ε ι ω) → Conf σ τ → Trigger ε τ ι → Prop}
    [∀ past c t, Decidable (P past c t)] :
    ∀ (past : List (Turn σ τ ε ι ω)) (c : Conf σ τ) (acts : List (Act ε ι)),
      Decidable (M.MeetsPast P past c acts)
  | _, _, [] => isTrue trivial
  | past, c, a :: acts =>
    have : ∀ (t : Trigger ε τ ι) (r : Conf σ τ × List ω),
        Decidable (M.MeetsPast P (past ++ [⟨c, t, r.1, r.2⟩]) r.1 acts) :=
      fun t r => decidableMeetsPast (past ++ [⟨c, t, r.1, r.2⟩]) r.1 acts
    decidable_of_iff (∀ t ∈ trigger c a, P past c t ∧
        ∀ r ∈ M.step c a, M.MeetsPast P (past ++ [⟨c, t, r.1, r.2⟩]) r.1 acts)
      (forall₂_congr fun _ _ => and_congr_right' ⟨fun h c' out => h (c', out), fun h r => h r.1 r.2⟩)

/-- The run rule from the start of a run. -/
theorem run_history_preserves {P : List (Turn σ τ ε ι ω) → Conf σ τ → Trigger ε τ ι → Prop}
    {I : List (Turn σ τ ε ι ω) → Conf σ τ → Prop}
    (hstep : ∀ past c c' out t g rest, I past c → P past c t → M.StepBy c c' out t g rest →
      I (past ++ [⟨c, t, c', out⟩]) c')
    {acts : List (Act ε ι)} (hinit : I [] c)
    (hmeets : ∀ before turn later, M.history c acts = before ++ turn :: later →
      P before turn.before turn.trigger)
    (hrun : M.run c acts = some (c', out)) : I (M.history c acts) c' :=
  history_preserves hstep hinit hmeets hrun

end Machine
end CodeShare.Tasks
