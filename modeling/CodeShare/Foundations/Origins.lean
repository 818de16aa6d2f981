import CodeShare.Foundations.Projections

/-! # Where tasks come from

A machine whose tasks carry the event that set them off, with the state in which it was handled: a task
that an event leaves behind starts with that event, and what a task leaves behind inherits its origin.
Origins change nothing about the runs, and the origin of a suspended task is an earlier segment.
-/

namespace CodeShare.Tasks
set_option autoImplicit false

structure Origin (σ ε : Type) where
  state : σ
  event : ε

section
variable {σ τ ε ι ω : Type}

/-- The segment with the origin of its new tasks. -/
def Segment.tagged (g : Segment σ τ ω) (origin : Origin σ ε) : Segment σ (τ × Origin σ ε) ω :=
  ⟨g.state, g.out, g.next.map (·, origin)⟩

def Trigger.plain : Trigger ε (τ × Origin σ ε) ι → Trigger ε τ ι
  | .event e => .event e
  | .task t o => .task t.1 o

/-- The event that a segment goes back to. -/
def Trigger.origin (s : σ) : Trigger ε (τ × Origin σ ε) ι → Origin σ ε
  | .event e => ⟨s, e⟩
  | .task t _ => t.2

def Conf.plain (c : Conf σ (τ × Origin σ ε)) : Conf σ τ := ⟨c.shared, c.pool.map Prod.fst⟩

def Turn.plain (turn : Turn σ (τ × Origin σ ε) ε ι ω) : Turn σ τ ε ι ω :=
  ⟨turn.before.plain, turn.trigger.plain, turn.after.plain, turn.out⟩

def Turn.origin (turn : Turn σ (τ × Origin σ ε) ε ι ω) : Origin σ ε :=
  turn.trigger.origin turn.before.shared

/-- The origin is a segment of the history. -/
def Origin.Among (past : List (Turn σ (τ × Origin σ ε) ε ι ω)) (origin : Origin σ ε) : Prop :=
  ∃ turn ∈ past, turn.before.shared = origin.state ∧ turn.trigger = .event origin.event

namespace Machine
variable (M : Machine σ τ ε ι ω)

/-- The machine with origins. -/
def traced : Machine σ (τ × Origin σ ε) ε ι ω where
  handle s e := (M.handle s e).map (·.tagged ⟨s, e⟩)
  resume s t o := (M.resume s t.1 o).map (·.tagged t.2)

variable {M} {c : Conf σ (τ × Origin σ ε)}

theorem traced_fire (s : σ) (t : Trigger ε (τ × Origin σ ε) ι) :
    M.traced.fire s t = (M.fire s t.plain).map (·.tagged (t.origin s)) := by
  cases t <;> rfl

/-- A segment of the machine with origins is one of the machine. -/
theorem fire_of_traced {s : σ} {t : Trigger ε (τ × Origin σ ε) ι} {g : Segment σ (τ × Origin σ ε) ω}
    (h : M.traced.fire s t = some g) :
    ∃ g', M.fire s t.plain = some g' ∧ g = g'.tagged (t.origin s) := by
  rw [traced_fire, Option.map_eq_some_iff] at h
  obtain ⟨g', hfire, rfl⟩ := h
  exact ⟨g', hfire, rfl⟩

/-- Without the origins it is the machine. -/
theorem traced_projects (M : Machine σ τ ε ι ω) : Projects id Prod.fst M.traced M := by
  intro s t
  rw [traced_fire, Option.map_map]
  have hsame : Segment.project id Prod.fst ∘ (fun g : Segment σ τ ω => g.tagged (t.origin s)) = id := by
    funext g
    simp [Segment.project, Segment.tagged, Function.comp_def]
  rw [hsame, Option.map_id, id_eq]
  cases t <;> rfl

/-- A run can be made with origins too, with the same segments. -/
theorem run_traced {acts : List (Act ε ι)} {c₁ : Conf σ τ} {out : List ω}
    (h : M.run c.plain acts = some (c₁, out)) :
    ∃ d, M.traced.run c acts = some (d, out) ∧ d.plain = c₁ ∧
      (M.traced.history c acts).map Turn.plain = M.history c.plain acts := by
  have hplain : M.run c.plain acts = (M.traced.run c acts).map fun r => (r.1.project id Prod.fst, r.2) :=
    run_project (traced_projects M) c acts
  rw [hplain] at h
  obtain ⟨⟨d, out'⟩, hd, hsame⟩ := Option.map_eq_some_iff.mp h
  obtain ⟨rfl, rfl⟩ := Prod.mk.inj hsame
  refine ⟨d, hd, rfl, ?_⟩
  have hturn : (Turn.plain : Turn σ (τ × Origin σ ε) ε ι ω → _) = Turn.project id Prod.fst := by
    funext turn
    rcases turn with ⟨before, t, after, out⟩
    cases t <;> rfl
  rw [hturn]
  exact (history_project (traced_projects M) c acts).symm

/-- Every suspended task goes back to an event of the history. -/
theorem origins_among {acts : List (Act ε ι)} {d : Conf σ (τ × Origin σ ε)} {out : List ω} {s : σ}
    (hrun : M.traced.run ⟨s, []⟩ acts = some (d, out)) :
    ∀ task ∈ d.pool, task.2.Among (M.traced.history ⟨s, []⟩ acts) := by
  refine run_history_preserves (P := fun _ _ _ => True)
    (I := fun past d => ∀ task ∈ d.pool, task.2.Among past) ?_ nofun (fun _ _ _ _ => trivial) hrun
  intro past c c' out t g rest h _ hby task hm
  obtain ⟨g', -, rfl⟩ := fire_of_traced hby.fire
  have hold : ∀ old : τ × Origin σ ε, old ∈ c.pool → old.2.Among (past ++ [⟨c, t, c', out⟩]) := by
    intro old hold
    obtain ⟨turn, hturn, horigin⟩ := h old hold
    exact ⟨turn, List.mem_append_left _ hturn, horigin⟩
  rcases hby.mem_after hm with hm | hm
  · exact hold task (hby.mem_of_rest hm)
  · obtain ⟨task', -, rfl⟩ := List.mem_map.mp hm
    cases t with
    | event e => exact ⟨⟨c, .event e, c', out⟩, by simp, rfl, rfl⟩
    | task old o => exact hold old (hby.mem_of_taken (List.mem_singleton_self _))

end Machine
end
end CodeShare.Tasks
