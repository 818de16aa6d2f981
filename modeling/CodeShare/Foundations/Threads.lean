import CodeShare.Foundations.Origins

/-! # Threads

The segments that go back to one event are a thread. The events of a run are counted, so that a thread is
known by the number of its event. What holds of a thread is proved along the thread alone: of its first
segment, and of each further one from those before it and the tasks that they left.
-/

namespace CodeShare.Tasks
set_option autoImplicit false

section
variable {σ τ ε ι ω : Type}

/-- The task with the event that its thread began with. -/
abbrev Threaded (σ τ ε : Type) : Type := τ × Origin (σ × ℕ) ε

def Trigger.eventCount {ε τ ι : Type} : Trigger ε τ ι → ℕ
  | .event _ => 1
  | .task _ _ => 0

/-- Without the numbers and the origins. -/
def Conf.base (c : Conf (σ × ℕ) (Threaded σ τ ε)) : Conf σ τ := ⟨c.shared.1, c.pool.map Prod.fst⟩

def Turn.base (turn : Turn (σ × ℕ) (Threaded σ τ ε) ε ι ω) : Turn σ τ ε ι ω :=
  ⟨turn.before.base, turn.trigger.plain, turn.after.base, turn.out⟩

/-- The number of the thread. -/
def Turn.thread (turn : Turn (σ × ℕ) (Threaded σ τ ε) ε ι ω) : ℕ := turn.origin.state.2

/-- The segments of a thread. -/
def turnsOf (k : ℕ) (past : List (Turn (σ × ℕ) (Threaded σ τ ε) ε ι ω)) : List (Turn σ τ ε ι ω) :=
  (past.filter fun turn => turn.thread = k).map Turn.base

/-- The tasks of a thread. -/
def tasksOf (k : ℕ) (pool : List (Threaded σ τ ε)) : List τ :=
  (pool.filter fun task => task.2.state.2 = k).map Prod.fst

namespace Machine
variable (M : Machine σ τ ε ι ω)

/-- The machine that counts its events. -/
def counted : Machine (σ × ℕ) τ ε ι ω where
  handle s e := (M.handle s.1 e).map fun g => ⟨(g.state, s.2 + 1), g.out, g.next⟩
  resume s t o := (M.resume s.1 t o).map fun g => ⟨(g.state, s.2), g.out, g.next⟩

/-- The machine with threads. -/
def threaded : Machine (σ × ℕ) (Threaded σ τ ε) ε ι ω := M.counted.traced

variable {M} {c d : Conf (σ × ℕ) (Threaded σ τ ε)} {out : List ω}

theorem threaded_fire (s : σ × ℕ) (t : Trigger ε (Threaded σ τ ε) ι) :
    M.threaded.fire s t = (M.fire s.1 t.plain).map fun g =>
      ⟨(g.state, s.2 + t.eventCount), g.out, g.next.map (·, t.origin s)⟩ := by
  cases t with
  | event e => exact Option.map_map _ _ _
  | task t o => exact Option.map_map _ _ _

theorem map_fst_tagged (next : List τ) (origin : Origin (σ × ℕ) ε) :
    (next.map (·, origin)).map Prod.fst = next := by
  rw [List.map_map]
  exact List.map_id _

theorem taken_plain (t : Trigger ε (Threaded σ τ ε) ι) : t.plain.taken = t.taken.map Prod.fst := by
  cases t <;> rfl

/-- A step with threads is a step. -/
theorem StepBy.base {t : Trigger ε (Threaded σ τ ε) ι} {g : Segment (σ × ℕ) (Threaded σ τ ε) ω}
    {others : List (Threaded σ τ ε)} (h : M.threaded.StepBy c d out t g others) :
    ∃ g', M.StepBy c.base d.base out t.plain g' (others.map Prod.fst) ∧
      d.shared.2 = c.shared.2 + t.eventCount ∧ g.next = g'.next.map (·, t.origin c.shared) := by
  have hfire := h.fire
  rw [threaded_fire, Option.map_eq_some_iff] at hfire
  obtain ⟨g', hfire, rfl⟩ := hfire
  have hpool : d.base.pool = others.map Prod.fst ++ g'.next := by
    have hafter := h.after
    rw [Conf.base, hafter, List.map_append, map_fst_tagged]
  have hbefore : (t.plain.taken ++ others.map Prod.fst).Perm c.base.pool := by
    rw [taken_plain, ← List.map_append]
    exact h.before.map Prod.fst
  exact ⟨g', ⟨hfire, congrArg Prod.fst h.shared, h.out, hbefore, hpool⟩, congrArg Prod.snd h.shared, rfl⟩

/-- Without the threads it is the machine. -/
theorem threaded_projects (M : Machine σ τ ε ι ω) : Projects Prod.fst Prod.fst M.threaded M := by
  intro s t
  have hplain : t.project Prod.fst = t.plain := by cases t <;> rfl
  rw [hplain, threaded_fire, Option.map_map]
  cases hfire : M.fire s.1 t.plain with
  | none => rfl
  | some g =>
    have hnext : (g.next.map (·, t.origin s)).map Prod.fst = g.next := map_fst_tagged _ _
    rw [Option.map_some, Function.comp_apply, Segment.project, hnext]

/-- A run with threads is a run, with the same segments. -/
theorem run_of_threaded {acts : List (Act ε ι)} (h : M.threaded.run c acts = some (d, out)) :
    M.run c.base acts = some (d.base, out) ∧
      M.history c.base acts = (M.threaded.history c acts).map Turn.base := by
  have hrun : M.run c.base acts = (M.threaded.run c acts).map fun r => (r.1.base, r.2) :=
    run_project (threaded_projects M) c acts
  have hturn : (Turn.base : Turn (σ × ℕ) (Threaded σ τ ε) ε ι ω → _) = Turn.project Prod.fst Prod.fst := by
    funext turn
    rcases turn with ⟨before, t, after, out⟩
    cases t <;> rfl
  rw [h] at hrun
  refine ⟨hrun, ?_⟩
  rw [hturn]
  exact history_project (threaded_projects M) c acts

/-- Every run can be made with threads. -/
theorem run_threaded {acts : List (Act ε ι)} {c₁ : Conf σ τ} (h : M.run c.base acts = some (c₁, out)) :
    ∃ d, M.threaded.run c acts = some (d, out) ∧ d.base = c₁ := by
  have hrun : M.run c.base acts = (M.threaded.run c acts).map fun r => (r.1.base, r.2) :=
    run_project (threaded_projects M) c acts
  rw [hrun] at h
  obtain ⟨⟨d, out'⟩, hd, hsame⟩ := Option.map_eq_some_iff.mp h
  obtain ⟨rfl, rfl⟩ := Prod.mk.inj hsame
  exact ⟨d, hd, rfl⟩

/-! ## The thread rule -/

/-- A thread with one task at most has it in one order. -/
theorem eq_of_perm_short {ts ts' : List τ} (hlength : ts.length ≤ 1) (hperm : ts.Perm ts') : ts = ts' := by
  cases ts with
  | nil => exact (List.nil_perm.mp hperm).symm
  | cons task rest =>
    obtain rfl := List.eq_nil_of_length_eq_zero (Nat.le_zero.mp (Nat.le_of_succ_le_succ hlength))
    exact List.singleton_perm.mp hperm

theorem turnsOf_concat (k : ℕ) (past : List (Turn (σ × ℕ) (Threaded σ τ ε) ε ι ω))
    (turn : Turn (σ × ℕ) (Threaded σ τ ε) ε ι ω) : turnsOf k (past ++ [turn]) =
      turnsOf k past ++ if turn.thread = k then [turn.base] else [] := by
  rw [turnsOf, List.filter_append, List.map_append, turnsOf]
  by_cases hk : turn.thread = k
  · simp [hk]
  · simp [hk]

theorem tasksOf_append (k : ℕ) (pool pool' : List (Threaded σ τ ε)) :
    tasksOf k (pool ++ pool') = tasksOf k pool ++ tasksOf k pool' := by
  rw [tasksOf, List.filter_append, List.map_append]
  rfl

theorem tasksOf_perm {pool pool' : List (Threaded σ τ ε)} (h : pool.Perm pool') (k : ℕ) :
    (tasksOf k pool).Perm (tasksOf k pool') :=
  (h.filter _).map Prod.fst

theorem tasksOf_tagged (k : ℕ) (next : List τ) (origin : Origin (σ × ℕ) ε) :
    tasksOf k (next.map (·, origin)) = if origin.state.2 = k then next else [] := by
  unfold tasksOf
  by_cases hk : origin.state.2 = k
  · rw [if_pos hk, List.filter_eq_self.mpr, map_fst_tagged]
    intro task hm
    obtain ⟨_, -, rfl⟩ := List.mem_map.mp hm
    exact decide_eq_true hk
  · rw [if_neg hk, List.map_eq_nil_iff, List.filter_eq_nil_iff]
    intro task hm
    obtain ⟨_, -, rfl⟩ := List.mem_map.mp hm
    simpa using hk

/-- Each thread meets its invariant, and there are no others. -/
structure ThreadsOk (J : List (Turn σ τ ε ι ω) → List τ → Prop)
    (past : List (Turn (σ × ℕ) (Threaded σ τ ε) ε ι ω))
    (d : Conf (σ × ℕ) (Threaded σ τ ε)) : Prop where
  turns : ∀ turn ∈ past, turn.thread < d.shared.2
  tasks : ∀ task ∈ d.pool, task.2.state.2 < d.shared.2
  threads : ∀ k < d.shared.2, J (turnsOf k past) (tasksOf k d.pool)

/-- No segment has gone back to an event that is still to come. -/
theorem ThreadsOk.turnsOf_new {J : List (Turn σ τ ε ι ω) → List τ → Prop}
    {past : List (Turn (σ × ℕ) (Threaded σ τ ε) ε ι ω)} (h : ThreadsOk J past d) :
    turnsOf d.shared.2 past = [] := by
  rw [turnsOf, List.map_eq_nil_iff, List.filter_eq_nil_iff]
  intro turn hm
  simpa using Nat.ne_of_lt (h.turns turn hm)

theorem ThreadsOk.tasksOf_new {J : List (Turn σ τ ε ι ω) → List τ → Prop}
    {past : List (Turn (σ × ℕ) (Threaded σ τ ε) ε ι ω)} (h : ThreadsOk J past d)
    {others : List (Threaded σ τ ε)} (hothers : ∀ task ∈ others, task ∈ d.pool) :
    tasksOf d.shared.2 others = [] := by
  rw [tasksOf, List.map_eq_nil_iff, List.filter_eq_nil_iff]
  intro task hm
  simpa using Nat.ne_of_lt (h.tasks task (hothers task hm))

/-- A segment takes no task of another thread. -/
theorem tasksOf_taken {s : σ × ℕ} {t : Trigger ε (Threaded σ τ ε) ι} {k : ℕ} (hk : (t.origin s).state.2 ≠ k) :
    tasksOf k t.taken = [] := by
  cases t with
  | event e => rfl
  | task task o =>
    have hne : task.2.state.2 ≠ k := hk
    rw [Trigger.taken, tasksOf, List.filter_cons_of_neg (by simpa using hne)]
    rfl

/-- The thread rule. What the first segment of a thread establishes, and each further one keeps, holds of
every thread. The segments may be known to start where a condition is met. -/
theorem thread_rule {P : Conf σ τ → Trigger ε τ ι → Prop} {J : List (Turn σ τ ε ι ω) → List τ → Prop}
    (hperm : ∀ turns ts ts', ts.Perm ts' → J turns ts → J turns ts')
    (hevent : ∀ turn e g others, P turn.before (.event e) → turn.trigger = .event e →
      M.StepBy turn.before turn.after turn.out (.event e) g others → J [turn] g.next)
    (htask : ∀ turns turn t o g others ts, J turns (t :: ts) → P turn.before (.task t o) →
      turn.trigger = .task t o → M.StepBy turn.before turn.after turn.out (.task t o) g others →
      J (turns ++ [turn]) (ts ++ g.next))
    {s : σ} {acts : List (Act ε ι)} (hmeets : M.Meets P ⟨s, []⟩ acts)
    (hrun : M.threaded.run ⟨(s, 0), []⟩ acts = some (d, out)) :
    ThreadsOk J (M.threaded.history ⟨(s, 0), []⟩ acts) d := by
  obtain ⟨hrunBase, hhistory⟩ := run_of_threaded hrun
  have hP := (meets_iff_history hrunBase).mp hmeets
  refine run_history_preserves (P := fun _ c t => P c.base t.plain) (I := ThreadsOk J) ?_
    ⟨nofun, nofun, nofun⟩ ?_ hrun
  · intro past c c' out t g others h hPt hby
    obtain ⟨g', hbase, hnumber, hnext⟩ := hby.base
    have hle : c.shared.2 ≤ c'.shared.2 := by omega
    have hthread : (t.origin c.shared).state.2 < c'.shared.2 := by
      cases t with
      | event e => exact lt_of_lt_of_eq (Nat.lt_succ_self _) hnumber.symm
      | task task o =>
        have htaken : task ∈ c.pool := hby.mem_of_taken (List.mem_singleton_self _)
        exact Nat.lt_of_lt_of_le (h.tasks task htaken) hle
    refine ⟨?_, ?_, ?_⟩
    · intro turn hm
      rcases List.mem_append.mp hm with hm | hm
      · exact Nat.lt_of_lt_of_le (h.turns turn hm) hle
      · rw [List.mem_singleton.mp hm]
        exact hthread
    · intro task hm
      rcases hby.mem_after hm with hm | hm
      · exact Nat.lt_of_lt_of_le (h.tasks task (hby.mem_of_rest hm)) hle
      · rw [hnext] at hm
        obtain ⟨_, -, rfl⟩ := List.mem_map.mp hm
        exact hthread
    · intro k hk
      have hpool := tasksOf_perm hby.before k
      rw [tasksOf_append] at hpool
      rw [turnsOf_concat, hby.after, tasksOf_append, hnext, tasksOf_tagged]
      change J (turnsOf k past ++ if (t.origin c.shared).state.2 = k then _ else []) _
      by_cases hthis : (t.origin c.shared).state.2 = k
      · rw [if_pos hthis, if_pos hthis]
        cases t with
        | event e =>
          -- a new thread: it has no segments and no tasks so far
          obtain rfl : c.shared.2 = k := hthis
          rw [h.turnsOf_new, h.tasksOf_new fun _ => hby.mem_of_rest, List.nil_append, List.nil_append]
          exact hevent _ e g' _ hPt rfl hbase
        | task task o =>
          obtain rfl : task.2.state.2 = k := hthis
          have htaken : tasksOf task.2.state.2 [task] = [task.1] := by
            simp [tasksOf]
          change ((tasksOf _ [task]) ++ _).Perm _ at hpool
          rw [htaken] at hpool
          exact htask _ _ task.1 o g' _ _
            (hperm _ _ _ hpool.symm (h.threads _ (h.tasks task (hby.mem_of_taken (List.mem_singleton_self _)))))
            hPt rfl hbase
      · rw [if_neg hthis, if_neg hthis, List.append_nil, List.append_nil]
        have hold : k < c.shared.2 := by
          cases t with
          | event e =>
            have hne : c.shared.2 ≠ k := hthis
            have hnumber : c'.shared.2 = c.shared.2 + 1 := hnumber
            omega
          | task task o =>
            have hnumber : c'.shared.2 = c.shared.2 := hnumber
            omega
        rw [tasksOf_taken hthis, List.nil_append] at hpool
        exact hperm _ _ _ hpool.symm (h.threads k hold)
  · intro before turn later hsplit
    refine hP turn.base ?_
    rw [hhistory, hsplit]
    exact List.mem_map_of_mem (List.mem_append_right _ List.mem_cons_self)

/-! ## Scripts -/

/-- The event that a thread begins with. -/
def BeginsWith (e : ε) (turns : List (Turn σ τ ε ι ω)) : Prop :=
  turns.head?.map Turn.trigger = some (.event e)

/-- A thread goes on with what it began with. -/
theorem BeginsWith.later {e : ε} {k : ℕ} {past more : List (Turn (σ × ℕ) (Threaded σ τ ε) ε ι ω)}
    (h : BeginsWith e (turnsOf k past)) : BeginsWith e (turnsOf k (past ++ more)) := by
  rw [turnsOf, List.filter_append, List.map_append]
  change BeginsWith e (turnsOf k past ++ _)
  cases hturns : turnsOf k past with
  | nil => rw [BeginsWith, hturns] at h; cases h
  | cons turn turns =>
    rw [hturns] at h
    exact h

/-- The script rule. What each segment of a thread says is read off one by one, and a script relates all
that has been said in the thread to the tasks in which it waits. -/
theorem script_rule {μ : Type} {P : Conf σ τ → Trigger ε τ ι → Prop} (Concerns : ε → Prop)
    {Says : Turn σ τ ε ι ω → List μ → Prop} (Script : ε → List μ → List τ → Prop)
    (hperm : ∀ e said ts ts', ts.Perm ts' → Script e said ts → Script e said ts')
    (hevent : ∀ turn e g others, P turn.before (.event e) → Concerns e →
      M.StepBy turn.before turn.after turn.out (.event e) g others →
      ∃ said, Says turn said ∧ Script e said g.next)
    (htask : ∀ e said turn t o g others ts, Concerns e → Script e said (t :: ts) → P turn.before (.task t o) →
      M.StepBy turn.before turn.after turn.out (.task t o) g others →
      ∃ more, Says turn more ∧ Script e (said ++ more) (ts ++ g.next))
    {s : σ} {acts : List (Act ε ι)} (hmeets : M.Meets P ⟨s, []⟩ acts)
    (hrun : M.threaded.run ⟨(s, 0), []⟩ acts = some (d, out)) {k : ℕ} (hk : k < d.shared.2) {e : ε}
    (hbegins : BeginsWith e (turnsOf k (M.threaded.history ⟨(s, 0), []⟩ acts))) (he : Concerns e) :
    ∃ said, List.Forall₂ Says (turnsOf k (M.threaded.history ⟨(s, 0), []⟩ acts)) said ∧
      Script e said.flatten (tasksOf k d.pool) := by
  refine (thread_rule (J := fun turns ts => turns ≠ [] ∧ ∀ e, BeginsWith e turns → Concerns e →
    ∃ said, List.Forall₂ Says turns said ∧ Script e said.flatten ts) ?_ ?_ ?_ hmeets hrun).threads k hk
      |>.2 e hbegins he
  · rintro turns ts ts' hts ⟨hne, h⟩
    refine ⟨hne, fun e hbegins he => ?_⟩
    obtain ⟨said, hsays, hscript⟩ := h e hbegins he
    exact ⟨said, hsays, hperm e _ ts ts' hts hscript⟩
  · intro turn e g others hP htrigger hby
    refine ⟨List.cons_ne_nil _ _, fun e' hbegins he => ?_⟩
    have hsame : Trigger.event e = .event e' := htrigger.symm.trans (Option.some.inj hbegins)
    obtain rfl := Trigger.event.inj hsame
    obtain ⟨said, hsays, hscript⟩ := hevent turn e g others hP he hby
    refine ⟨[said], .cons hsays .nil, ?_⟩
    rw [List.flatten_cons, List.flatten_nil, List.append_nil]
    exact hscript
  · rintro turns turn t o g others ts ⟨hne, h⟩ hP - hby
    refine ⟨List.append_ne_nil_of_left_ne_nil hne _, fun e hbegins he => ?_⟩
    have hfirst : BeginsWith e turns := by
      cases turns with
      | nil => exact absurd rfl hne
      | cons first turns => exact hbegins
    obtain ⟨said, hsays, hscript⟩ := h e hfirst he
    obtain ⟨more, hmore, hscript⟩ := htask e _ turn t o g others ts he hscript hP hby
    refine ⟨said ++ [more], List.rel_append hsays (.cons hmore .nil), ?_⟩
    rw [List.flatten_append, List.flatten_cons, List.flatten_nil, List.append_nil]
    exact hscript

end Machine
end
end CodeShare.Tasks
