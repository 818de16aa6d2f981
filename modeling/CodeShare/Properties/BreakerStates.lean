import CodeShare.Lib.CircuitBreaker

/-! # The states of the circuit breaker

Calls that were admitted in one state settle in another. Whatever the order, the timer belongs to the
open state alone, and a closed breaker is below its threshold.
-/

namespace CodeShare.CircuitBreaker
open Tasks
set_option autoImplicit false

/-- The changes that a settlement or a timer may make. -/
inductive Advances : CircuitState → CircuitState → Prop where
  | trip : Advances .closed .opened
  | probe : Advances .opened .halfOpen
  | recover : Advances .halfOpen .closed
  | relapse : Advances .halfOpen .opened

/-- One timer is pending for an open breaker, the one in `resetTimer`, and none for the others. -/
structure TimerOfOpen (b : Breaker) : Prop where
  opened : b.state = .opened → ∃ id, b.resetTimer = some id ∧ b.timers = [id]
  others : b.state ≠ .opened → b.resetTimer = none ∧ b.timers = []

structure Sound (options : CircuitBreakerOptions) (b : Breaker) : Prop where
  below : b.state = .closed → b.consecutiveFailures < options.failureThreshold
  timer : TimerOfOpen b

def changes (out : List Effect) : List (CircuitState × CircuitState) :=
  out.filterMap fun
    | .stateChange src dst => some (src, dst)
    | _ => none

/-- A segment leaves a sound breaker, and what it tells `onStateChange` is what it has changed. -/
structure Lawful (options : CircuitBreakerOptions) (byReset : Prop) (b : Breaker) (g : Step) :
    Prop where
  sound : Sound options g.state
  moves : g.state.state = b.state ∨ Advances b.state g.state.state ∨
    byReset ∧ g.state.state = .closed
  told : changes g.out = if b.state = g.state.state then [] else [(b.state, g.state.state)]

/-! ## One segment -/

section
variable {options : CircuitBreakerOptions} {b : Breaker}

theorem clearResetTimer_timers (h : TimerOfOpen b) :
    (clearResetTimer b).resetTimer = none ∧ (clearResetTimer b).timers = [] := by
  unfold clearResetTimer
  by_cases hopen : b.state = .opened
  · obtain ⟨id, hreset, htimers⟩ := h.opened hopen
    rw [hreset, htimers]
    exact ⟨rfl, List.erase_cons_head id []⟩
  · obtain ⟨hreset, htimers⟩ := h.others hopen
    rw [hreset]
    exact ⟨hreset, htimers⟩

theorem lawful_of_transition {byReset : Prop} (b' : Breaker) (dst : CircuitState) {g : Step}
    (hsame : b'.state = b.state) (hstate : g.state.state = dst)
    (hout : g.out = (transition (Segment.of b') dst).out) (hsound : Sound options g.state)
    (hmoves : dst = b.state ∨ Advances b.state dst ∨ byReset ∧ dst = .closed) :
    Lawful options byReset b g := by
  subst hstate
  refine ⟨hsound, hmoves, ?_⟩
  rw [hout, transition_out, Segment.of_out, Segment.of_state, hsame]
  split_ifs
  · rfl
  · rfl

/-- Without a timer, one is set. -/
theorem scheduleHalfOpen_state {g : Step} (hreset : g.state.resetTimer = none)
    (htimers : g.state.timers = []) :
    (scheduleHalfOpen g).state = { g.state with
      resetTimer := some g.state.nextTimer
      timers := [g.state.nextTimer]
      nextTimer := g.state.nextTimer + 1 } := by
  have hclear : clearResetTimer g.state = g.state := by
    unfold clearResetTimer
    rw [hreset]
  unfold scheduleHalfOpen
  rw [Segment.modify_state]
  dsimp only
  rw [hclear, htimers, List.nil_append]

theorem recordSuccess_lawful (h : Sound options b) : Lawful options False b (recordSuccess b) := by
  unfold recordSuccess
  dsimp only
  split_ifs with hhalf
  · have hclosed := transition_state (Segment.of { b with consecutiveFailures := 0 }) .closed
    have hothers := h.timer.others (by rw [hhalf]; decide)
    refine lawful_of_transition { b with consecutiveFailures := 0 } .closed rfl (by rw [hclosed]) rfl
      ?_ ?_
    · rw [hclosed]
      exact ⟨fun _ => options.failureThreshold_pos, nofun, fun _ => hothers⟩
    · rw [hhalf]
      exact Or.inr (Or.inl .recover)
  · exact ⟨⟨fun _ => options.failureThreshold_pos, h.timer.opened, h.timer.others⟩, Or.inl rfl,
      (if_pos rfl).symm⟩

theorem recordFailure_lawful (h : Sound options b) :
    Lawful options False b (recordFailure options b) := by
  have hopens : b.state ≠ .opened → Advances b.state .opened →
      Lawful options False b (scheduleHalfOpen (transition
        (Segment.of { b with consecutiveFailures := b.consecutiveFailures + 1 }) .opened)) := by
    intro hother hadvance
    obtain ⟨hreset, htimers⟩ := h.timer.others hother
    have hopened := transition_state
      (Segment.of { b with consecutiveFailures := b.consecutiveFailures + 1 }) .opened
    have hstate := scheduleHalfOpen_state (g := transition (Segment.of { b with
      consecutiveFailures := b.consecutiveFailures + 1 }) .opened) (by rw [hopened]; exact hreset)
      (by rw [hopened]; exact htimers)
    rw [hopened] at hstate
    refine lawful_of_transition { b with consecutiveFailures := b.consecutiveFailures + 1 } .opened rfl
      (by rw [hstate]) rfl ?_ (Or.inr (Or.inl hadvance))
    rw [hstate]
    exact ⟨nofun, fun _ => ⟨_, rfl, rfl⟩, fun hnot => absurd rfl hnot⟩
  unfold recordFailure
  dsimp only
  split_ifs with hhalf htrip
  · exact hopens (by rw [hhalf]; decide) (by rw [hhalf]; exact .relapse)
  · exact hopens (by rw [htrip.1]; decide) (by rw [htrip.1]; exact .trip)
  · refine ⟨⟨fun hclosed => ?_, h.timer.opened, h.timer.others⟩, Or.inl rfl, (if_pos rfl).symm⟩
    have hfew : ¬ options.failureThreshold ≤ b.consecutiveFailures + 1 := fun hle =>
      htrip ⟨hclosed, hle⟩
    exact not_le.mp hfew

theorem execute_lawful (h : Sound options b) : Lawful options False b (execute options b) := by
  unfold execute
  split_ifs
  · exact ⟨h, Or.inl rfl, (if_pos rfl).symm⟩
  · exact ⟨h, Or.inl rfl, (if_pos rfl).symm⟩

/-- A timer that fires is that of an open breaker. -/
theorem halfOpen_lawful {id : TimerId} (h : Sound options b) (hid : id ∈ b.timers) :
    Lawful options False b (halfOpen b id) := by
  have hopen : b.state = .opened := by
    by_contra hother
    rw [(h.timer.others hother).2] at hid
    cases hid
  obtain ⟨id', -, htimers⟩ := h.timer.opened hopen
  rw [htimers, List.mem_singleton] at hid
  subst hid
  have hhalf := transition_state
    (Segment.of { b with timers := b.timers.erase id, resetTimer := none }) .halfOpen
  unfold halfOpen
  refine lawful_of_transition { b with timers := b.timers.erase id, resetTimer := none } .halfOpen rfl
    (by rw [hhalf]) rfl ?_ ?_
  · rw [hhalf, htimers]
    exact ⟨nofun, nofun, fun _ => ⟨rfl, List.erase_cons_head id []⟩⟩
  · rw [hopen]
    exact Or.inr (Or.inl .probe)

theorem reset_lawful (h : Sound options b) : Lawful options True b (reset b) := by
  obtain ⟨hreset, htimers⟩ := clearResetTimer_timers h.timer
  have hclosed := transition_state
    (Segment.of { clearResetTimer b with consecutiveFailures := 0 }) .closed
  unfold reset
  refine lawful_of_transition { clearResetTimer b with consecutiveFailures := 0 } .closed
    (clearResetTimer_state b) (by rw [hclosed]) rfl ?_ ?_
  · rw [hclosed]
    exact ⟨fun _ => options.failureThreshold_pos, nofun, fun _ => ⟨hreset, htimers⟩⟩
  · exact Or.inr (Or.inr ⟨trivial, rfl⟩)

end

section
variable {options : CircuitBreakerOptions} {b : Breaker} {g : Step}
  {t : Trigger BreakerEvent Call Settlement}

theorem Lawful.mono {p q : Prop} (h : Lawful options p b g) (himp : p → q) : Lawful options q b g :=
  ⟨h.sound, h.moves.imp_right (Or.imp_right (And.imp_left himp)), h.told⟩

theorem fire_lawful (h : Sound options b) (hfire : (breaker options).fire b t = some g) :
    Lawful options (t = .event .reset) b g := by
  cases t with
  | event e =>
    cases e with
    | execute =>
      obtain rfl := Option.some.inj hfire
      exact (execute_lawful h).mono False.elim
    | timeout id =>
      change (if id ∈ b.timers then some (halfOpen b id) else none) = some g at hfire
      split_ifs at hfire with hid
      obtain rfl := Option.some.inj hfire
      exact (halfOpen_lawful h hid).mono False.elim
    | reset =>
      obtain rfl := Option.some.inj hfire
      exact (reset_lawful h).mono fun _ => rfl
  | task call settlement =>
    obtain rfl := Option.some.inj hfire
    cases settlement with
    | fulfilled => exact (recordSuccess_lawful h).mono False.elim
    | rejected => exact (recordFailure_lawful h).mono False.elim

theorem started_not_mem_transition (b : Breaker) (dst : CircuitState) :
    .started ∉ (transition (Segment.of b) dst).out := by
  rw [transition_out]
  split_ifs <;> simp

/-- A function is started by a call that does not find the breaker open. -/
theorem started_of_fire (hfire : (breaker options).fire b t = some g) (hm : .started ∈ g.out) :
    b.state ≠ .opened := by
  cases t with
  | event e =>
    cases e with
    | execute =>
      obtain rfl := Option.some.inj hfire
      intro hopen
      unfold execute at hm
      rw [if_pos hopen] at hm
      simp at hm
    | timeout id =>
      change (if id ∈ b.timers then some (halfOpen b id) else none) = some g at hfire
      split_ifs at hfire
      obtain rfl := Option.some.inj hfire
      exact absurd hm (started_not_mem_transition _ _)
    | reset =>
      obtain rfl := Option.some.inj hfire
      exact absurd hm (started_not_mem_transition _ _)
  | task call settlement =>
    obtain rfl := Option.some.inj hfire
    cases settlement with
    | fulfilled =>
      change .started ∈ (recordSuccess b).out at hm
      unfold recordSuccess at hm
      dsimp only at hm
      split_ifs at hm
      · exact absurd hm (started_not_mem_transition _ _)
      · cases hm
    | rejected =>
      change .started ∈ (recordFailure options b).out at hm
      unfold recordFailure at hm
      dsimp only at hm
      split_ifs at hm
      · exact absurd hm (started_not_mem_transition _ _)
      · exact absurd hm (started_not_mem_transition _ _)
      · cases hm

end

/-! ## Runs -/

theorem createCircuitBreaker_sound (options : CircuitBreakerOptions) :
    Sound options createCircuitBreaker.shared :=
  ⟨fun _ => options.failureThreshold_pos, nofun, fun _ => ⟨rfl, rfl⟩⟩

section
variable {options : CircuitBreakerOptions} {acts : List (Act BreakerEvent Settlement)}
  {c : Conf Breaker Call} {out : List Effect}

theorem sound_run (hrun : (breaker options).run createCircuitBreaker acts = some (c, out)) :
    Sound options c.shared := by
  refine Machine.run_preserves_always (I := fun c _ => Sound options c.shared) ?_
    (createCircuitBreaker_sound options) hrun
  intro c c' past out t g rest h hby
  rw [hby.shared]
  exact (fire_lawful h hby.fire).sound

/-- The breaker in every reachable state and on every step from it. -/
theorem breaker_states (hrun : (breaker options).run createCircuitBreaker acts = some (c, out)) :
    (c.shared.state = .closed → c.shared.consecutiveFailures < options.failureThreshold) ∧
    TimerOfOpen c.shared ∧
    (∀ id ∈ c.shared.timers, ∃ c' out',
      (breaker options).step c (.event (.timeout id)) = some (c', out') ∧
        c'.shared.state = .halfOpen) ∧
    ∀ a c' out', (breaker options).step c a = some (c', out') →
      (.started ∈ out' → c.shared.state ≠ .opened) ∧
      (c'.shared.state = c.shared.state ∨ Advances c.shared.state c'.shared.state ∨
        a = .event .reset ∧ c'.shared.state = .closed) ∧
      changes out' =
        if c.shared.state = c'.shared.state then [] else [(c.shared.state, c'.shared.state)] := by
  have hsound := sound_run hrun
  refine ⟨hsound.below, hsound.timer, fun id hid => ?_, fun a c' out' hstep => ?_⟩
  · have hfire : (breaker options).fire c.shared (.event (.timeout id)) =
        some (halfOpen c.shared id) := if_pos hid
    refine ⟨⟨(halfOpen c.shared id).state, c.pool ++ (halfOpen c.shared id).next⟩,
      (halfOpen c.shared id).out, ?_, ?_⟩
    · rw [Machine.step, Machine.trigger]
      dsimp only
      rw [hfire]
      rfl
    · unfold halfOpen
      rw [transition_state]
  · obtain ⟨t, g, htrigger, hby⟩ := Machine.step_by hstep
    have hlawful := fire_lawful hsound hby.fire
    rw [hby.out, hby.shared]
    refine ⟨started_of_fire hby.fire, ?_, hlawful.told⟩
    refine hlawful.moves.imp_right (Or.imp_right (And.imp_left fun hreset => ?_))
    cases a with
    | event e =>
      obtain rfl := Option.some.inj htrigger
      rw [Trigger.event.injEq] at hreset
      rw [hreset]
    | resume position settlement =>
      obtain ⟨call, -, rfl⟩ := Option.map_eq_some_iff.mp htrigger
      cases hreset

end

/-- One failure opens this breaker. -/
def exampleOptions : CircuitBreakerOptions where
  name := js "judge0"
  failureThreshold := 1
  failureThreshold_pos := le_rfl

/-- Two calls overlap; the first fails, the second succeeds late, and the timer fires. -/
def exampleRun : List (Act BreakerEvent Settlement) :=
  [.event .execute, .event .execute, .resume 0 .rejected, .resume 0 .fulfilled, .event (.timeout 0)]

theorem breaker_states_example : ∃ c out,
    (breaker exampleOptions).run createCircuitBreaker exampleRun = some (c, out) ∧
    c.shared.state = .halfOpen ∧
    (c.shared.state = .closed → c.shared.consecutiveFailures < exampleOptions.failureThreshold) ∧
    TimerOfOpen c.shared ∧
    (∀ id ∈ c.shared.timers, ∃ c' out',
      (breaker exampleOptions).step c (.event (.timeout id)) = some (c', out') ∧
        c'.shared.state = .halfOpen) ∧
    ∀ a c' out', (breaker exampleOptions).step c a = some (c', out') →
      (.started ∈ out' → c.shared.state ≠ .opened) ∧
      (c'.shared.state = c.shared.state ∨ Advances c.shared.state c'.shared.state ∨
        a = .event .reset ∧ c'.shared.state = .closed) ∧
      changes out' =
        if c.shared.state = c'.shared.state then [] else [(c.shared.state, c'.shared.state)] := by
  obtain ⟨c, out, hrun, hstate⟩ : ∃ c out,
      (breaker exampleOptions).run createCircuitBreaker exampleRun = some (c, out) ∧
        c.shared.state = .halfOpen := ⟨_, _, rfl, rfl⟩
  exact ⟨c, out, hrun, hstate, breaker_states hrun⟩

end CodeShare.CircuitBreaker
