import CodeShare.Server.TimerSteps

/-! # The timer table

Timeouts and the entries under which they run, registered room or not: the entry of the consent timer is
the one timeout for a consent, and every grace entry has its timeout. Every operation keeps the table.
-/

namespace CodeShare
open Tasks
set_option autoImplicit false

/-- Timeouts have ids of their own; at most one is for a consent, and it is the entry. -/
structure TimerTable (v : TimerView) : Prop where
  distinct : (v.timers.map (·.id)).Nodup
  fresh : ∀ timer ∈ v.timers, timer.id < v.nextTimer
  entry : ∀ timer ∈ v.timers, timer.kind = .consent → v.consentTimer = some timer.id
  running : ∀ id, v.consentTimer = some id → ∃ timer ∈ v.timers, timer.id = id ∧ timer.kind = .consent
  grace : ∀ entry ∈ v.graceTimers, ∃ timer ∈ v.timers, timer.id = entry.2 ∧ timer.kind = .grace entry.1

namespace TimerTable
variable {v : TimerView} {userId : UserId} {id : TimerId}

theorem eq_of_id (h : TimerTable v) {timer timer' : Timer} (hm : timer ∈ v.timers)
    (hm' : timer' ∈ v.timers) (hid : timer.id = timer'.id) : timer = timer' :=
  List.inj_on_of_nodup_map h.distinct hm hm' hid

/-- Some timeouts go: those of no entry that is left. -/
theorem filter (h : TimerTable v) (p : Timer → Bool) {consentTimer : Option TimerId}
    {graceTimers : List (UserId × TimerId)}
    (hkept : ∀ timer ∈ v.timers, timer.kind = .consent → p timer = true →
      consentTimer = some timer.id)
    (hentry : ∀ id, consentTimer = some id → v.consentTimer = some id ∧
      ∀ timer ∈ v.timers, timer.kind = .consent → p timer = true)
    (hgrace : ∀ entry ∈ graceTimers, entry ∈ v.graceTimers ∧
      ∀ timer ∈ v.timers, timer.id = entry.2 → timer.kind = .grace entry.1 → p timer = true) :
    TimerTable { v with
      timers := v.timers.filter p, consentTimer := consentTimer, graceTimers := graceTimers } where
  distinct := h.distinct.sublist (List.filter_sublist.map _)
  fresh timer hm := h.fresh timer (List.mem_filter.mp hm).1
  entry timer hm hkind := by
    obtain ⟨hm, hp⟩ := List.mem_filter.mp hm
    exact hkept timer hm hkind hp
  running id hid := by
    obtain ⟨hid, hp⟩ := hentry id hid
    obtain ⟨timer, hm, heq, hkind⟩ := h.running id hid
    exact ⟨timer, List.mem_filter.mpr ⟨hm, hp timer hm hkind⟩, heq, hkind⟩
  grace entry hentry := by
    obtain ⟨hentry, hp⟩ := hgrace entry hentry
    obtain ⟨timer, hm, heq, hkind⟩ := h.grace entry hentry
    exact ⟨timer, List.mem_filter.mpr ⟨hm, hp timer hm heq hkind⟩, heq, hkind⟩

theorem clearConsentTimer (h : TimerTable v) : TimerTable v.clearConsentTimer := by
  unfold TimerView.clearConsentTimer
  split
  · exact h
  · rename_i id hid
    refine h.filter _ (fun timer hm hkind hp => ?_) nofun fun entry hentry => ⟨hentry, ?_⟩
    · have hsame := (h.entry timer hm hkind).symm.trans hid
      exact absurd (Option.some.inj hsame) (by simpa using hp)
    · intro timer hm _ hkind
      have hne : timer.id ≠ id := by
        intro heq
        obtain ⟨timer', hm', heq', hkind'⟩ := h.running id hid
        rw [h.eq_of_id hm hm' (heq.trans heq'.symm), hkind'] at hkind
        cases hkind
      simpa using hne

/-- No timeout for a consent is left. -/
theorem not_consent (h : TimerTable v) :
    ∀ timer ∈ v.clearConsentTimer.timers, timer.kind ≠ .consent := by
  intro timer hm hkind
  have hnone : v.clearConsentTimer.consentTimer = none := by
    unfold TimerView.clearConsentTimer
    split
    · assumption
    · rfl
  have hentry := h.clearConsentTimer.entry timer hm hkind
  rw [hnone] at hentry
  cases hentry

theorem start (h : TimerTable v) (due : Time) (kind : TimerKind)
    {consentTimer : Option TimerId} {graceTimers : List (UserId × TimerId)}
    (hkept : ∀ timer ∈ v.timers, timer.kind = .consent → consentTimer = v.consentTimer)
    (hnew : if kind = .consent then consentTimer = some v.nextTimer
      else consentTimer = v.consentTimer)
    (hgrace : ∀ entry ∈ graceTimers, entry ∈ v.graceTimers ∨
      entry.2 = v.nextTimer ∧ kind = .grace entry.1) :
    TimerTable { v with
      timers := v.timers ++ [⟨v.nextTimer, due, kind⟩]
      consentTimer := consentTimer
      graceTimers := graceTimers
      nextTimer := v.nextTimer + 1 } where
  distinct := by
    rw [List.map_append]
    refine nodup_concat h.distinct fun hm => ?_
    obtain ⟨timer, hm, heq⟩ := List.mem_map.mp hm
    exact absurd heq (h.fresh timer hm).ne
  fresh := forall_mem_concat (fun timer hm => Nat.lt_succ_of_lt (h.fresh timer hm)) (Nat.lt_succ_self _)
  entry := by
    refine forall_mem_concat (fun timer hm hkind => ?_) fun hkind => ?_
    · rw [hkept timer hm hkind]
      exact h.entry timer hm hkind
    · exact (if_pos hkind).mp hnew
  running id hid := by
    by_cases hkind : kind = .consent
    · rw [if_pos hkind] at hnew
      rw [hnew, Option.some.injEq] at hid
      exact ⟨_, List.mem_append_right _ (List.mem_singleton_self _), hid, hkind⟩
    · rw [if_neg hkind] at hnew
      obtain ⟨timer, hm, hrest⟩ := h.running id (hnew.symm.trans hid)
      exact ⟨timer, List.mem_append_left _ hm, hrest⟩
  grace entry hentry := by
    rcases hgrace entry hentry with hentry | ⟨hid, hkind⟩
    · obtain ⟨timer, hm, hrest⟩ := h.grace entry hentry
      exact ⟨timer, List.mem_append_left _ hm, hrest⟩
    · exact ⟨_, List.mem_append_right _ (List.mem_singleton_self _), hid.symm, hkind⟩

theorem pend (h : TimerTable v) (pending : Option PendingRequest) :
    TimerTable { v with pending := pending } :=
  ⟨h.distinct, h.fresh, h.entry, h.running, h.grace⟩

theorem ask (h : TimerTable v) (request : PendingRequest) (due : Time) :
    TimerTable (v.ask request due) := by
  have hcleared := h.clearConsentTimer
  have hnext : v.clearConsentTimer.nextTimer = v.nextTimer := by
    unfold TimerView.clearConsentTimer
    split <;> rfl
  have hgraces : v.clearConsentTimer.graceTimers = v.graceTimers := by
    unfold TimerView.clearConsentTimer
    split <;> rfl
  have hstart : TimerTable { v.clearConsentTimer with
      timers := v.clearConsentTimer.timers ++ [⟨v.clearConsentTimer.nextTimer, due, .consent⟩]
      consentTimer := some v.clearConsentTimer.nextTimer
      graceTimers := v.graceTimers
      nextTimer := v.clearConsentTimer.nextTimer + 1 } := by
    refine hcleared.start due .consent (fun timer hm hkind => ?_) (by simp) fun entry hentry => ?_
    · exact absurd hkind (h.not_consent timer hm)
    · rw [hgraces]
      exact .inl hentry
  rw [hnext] at hstart
  exact ⟨hstart.distinct, hstart.fresh, hstart.entry, hstart.running, hstart.grace⟩

theorem answer (h : TimerTable v) : TimerTable v.answer := h.clearConsentTimer.pend none

theorem lapse (h : TimerTable v) {timer : Timer} (hm : timer ∈ v.timers)
    (hkind : timer.kind = .consent) : TimerTable (v.lapse timer.id) := by
  have hcleared : TimerTable { v with
      timers := v.timers.filter fun t => t.id ≠ timer.id, consentTimer := none } := by
    refine h.filter _ (fun timer' hm' hkind' hp => ?_) nofun fun entry hentry => ⟨hentry, ?_⟩
    · have hsame := (h.entry timer' hm' hkind').symm.trans (h.entry timer hm hkind)
      exact absurd (Option.some.inj hsame) (by simpa using hp)
    · intro timer' hm' _ hkind'
      have hne : timer'.id ≠ timer.id := by
        intro heq
        rw [h.eq_of_id hm' hm heq, hkind] at hkind'
        cases hkind'
      simpa using hne
  exact hcleared.pend none

theorem release (h : TimerTable v) (userId : UserId) (due : Time) :
    TimerTable (v.release userId due) := by
  refine h.start due (.grace userId) (fun _ _ _ => rfl) (by simp) fun entry hentry => ?_
  rcases List.mem_append.mp hentry with hentry | hentry
  · exact .inl (List.mem_filter.mp hentry).1
  · obtain rfl := List.mem_singleton.mp hentry
    exact .inr ⟨rfl, rfl⟩

/-- Timeouts of grace periods go, with their entries. -/
theorem forget (h : TimerTable v) (p : Timer → Bool) {graceTimers : List (UserId × TimerId)}
    (hp : ∀ timer ∈ v.timers, timer.kind = .consent → p timer = true)
    (hgrace : ∀ entry ∈ graceTimers, entry ∈ v.graceTimers ∧
      ∀ timer ∈ v.timers, timer.id = entry.2 → timer.kind = .grace entry.1 → p timer = true) :
    TimerTable { v with timers := v.timers.filter p, graceTimers := graceTimers } :=
  h.filter p (fun timer hm hkind _ => h.entry timer hm hkind) (fun _ hid => ⟨hid, hp⟩) hgrace

theorem expire (h : TimerTable v) {timer : Timer} (hm : timer ∈ v.timers)
    (hkind : timer.kind = .grace userId) : TimerTable (v.expire timer.id userId) := by
  have hid : ∀ timer' ∈ v.timers, timer'.kind ≠ .grace userId → timer'.id ≠ timer.id := by
    intro timer' hm' hne heq
    rw [h.eq_of_id hm' hm heq] at hne
    exact hne hkind
  refine h.forget _ (fun timer' hm' hkind' => ?_) fun entry hentry => ?_
  · simpa using hid timer' hm' (by rw [hkind']; nofun)
  · obtain ⟨hentry, hother⟩ := List.mem_filter.mp hentry
    refine ⟨hentry, fun timer' hm' _ hkind' => ?_⟩
    have hne : timer'.kind ≠ .grace userId := by
      rw [hkind', Ne, TimerKind.grace.injEq]
      simpa using hother
    simpa using hid timer' hm' hne

theorem resume (h : TimerTable v) (userId : UserId) : TimerTable (v.resume userId) := by
  have hkind : ∀ timer ∈ v.timers, (userId, timer.id) ∈ v.graceTimers →
      timer.kind = .grace userId := by
    intro timer hm hentry
    obtain ⟨timer', hm', hid, hkind'⟩ := h.grace _ hentry
    rw [h.eq_of_id hm hm' hid.symm]
    exact hkind'
  refine h.forget _ (fun timer hm hconsent => ?_) fun entry hentry => ?_
  · have hnot : (userId, timer.id) ∉ v.graceTimers := by
      intro hentry
      rw [hkind timer hm hentry] at hconsent
      cases hconsent
    simpa using hnot
  · obtain ⟨hentry, hother⟩ := List.mem_filter.mp hentry
    refine ⟨hentry, fun timer hm _ hgrace => ?_⟩
    have hnot : (userId, timer.id) ∉ v.graceTimers := by
      intro hentry'
      rw [hkind timer hm hentry', TimerKind.grace.injEq] at hgrace
      simp [hgrace] at hother
    simpa using hnot

theorem destroy (h : TimerTable v) : TimerTable v.destroy := by
  refine h.forget _ (fun timer hm hconsent => ?_) nofun
  have hnot : timer.id ∉ v.graceTimers.map Prod.snd := by
    intro hm'
    obtain ⟨entry, hentry, hid⟩ := List.mem_map.mp hm'
    obtain ⟨timer', hm', hid', hkind'⟩ := h.grace entry hentry
    rw [h.eq_of_id hm hm' (hid.symm.trans hid'.symm), hkind'] at hconsent
    cases hconsent
  simpa using hnot

theorem close (h : TimerTable v) (leaver : Option RoomUserInternal) (due : Time) (drops : Bool) :
    TimerTable (v.close leaver due drops) := by
  obtain ⟨left, hcases, hclose⟩ := v.close_cases leaver due drops
  have hleft : TimerTable left := by
    rcases hcases with ⟨-, rfl⟩ | ⟨user, -, rfl⟩
    · exact h
    · exact h.release user.id due
  rw [hclose]
  cases drops with
  | false => exact hleft
  | true => exact hleft.answer

end TimerTable

section
variable {cfg : Config} {s : Server} {t : ServerTrigger} {g : Step}

theorem timerTable_step (h : TimerTable s.timerView) (hfire : (server cfg).fire s t = some g) :
    TimerTable g.state.timerView := by
  cases fire_timers hfire with
  | kept _ hview => rwa [hview]
  | loaded _ _ hview =>
    rw [hview]
    exact h.pend none
  | asked requester other _ _ hview =>
    rw [hview]
    exact h.ask _ _
  | unheard _ _ _ hview =>
    rw [hview]
    exact h.pend _
  | answered _ _ _ _ _ hview =>
    rw [hview]
    exact h.answer
  | lapsed timer _ hm hkind _ hview =>
    rw [hview]
    exact h.lapse hm hkind
  | expired timer userId destroyed _ hm hkind _ hview =>
    rw [hview]
    have hexpired : TimerTable (s.timerView.expire timer.id userId) := h.expire hm hkind
    cases destroyed with
    | false => exact hexpired
    | true => exact hexpired.destroy
  | closed _ _ _ hview =>
    rw [hview]
    exact h.close _ _ _
  | resumed _ _ existing _ _ hview =>
    rw [hview]
    exact h.resume _
  | destroyed _ hview =>
    rw [hview]
    exact h.destroy

end

end CodeShare
