import CodeShare.Foundations.Services
import Mathlib.Algebra.Order.Ring.Defs
import Mathlib.Tactic.Linarith

/-! # Fixed windows

A fixed window counter allows up to a limit of calls in each of its windows, which do not overlap.
An interval of the length of a window meets at most two of them, wherever they start, so that it has
at most twice the limit of allowed calls.
-/

namespace CodeShare
set_option autoImplicit false

/-- Times of allowed calls, each with the start of its window. -/
structure Windowed {τ : Type} [CommRing τ] [LinearOrder τ] (limit : ℕ) (length : τ)
    (entries : List (τ × τ)) : Prop where
  inside : ∀ e ∈ entries, e.2 ≤ e.1 ∧ e.1 < e.2 + length
  apart : ∀ e ∈ entries, ∀ e' ∈ entries, e.2 < e'.2 → e.2 + length ≤ e'.2
  full : ∀ start, entries.countP (·.2 = start) ≤ limit

namespace Windowed
variable {τ : Type} [CommRing τ] [LinearOrder τ] {limit : ℕ} {length : τ} {entries : List (τ × τ)}

theorem nil : Windowed limit length [] where
  inside := nofun
  apart := nofun
  full _ := Nat.zero_le limit

/-- A further entry, whose window is the last one or starts behind it. -/
theorem concat (h : Windowed limit length entries) {time start : τ} (hstart : start ≤ time)
    (hend : time < start + length) (hlast : ∀ e ∈ entries, e.2 = start ∨ e.2 + length ≤ start)
    (hroom : entries.countP (·.2 = start) < limit) [IsStrictOrderedRing τ] :
    Windowed limit length (entries ++ [(time, start)]) where
  inside e he := by
    rcases List.mem_append.mp he with he | he
    · exact h.inside e he
    · rw [List.mem_singleton.mp he]
      exact ⟨hstart, hend⟩
  apart e he e' he' hlt := by
    rcases List.mem_append.mp he with he | he <;> rcases List.mem_append.mp he' with he' | he'
    · exact h.apart e he e' he' hlt
    · rw [List.mem_singleton.mp he'] at hlt ⊢
      exact (hlast e he).resolve_left hlt.ne
    · rw [List.mem_singleton.mp he] at hlt ⊢
      rcases hlast e' he' with heq | hle
      · exact absurd heq hlt.ne'
      · dsimp only at hlt
        linarith
    · rw [List.mem_singleton.mp he, List.mem_singleton.mp he'] at hlt
      exact absurd hlt (lt_irrefl _)
  full s := by
    rw [List.countP_append, List.countP_singleton]
    by_cases hs : start = s
    · subst hs
      simpa using Nat.succ_le_of_lt hroom
    · simpa [hs] using h.full s

/-- Calls whose windows start within the length of a window belong to the same window. -/
theorem countP_le (h : Windowed limit length entries) (p : τ × τ → Bool)
    (hnear : ∀ e ∈ entries, ∀ e' ∈ entries, p e = true → p e' = true → e'.2 < e.2 + length) :
    entries.countP p ≤ limit := by
  by_cases hnone : ∀ e ∈ entries, ¬p e = true
  · rw [List.countP_eq_zero.mpr hnone]
    exact Nat.zero_le limit
  · push Not at hnone
    obtain ⟨e, he, hp⟩ := hnone
    refine le_trans (List.countP_mono_left fun e' he' hp' => ?_) (h.full e.2)
    apply decide_eq_true
    rcases lt_trichotomy e'.2 e.2 with hlt | heq | hlt
    · exact absurd (hnear e' he' e he hp' hp) (not_lt.mpr (h.apart e' he' e he hlt))
    · exact heq
    · exact absurd (hnear e he e' he' hp hp') (not_lt.mpr (h.apart e he e' he' hlt))

/-- Twice the limit bounds what any interval of the length of a window allows. -/
theorem sliding (h : Windowed limit length entries) [IsStrictOrderedRing τ] (since : τ) :
    (entries.map Prod.fst).countP (fun t => since ≤ t ∧ t < since + length) ≤ 2 * limit := by
  rw [List.countP_map]
  have hsplit := List.countP_eq_countP_filter_add entries
    ((fun t => decide (since ≤ t ∧ t < since + length)) ∘ Prod.fst) (fun e => decide (e.2 ≤ since))
  rw [hsplit, two_mul]
  apply Nat.add_le_add <;> rw [List.countP_filter]
  · apply h.countP_le
    intro e he e' he' hp hp'
    simp only [Function.comp_apply, Bool.and_eq_true, decide_eq_true_eq] at hp hp'
    have := (h.inside e he).2
    linarith [hp.1.1]
  · apply h.countP_le
    intro e he e' he' hp hp'
    simp only [Function.comp_apply, Bool.and_eq_true, Bool.not_eq_true', decide_eq_false_iff_not,
      decide_eq_true_eq, not_le] at hp hp'
    have := (h.inside e' he').1
    linarith [hp.2]

end Windowed

/-! ## Counters -/

section
variable {τ α β σ : Type}

/-- The times of the calls that were allowed. -/
def allowedTimes (time : α → τ) (allowed : β → Bool) (answers : List (α × β)) : List τ :=
  (answers.filter fun a => allowed a.2).map fun a => time a.1

variable {time : α → τ} {allowed : β → Bool} {answers : List (α × β)} {call : α} {answer : β}

@[simp] theorem allowedTimes_nil : allowedTimes time allowed [] = [] := rfl

theorem allowedTimes_concat :
    allowedTimes time allowed (answers ++ [(call, answer)]) =
      allowedTimes time allowed answers ++ if allowed answer then [time call] else [] := by
  unfold allowedTimes
  rw [List.filter_append, List.map_append]
  by_cases h : allowed answer = true <;> simp [h]

variable [CommRing τ] [LinearOrder τ] (limit : ℕ) (length : τ) (handle : σ → α → σ × β)
  (Valid : α → Prop) (time : α → τ) (allowed : β → Bool) (Tracks : σ → List (τ × τ) → Prop)

/-- What a counter does with a call of a window: it allows the call if the window has room, and else
denies it. The window is a later one than those before it, or the last of them. -/
def WindowStep (s : σ) (entries : List (τ × τ)) (call : α) (start : τ) : Prop :=
  start ≤ time call ∧ time call < start + length ∧
    if allowed (handle s call).2 then
      (∀ e ∈ entries, e.2 = start ∨ e.2 + length ≤ start) ∧ entries.countP (·.2 = start) < limit ∧
        Tracks (handle s call).1 (entries ++ [(time call, start)])
    else limit ≤ entries.countP (·.2 = start) ∧ Tracks (handle s call).1 entries

/-- A service that counts calls in windows and whose state keeps track of them. -/
def CountsWindows : Prop :=
  ∀ s entries call, Tracks s entries → Windowed limit length entries →
    (∀ e ∈ entries, e.1 ≤ time call) → Valid call →
      ∃ start, WindowStep limit length handle time allowed Tracks s entries call start

variable {limit length handle Valid time allowed Tracks} {s : σ} {calls : List α}

/-- The entries that a state keeps track of, behind some calls. -/
theorem CountsWindows.entries [IsStrictOrderedRing τ]
    (h : CountsWindows limit length handle Valid time allowed Tracks)
    (hinit : Tracks s []) (hvalid : ∀ call ∈ calls, Valid call)
    (htimes : calls.Pairwise fun a b => time a ≤ time b) :
    ∃ entries, Tracks (Services.after handle s calls) entries ∧ Windowed limit length entries ∧
      entries.map Prod.fst = allowedTimes time allowed (Services.answers handle s calls) ∧
      ∀ e ∈ entries, ∃ call ∈ calls, time call = e.1 := by
  induction calls using List.reverseRecOn with
  | nil => exact ⟨[], hinit, .nil, rfl, nofun⟩
  | append_singleton past call ih =>
    obtain ⟨hpast, -, hlast⟩ := List.pairwise_append.mp htimes
    obtain ⟨entries, htracks, hwindowed, hmap, hcalls⟩ :=
      ih (fun c hc => hvalid c (List.mem_append_left _ hc)) hpast
    have hbefore : ∀ e ∈ entries, e.1 ≤ time call := by
      intro e he
      obtain ⟨c, hc, hec⟩ := hcalls e he
      rw [← hec]
      exact hlast c hc call (List.mem_singleton_self call)
    obtain ⟨start, hstart, hend, hstep⟩ := h _ _ call htracks hwindowed hbefore
      (hvalid call (List.mem_append_right _ (List.mem_singleton_self call)))
    rw [Services.after_concat, Services.answers_concat, allowedTimes_concat, ← hmap]
    split_ifs at hstep ⊢ with hallowed
    · obtain ⟨hapart, hroom, htracks⟩ := hstep
      refine ⟨_, htracks, hwindowed.concat hstart hend hapart hroom, by simp, ?_⟩
      intro e he
      rcases List.mem_append.mp he with he | he
      · obtain ⟨c, hc, hec⟩ := hcalls e he
        exact ⟨c, List.mem_append_left _ hc, hec⟩
      · rw [List.mem_singleton.mp he]
        exact ⟨call, by simp, rfl⟩
    · refine ⟨entries, hstep.2, hwindowed, by simp, fun e he => ?_⟩
      obtain ⟨c, hc, hec⟩ := hcalls e he
      exact ⟨c, List.mem_append_left _ hc, hec⟩

/-- No interval of the length of a window has more than twice the limit of allowed calls. -/
theorem CountsWindows.sliding [IsStrictOrderedRing τ]
    (h : CountsWindows limit length handle Valid time allowed Tracks)
    (hinit : Tracks s []) (hvalid : ∀ call ∈ calls, Valid call)
    (htimes : calls.Pairwise fun a b => time a ≤ time b) (since : τ) :
    (allowedTimes time allowed (Services.answers handle s calls)).countP
      (fun t => since ≤ t ∧ t < since + length) ≤ 2 * limit := by
  obtain ⟨entries, -, hwindowed, hmap, -⟩ := h.entries hinit hvalid htimes
  rw [← hmap]
  exact hwindowed.sliding since

/-- A call is denied only behind as many allowed calls as the limit says, in the length of a window. -/
theorem CountsWindows.denied [IsStrictOrderedRing τ]
    (h : CountsWindows limit length handle Valid time allowed Tracks)
    (hinit : Tracks s []) (hvalid : ∀ call ∈ calls, Valid call)
    (htimes : calls.Pairwise fun a b => time a ≤ time b) :
    AtEachPrefix (fun past a => allowed a.2 = false →
      limit ≤ (allowedTimes time allowed past).countP
        fun t => time a.1 - length < t ∧ t ≤ time a.1) (Services.answers handle s calls) := by
  induction calls using List.reverseRecOn with
  | nil => exact .nil
  | append_singleton past call ih =>
    obtain ⟨hpast, -, hlast⟩ := List.pairwise_append.mp htimes
    have hbefore : ∀ c ∈ past, Valid c := fun c hc => hvalid c (List.mem_append_left _ hc)
    rw [Services.answers_concat, AtEachPrefix.concat_iff]
    refine ⟨ih hbefore hpast, fun hdenied => ?_⟩
    obtain ⟨entries, htracks, hwindowed, hmap, hcalls⟩ := h.entries hinit hbefore hpast
    have hle : ∀ e ∈ entries, e.1 ≤ time call := by
      intro e he
      obtain ⟨c, hc, hec⟩ := hcalls e he
      rw [← hec]
      exact hlast c hc call (List.mem_singleton_self call)
    obtain ⟨start, hstart, hend, hstep⟩ := h _ _ call htracks hwindowed hle
      (hvalid call (List.mem_append_right _ (List.mem_singleton_self call)))
    rw [if_neg (by rw [hdenied]; exact Bool.false_ne_true)] at hstep
    rw [← hmap, List.countP_map]
    refine hstep.1.trans (List.countP_mono_left fun e he hes => ?_)
    have hes : e.2 = start := of_decide_eq_true hes
    have hinside := (hwindowed.inside e he).1
    exact decide_eq_true ⟨by linarith, hle e he⟩

end

end CodeShare
