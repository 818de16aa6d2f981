import Mathlib.Data.List.Basic
import Mathlib.Data.List.Count
import Mathlib.Data.List.Induction

/-! # Services

A service answers calls one after the other and keeps a state. Properties of its runs are properties of
every call behind the calls before it.
-/

namespace CodeShare
set_option autoImplicit false

/-- A property of every element of a list, given the elements before it. -/
def AtEachPrefix {α : Type} (P : List α → α → Prop) (calls : List α) : Prop :=
  ∀ past call later, calls = past ++ call :: later → P past call

namespace Services
variable {α β σ : Type} (handle : σ → α → σ × β)

/-- The state behind some calls. -/
def after (s : σ) (calls : List α) : σ := calls.foldl (fun s call => (handle s call).1) s

/-- The calls with their answers. -/
def answers (s : σ) : List α → List (α × β)
  | [] => []
  | call :: calls => (call, (handle s call).2) :: answers (handle s call).1 calls

variable {handle} {s : σ} {past : List α} {call : α}

@[simp] theorem after_nil : after handle s [] = s := rfl

@[simp] theorem after_concat :
    after handle s (past ++ [call]) = (handle (after handle s past) call).1 := by
  simp [after]

@[simp] theorem answers_nil : answers handle s [] = [] := rfl

@[simp] theorem answers_concat :
    answers handle s (past ++ [call]) =
      answers handle s past ++ [(call, (handle (after handle s past) call).2)] := by
  induction past generalizing s with
  | nil => rfl
  | cons first past ih =>
    rw [List.cons_append, answers, ih]
    rfl

/-- Calls that are not selected do not change the answers to the others, if they leave the state as it
is for these, and if these keep the states alike. -/
theorem answers_filter {selected : α → Bool} (Alike : σ → σ → Prop) {calls : List α}
    (hsame : ∀ s s' call, selected call = true → Alike s s' →
      (handle s call).2 = (handle s' call).2 ∧ Alike (handle s call).1 (handle s' call).1)
    (hother : ∀ s s', ∀ call ∈ calls, selected call = false → Alike s s' → Alike (handle s call).1 s')
    {s' : σ} (h : Alike s s') :
    (answers handle s calls).filter (fun a => selected a.1) =
      answers handle s' (calls.filter selected) := by
  induction calls generalizing s s' with
  | nil => rfl
  | cons call calls ih =>
    have hrest : ∀ s s', ∀ call ∈ calls, selected call = false → Alike s s' →
        Alike (handle s call).1 s' :=
      fun s s' call hcall => hother s s' call (List.mem_cons_of_mem _ hcall)
    cases hcall : selected call with
    | true =>
      obtain ⟨hanswer, hnext⟩ := hsame s s' call hcall h
      simp only [answers, List.filter_cons, hcall, if_true]
      rw [hanswer, ih hrest hnext]
    | false =>
      simp only [answers, List.filter_cons, hcall, Bool.false_eq_true, if_false]
      exact ih hrest (hother s s' call List.mem_cons_self hcall h)

theorem map_fst_answers (calls : List α) : (answers handle s calls).map Prod.fst = calls := by
  induction calls generalizing s with
  | nil => rfl
  | cons call calls ih => rw [answers, List.map_cons, ih]

end Services

/-! ## Each prefix -/

namespace AtEachPrefix
variable {α : Type} {P Q : List α → α → Prop} {past calls : List α} {call : α}

theorem nil : AtEachPrefix P [] := by
  intro past call later h
  cases past <;> cases h

theorem of_forall_mem {p : α → Prop} (h : ∀ call ∈ calls, p call) :
    AtEachPrefix (fun _ call => p call) calls := by
  rintro past call later rfl
  exact h call (by simp)

theorem concat_iff :
    AtEachPrefix P (past ++ [call]) ↔ AtEachPrefix P past ∧ P past call := by
  constructor
  · intro h
    refine ⟨fun before first later hsplit => h before first (later ++ [call]) ?_, h past call [] rfl⟩
    rw [hsplit, List.append_assoc, List.cons_append]
  · rintro ⟨hpast, hcall⟩ before first later hsplit
    rcases List.eq_nil_or_concat later with rfl | ⟨later, last, rfl⟩
    · obtain ⟨rfl, hfirst⟩ := List.append_inj' hsplit rfl
      obtain rfl := (List.cons.inj hfirst).1
      exact hcall
    · have hassoc : before ++ first :: (later ++ [last]) = before ++ first :: later ++ [last] := by
        simp
      rw [List.concat_eq_append, hassoc] at hsplit
      exact hpast before first later (List.append_inj' hsplit rfl).1

/-- What holds of every prefix of the selected calls. -/
theorem of_filter {selected : α → Bool} (h : AtEachPrefix P (calls.filter selected)) :
    AtEachPrefix (fun past call => selected call = true → P (past.filter selected) call) calls := by
  rintro past call later rfl hcall
  refine h _ call (later.filter selected) ?_
  rw [List.filter_append, List.filter_cons_of_pos hcall]

/-- What holds of every prefix of the calls holds at every prefix of their beginning. -/
theorem of_append {later : List α} (h : AtEachPrefix P (past ++ call :: later)) :
    AtEachPrefix P past := by
  intro before first rest hsplit
  refine h before first (rest ++ call :: later) ?_
  rw [hsplit, List.append_assoc, List.cons_append]

/-- An invariant that every call meeting the condition keeps. -/
theorem invariant {I : List α → Prop} (hinit : I [])
    (hkeep : ∀ past call, I past → P past call → I (past ++ [call])) (h : AtEachPrefix P calls) :
    I calls := by
  induction calls using List.reverseRecOn with
  | nil => exact hinit
  | append_singleton past call ih =>
    obtain ⟨hpast, hcall⟩ := concat_iff.mp h
    exact hkeep past call (ih hpast) hcall

/-- Two properties that agree under an invariant which the first of them keeps hold of the same calls. -/
theorem congr_of_invariant {I : List α → Prop} {R : List α → α → Prop} (hinit : I [])
    (hkeep : ∀ past call, I past → R past call → P past call → I (past ++ [call]))
    (hiff : ∀ past call, I past → (P past call ↔ Q past call)) (hcalls : AtEachPrefix R calls) :
    AtEachPrefix P calls ↔ AtEachPrefix Q calls := by
  have hstep (past : List α) (hR : AtEachPrefix R past) (hP : AtEachPrefix P past) : I past := by
    induction past using List.reverseRecOn with
    | nil => exact hinit
    | append_singleton past call ih =>
      obtain ⟨hR, hcall⟩ := concat_iff.mp hR
      obtain ⟨hP, hcall'⟩ := concat_iff.mp hP
      exact hkeep past call (ih hR hP) hcall hcall'
  induction calls using List.reverseRecOn with
  | nil => exact iff_of_true nil nil
  | append_singleton past call ih =>
    obtain ⟨hR, -⟩ := concat_iff.mp hcalls
    have hpast : AtEachPrefix P past ↔ AtEachPrefix Q past := ih hR
    rw [concat_iff, concat_iff, ← hpast]
    exact and_congr_right fun hP => hiff past call (hstep past hR hP)

end AtEachPrefix

end CodeShare
