import CodeShare.Foundations.EarlyChecks
import CodeShare.Foundations.Ledger
import CodeShare.Server.HintSteps

/-! # The hint budget

The limit and the position of a stored hint are read before the awaits of a delivery and written after
them. The log of the charges since the last switch of the problem tells which positions were
delivered; runs whose charges find the limit unreached and the position still current stay within the
budget and deliver no position twice.
-/

namespace CodeShare
open Tasks
set_option autoImplicit false

/-! ## The charges since the last switch -/

structure HintLog where
  problemId : Option ProblemId
  charges : List Charge

def HintLog.note (log : HintLog) : Effect → HintLog
  | .problemSwitched p => ⟨some p, []⟩
  | .hintCharged d stored p => { log with charges := log.charges ++ [⟨d, stored, p⟩] }
  | _ => log

/-- The problem last put into the room, and the charges since. -/
def hintLog (out : List Effect) : HintLog := out.foldl HintLog.note ⟨none, []⟩

theorem foldl_note_notes (log : HintLog) (out : List Effect) :
    out.foldl HintLog.note log = (notes out).foldl HintLog.note log := by
  induction out generalizing log with
  | nil => rfl
  | cons e out ih =>
    rw [notes_cons]
    split_ifs with he
    · exact ih (log.note e)
    · have hsilent : log.note e = log := by
        cases e <;> first | rfl | exact absurd rfl he
      rw [List.foldl_cons, hsilent, ih]

theorem hintLog_append (past out : List Effect) :
    hintLog (past ++ out) = (notes out).foldl HintLog.note (hintLog past) := by
  rw [hintLog, List.foldl_append, foldl_note_notes _ out]
  rfl

/-- Notes that are neither a switch nor a charge leave the log alone. -/
theorem foldl_note_eq {log : HintLog} {es : List Effect} (h : ∀ e ∈ es, log.note e = log) :
    es.foldl HintLog.note log = log := by
  induction es with
  | nil => rfl
  | cons e es ih =>
    obtain ⟨he, hes⟩ := List.forall_mem_cons.mp h
    rw [List.foldl_cons, he]
    exact ih hes

section
variable {cfg : Config} {c c' : ServerConf} {past out : List Effect} {t : ServerTrigger} {g : Step}
  {rest : List Task}

/-- A segment that neither loads nor charges does not show in the log. -/
theorem notes_neutral (h : (server cfg).fire c.shared t = some g) (hload : loads t = none)
    (hcharge : charges cfg t = none) (log : HintLog) : ∀ e ∈ notes g.out, log.note e = log := by
  intro e he
  have hfamily := (fire_within h).out e he
  by_cases hhint : triggerFamily t = .hint
  · cases fire_hint h hhint with
    | charged charge text hcharge' => rw [hcharge] at hcharge'; cases hcharge'
    | started _ _ _ _ _ _ _ hout => rw [hout] at he; cases he
    | approved _ request seen _ _ _ _ hout =>
      rw [hout, List.mem_singleton] at he
      rw [he]
      rfl
    | moved _ _ _ _ _ _ _ _ _ _ hout =>
      obtain ⟨prompt, rfl⟩ := hout e he
      rfl
    | ended _ _ _ _ hout => rw [hout] at he; cases he
  · by_cases hproblem : triggerFamily t = .problem
    · have hother := (fire_unswitched h hproblem hload).out e he
      rw [hproblem] at hfamily
      cases e <;> first | rfl | exact absurd rfl (hother _) | cases hfamily
    · cases e <;>
        first
        | rfl
        | exact absurd (Option.some.inj hfamily).symm hhint
        | exact absurd (Option.some.inj hfamily).symm hproblem

theorem hintLog_kept (hby : (server cfg).StepBy c c' out t g rest) (hload : loads t = none)
    (hcharge : charges cfg t = none) : hintLog (past ++ out) = hintLog past := by
  rw [hintLog_append, hby.out]
  exact foldl_note_eq (notes_neutral hby.fire hload hcharge _)

theorem hintLog_charged {charge : Charge} (hby : (server cfg).StepBy c c' out t g rest)
    (hcharge : charges cfg t = some charge) :
    hintLog (past ++ out) =
      { hintLog past with charges := (hintLog past).charges ++ [charge] } := by
  rw [hintLog_append, hby.out, (fire_charged hby.fire hcharge).2.2]
  rfl

theorem hintLog_switched {p : ProblemId} (hby : (server cfg).StepBy c c' out t g rest)
    (hload : loads t = some p) : hintLog (past ++ out) = ⟨some p, []⟩ := by
  rw [hintLog_append, hby.out, (fire_switched hby.fire hload).out]
  rfl

theorem loads_eq_none_of_charges {charge : Charge} (hcharge : charges cfg t = some charge) :
    loads t = none := by
  by_contra hload
  obtain ⟨p, hload⟩ := Option.ne_none_iff_exists'.mp hload
  have hfamily := triggerFamily_of_loads hload
  rw [triggerFamily_of_charges hcharge] at hfamily
  cases hfamily

/-! ## What the log says about the room -/

structure LogInvariant (c : ServerConf) (out : List Effect) : Prop where
  problemId : (hintLog out).problemId = c.shared.room.problemId
  hintsUsed : (hintLog out).charges.length = c.shared.room.hintsUsed
  hintHistory : (hintLog out).charges.length = c.shared.room.hintHistory.length

theorem initial_log (cfg : Config) (mode : RoomMode) (now : Time) :
    LogInvariant (initial cfg mode now) [] :=
  ⟨rfl, rfl, rfl⟩

theorem log_step (h : LogInvariant c past) (hby : (server cfg).StepBy c c' out t g rest) :
    LogInvariant c' (past ++ out) := by
  cases hload : loads t with
  | some p =>
    obtain ⟨hintLimit, importsUsed, hroom⟩ := (fire_switched hby.fire hload).room
    constructor <;> rw [hintLog_switched hby hload, hby.shared, hroom] <;> rfl
  | none =>
    have hproblem := fire_problemId hby.fire hload
    cases hcharge : charges cfg t with
    | some charge =>
      obtain ⟨text, hview⟩ := (fire_charged hby.fire hcharge).1
      rw [Server.hintView, Prod.mk.injEq] at hview
      refine ⟨?_, ?_, ?_⟩ <;> rw [hintLog_charged hby hcharge, hby.shared]
      · rw [hproblem]
        exact h.problemId
      · rw [hview.1, List.length_append, h.hintsUsed]
        rfl
      · rw [hview.2, List.length_append, List.length_append, h.hintHistory]
        rfl
    | none =>
      have hview := fire_hintView hby.fire hload hcharge
      rw [Server.hintView, Server.hintView, Prod.mk.injEq] at hview
      refine ⟨?_, ?_, ?_⟩ <;> rw [hintLog_kept hby hload hcharge, hby.shared]
      · rw [hproblem]
        exact h.problemId
      · rw [hview.1]
        exact h.hintsUsed
      · rw [hview.2]
        exact h.hintHistory

/-! ## The budget -/

/-- A hint is charged only while the limit is not reached, and a stored one only if no charge came
between reading its position and now. -/
def ChargedInOrder (cfg : Config) (c : ServerConf) (t : ServerTrigger) : Prop :=
  ∀ charge ∈ charges cfg t, c.shared.room.hintsUsed < c.shared.room.hintLimit ∧
    (charge.stored = true → charge.delivery.position = c.shared.room.hintsUsed)

instance (cfg : Config) (c : ServerConf) (t : ServerTrigger) : Decidable (ChargedInOrder cfg c t) := by
  unfold ChargedInOrder
  infer_instance

/-- The stored hints delivered since the last switch, as positions in the hint list of a problem. -/
def storedHints (out : List Effect) : List (Option ProblemId × ℕ) :=
  ((hintLog out).charges.filter (·.stored)).map fun charge =>
    (charge.problemId, charge.delivery.position)

structure BudgetInvariant (c : ServerConf) (out : List Effect) : Prop where
  limit : c.shared.room.hintsUsed ≤ c.shared.room.hintLimit
  below : ∀ hint ∈ storedHints out, hint.2 < c.shared.room.hintsUsed
  distinct : (storedHints out).Nodup

theorem initial_budget (cfg : Config) (mode : RoomMode) (now : Time) :
    BudgetInvariant (initial cfg mode now) [] :=
  ⟨Nat.le_refl _, nofun, List.nodup_nil⟩

theorem budget_charged {charge : Charge} (h : BudgetInvariant c past)
    (hby : (server cfg).StepBy c c' out t g rest) (horder : ChargedInOrder cfg c t)
    (hcharge : charges cfg t = some charge) : BudgetInvariant c' (past ++ out) := by
  obtain ⟨hlimit, hposition⟩ := horder charge hcharge
  obtain ⟨text, hview⟩ := (fire_charged hby.fire hcharge).1
  have hused : c'.shared.room.hintsUsed = c.shared.room.hintsUsed + 1 := by
    rw [hby.shared]
    exact congrArg Prod.fst hview
  have hlimit' : c'.shared.room.hintLimit = c.shared.room.hintLimit := by
    rw [hby.shared]
    exact fire_hintLimit hby.fire (loads_eq_none_of_charges hcharge)
  have hlog : hintLog (past ++ out) = _ := hintLog_charged hby hcharge
  have hstored : storedHints (past ++ out) = storedHints past ++
      if charge.stored then [(charge.problemId, charge.delivery.position)] else [] := by
    unfold storedHints
    rw [hlog, List.filter_append, List.map_append]
    cases hs : charge.stored <;> simp [hs]
  rw [← hlimit'] at hlimit
  cases hs : charge.stored with
  | false =>
    rw [hs, if_neg Bool.false_ne_true, List.append_nil] at hstored
    refine ⟨by omega, ?_, hstored ▸ h.distinct⟩
    intro hint hm
    have hbelow := h.below hint (hstored ▸ hm)
    omega
  | true =>
    rw [hs, if_pos rfl] at hstored
    have hposition := hposition hs
    refine ⟨by omega, ?_, ?_⟩
    · intro hint hm
      rw [hstored, List.mem_append, List.mem_singleton] at hm
      rcases hm with hm | rfl
      · have hbelow := h.below hint hm
        omega
      · dsimp only
        omega
    · rw [hstored]
      refine nodup_concat h.distinct fun hm => ?_
      have hbelow := h.below _ hm
      dsimp only at hbelow
      omega

theorem budget_step (h : BudgetInvariant c past) (horder : ChargedInOrder cfg c t)
    (hby : (server cfg).StepBy c c' out t g rest) : BudgetInvariant c' (past ++ out) := by
  cases hload : loads t with
  | some p =>
    obtain ⟨hintLimit, importsUsed, hroom⟩ := (fire_switched hby.fire hload).room
    have hnone : storedHints (past ++ out) = [] := by
      rw [storedHints, hintLog_switched hby hload]
      rfl
    rw [← hby.shared] at hroom
    refine ⟨?_, ?_, ?_⟩
    · rw [hroom]
      exact Nat.zero_le _
    · rw [hnone]
      exact nofun
    · rw [hnone]
      exact List.nodup_nil
  | none =>
    cases hcharge : charges cfg t with
    | some charge => exact budget_charged h hby horder hcharge
    | none =>
      have hkept : storedHints (past ++ out) = storedHints past := by
        unfold storedHints
        rw [hintLog_kept hby hload hcharge]
      have hview := congrArg Prod.fst (fire_hintView hby.fire hload hcharge)
      rw [← hby.shared] at hview
      have hused : c'.shared.room.hintsUsed = c.shared.room.hintsUsed := hview
      have hlimit := fire_hintLimit hby.fire hload
      rw [← hby.shared] at hlimit
      refine ⟨?_, ?_, hkept ▸ h.distinct⟩
      · rw [hused, hlimit]
        exact h.limit
      · rw [hkept, hused]
        exact h.below

end

/-! ## Runs -/

theorem log_run {cfg : Config} {mode : RoomMode} {now : Time} {acts : List ServerAct}
    {c : ServerConf} {out : List Effect} (hreach : Reaches cfg mode now acts c out) :
    LogInvariant c out :=
  Machine.run_preserves_always (fun _ _ _ _ _ _ _ h hby => log_step h hby)
    (initial_log cfg mode now) hreach

/-- **Hint budget**, in runs whose charges are all in order: no more hints are used than the problem
allows, and since the last switch no stored hint was delivered twice. -/
theorem hint_budget {cfg : Config} {mode : RoomMode} {now : Time} {acts : List ServerAct}
    {c : ServerConf} {out : List Effect} (hmeets : Meeting cfg (ChargedInOrder cfg) mode now acts)
    (hreach : Reaches cfg mode now acts c out) :
    c.shared.room.hintsUsed ≤ c.shared.room.hintLimit ∧ (storedHints out).Nodup := by
  have h : BudgetInvariant c out := Machine.run_preserves
    (fun _ _ _ _ _ _ _ h horder hby => budget_step h horder hby) (initial_budget cfg mode now)
    hmeets hreach
  exact ⟨h.limit, h.distinct⟩

/-- The first stored hint of a problem. -/
def exampleHint : Outcome := .hint (some ⟨7, js "Use a map.", 0⟩)

/-- Alone in the room, a user asks for the only hint of an easy problem. -/
def exampleHintRun : List ServerAct :=
  exampleJoin 0 .go ++ exampleSelect 0 7 ++
    [.event (.receive 0 .hintRequest), .resume 0 .go, .resume 0 exampleHint]

theorem hint_budget_example : ∃ c out,
    Reaches plainConfig .collaboration 10000 exampleHintRun c out ∧
    storedHints out = [(some 7, 0)] ∧ c.shared.room.hintsUsed = 1 ∧
    (c.shared.room.hintsUsed ≤ c.shared.room.hintLimit ∧ (storedHints out).Nodup) := by
  obtain ⟨c, out, hreach, hstored, hused⟩ : ∃ c out,
      Reaches plainConfig .collaboration 10000 exampleHintRun c out ∧
      storedHints out = [(some 7, 0)] ∧ c.shared.room.hintsUsed = 1 :=
    ⟨_, _, rfl, rfl, rfl⟩
  have hmeets : Meeting plainConfig (ChargedInOrder plainConfig)
      .collaboration 10000 exampleHintRun := by
    unfold Meeting
    decide
  exact ⟨c, out, hreach, hstored, hused, hint_budget hmeets hreach⟩

/-- A second request, six seconds later, while the look-up of the first is still under way: the only
hint of the problem is delivered twice. -/
theorem hint_delivered_twice : ∃ c out,
    Reaches plainConfig .collaboration 10000
      (exampleJoin 0 .go ++ exampleSelect 0 7 ++
        [.event (.receive 0 .hintRequest), .resume 0 .go, .event (.tick 6000),
          .event (.receive 0 .hintRequest), .resume 1 .go, .resume 0 exampleHint,
          .resume 0 exampleHint]) c out ∧
    c.shared.room.hintsUsed = 2 ∧ c.shared.room.hintLimit = 1 ∧
    storedHints out = [(some 7, 0), (some 7, 0)] ∧ ¬(storedHints out).Nodup := by
  refine ⟨_, _, rfl, rfl, rfl, rfl, ?_⟩
  decide

/-! ## Deliveries apart -/

/-- A hint is charged only while no other delivery is under way, and a problem loaded only while none is.
A request is approved, which is not checked again, only while the limit is not reached. -/
structure DeliveriesApart (cfg : Config) (c : ServerConf) (t : ServerTrigger) : Prop where
  charge : charges cfg t ≠ none → c.pool.countP Task.delivers ≤ 1
  load : loads t ≠ none → c.pool.countP Task.delivers = 0
  approve : approves c.shared t ≠ none → c.shared.room.hintsUsed < c.shared.room.hintLimit

/-- What a delivery was checked for: there is a hint left, and it is the one at its position. -/
def Task.HintLeft (s : Server) (task : Task) : Prop :=
  task.delivers = true → s.room.hintsUsed < s.room.hintLimit ∧
    ∀ d, task = .hintStored d → d.position = s.room.hintsUsed

section
variable {cfg : Config} {s : Server} {t : ServerTrigger} {g : Step} {task : Task}

theorem delivers_of_charges (h : charges cfg t ≠ none) : t.taken.countP Task.delivers = 1 := by
  unfold charges at h
  split at h
  · rfl
  · rfl
  · exact absurd rfl h

theorem hintLeft_kept (h : (server cfg).fire s t = some g) (hload : loads t = none)
    (hcharge : charges cfg t = none) (hleft : task.HintLeft s) : task.HintLeft g.state := by
  have hused : g.state.room.hintsUsed = s.room.hintsUsed := congrArg Prod.fst (fire_hintView h hload hcharge)
  unfold Task.HintLeft
  rw [hused, fire_hintLimit h hload]
  exact hleft

/-- A delivery is left behind by the check of its request, by an approval or by itself. -/
theorem hintLeft_next (h : (server cfg).fire s t = some g)
    (happrove : approves s t ≠ none → s.room.hintsUsed < s.room.hintLimit)
    (hrelies : ∀ task ∈ t.taken, task.HintLeft s) (hm : task ∈ g.next) : task.HintLeft s := by
  intro hdelivers
  have hfamily : triggerFamily t = .hint := by
    rw [← (fire_within h).next task hm]
    cases task <;> first | rfl | cases hdelivers
  cases fire_hint h hfamily with
  | started socket _ _ hchecked _ hnext =>
    obtain rfl : task = _ := List.mem_singleton.mp (hnext ▸ hm)
    refine ⟨(hintRequestRefusal_checked hchecked).1, ?_⟩
    rintro d ⟨⟩
    rfl
  | approved _ _ _ _ happroved hnext =>
    obtain rfl : task = _ := List.mem_singleton.mp (hnext ▸ hm)
    refine ⟨happrove (by rw [happroved]; nofun), ?_⟩
    rintro d ⟨⟩
    rfl
  | moved task' task'' _ _ htaken hdelivers' hnext hstored =>
    obtain rfl : task = task'' := List.mem_singleton.mp (hnext ▸ hm)
    have hleft := hrelies task' (htaken ▸ List.mem_singleton_self _) hdelivers'
    exact ⟨hleft.1, fun d hd => absurd hd (hstored d)⟩
  | ended _ _ hnext => rw [hnext] at hm; cases hm
  | charged _ _ _ _ hnext => rw [hnext] at hm; cases hm

theorem next_of_charges (h : (server cfg).fire s t = some g) (hcharge : charges cfg t ≠ none) : g.next = [] := by
  obtain ⟨charge, hcharge⟩ := Option.ne_none_iff_exists'.mp hcharge
  exact (fire_charged h hcharge).2.1

end

/-- Deliveries that do not overlap charge in order. -/
theorem chargedInOrder_of_apart {cfg : Config} {mode : RoomMode} {now : Time} {acts : List ServerAct}
    {c : ServerConf} {out : List Effect} (happart : Meeting cfg (DeliveriesApart cfg) mode now acts)
    (hreach : Reaches cfg mode now acts c out) : Meeting cfg (ChargedInOrder cfg) mode now acts := by
  refine Machine.meets_of_relied (fun s task => task.HintLeft s) ?_ ?_ ?_ happart hreach nofun
  · intro c c' out t g rest hP hby task hm hleft
    cases hload : loads t with
    | some p =>
      intro hdelivers
      have hnone := List.countP_eq_zero.mp (hP.load (hload ▸ nofun)) task (hby.mem_of_rest hm)
      exact absurd hdelivers hnone
    | none =>
      cases hcharge : charges cfg t with
      | none => exact hintLeft_kept hby.fire hload hcharge hleft
      | some charge =>
        have hcharges : charges cfg t ≠ none := hcharge ▸ nofun
        have hother : task.delivers = false :=
          hby.alone ((hP.charge hcharges).trans (delivers_of_charges hcharges).ge) task hm
        exact fun hdelivers => absurd hdelivers (Bool.eq_false_iff.mp hother)
  · intro c c' out t g rest hP hby hrelies task hm
    have hleft := hintLeft_next hby.fire hP.approve hrelies hm
    cases hload : loads t with
    | some p => rw [(fire_switched hby.fire hload).next] at hm; cases hm
    | none =>
      cases hcharge : charges cfg t with
      | none => exact hintLeft_kept hby.fire hload hcharge hleft
      | some charge => rw [next_of_charges hby.fire (hcharge ▸ nofun)] at hm; cases hm
  · intro c c' out t g rest hP hby hrelied charge hcharge
    unfold charges at hcharge
    split at hcharge
    · cases hcharge
      obtain ⟨hlimit, hposition⟩ := hrelied _ (hby.mem_of_taken (List.mem_singleton_self _)) rfl
      exact ⟨hlimit, fun _ => hposition _ rfl⟩
    · have hleft := hrelied _ (hby.mem_of_taken (List.mem_singleton_self _)) rfl
      split at hcharge
      · cases hcharge
        exact ⟨hleft.1, nofun⟩
      · cases hcharge
    · cases hcharge

end CodeShare
