import CodeShare.Foundations.Ledger
import CodeShare.Server.ExecutionSteps

/-! # The execution lock and the room's budget

In every reachable state `executionInProgress` is held by exactly one handler or by none, and
`submissionsUsed` counts the handlers that have finished and had reserved the global quota. The
handlers in the pool are the open accounts of a ledger; a reservation charges one, and the `finally`
block closes it.
-/

namespace CodeShare
open Tasks
set_option autoImplicit false

/-! ## Finished and reserved handlers -/

def Effect.finishedHandler : Effect → Option ℕ
  | executionFinished handler => some handler
  | _ => none

def Effect.reservedHandler : Effect → Option ℕ
  | executionReserved handler => some handler
  | _ => none

/-- The handlers that released the lock, in order. -/
def finishedHandlers (out : List Effect) : List ℕ := out.filterMap Effect.finishedHandler

/-- The handlers whose quota reservation succeeded, in order. -/
def reservedHandlers (out : List Effect) : List ℕ := out.filterMap Effect.reservedHandler

@[simp] theorem finishedHandlers_append (out out' : List Effect) :
    finishedHandlers (out ++ out') = finishedHandlers out ++ finishedHandlers out' :=
  List.filterMap_append

@[simp] theorem reservedHandlers_append (out out' : List Effect) :
    reservedHandlers (out ++ out') = reservedHandlers out ++ reservedHandlers out' :=
  List.filterMap_append

theorem finishedHandlers_notes (out : List Effect) :
    finishedHandlers out = finishedHandlers (notes out) :=
  filterMap_notes (fun e he => by cases e <;> first | rfl | cases he) out

theorem reservedHandlers_notes (out : List Effect) :
    reservedHandlers out = reservedHandlers (notes out) :=
  filterMap_notes (fun e he => by cases e <;> first | rfl | cases he) out

theorem finishedHandlers_apart {out : List Effect}
    (h : ∀ e ∈ notes out, e.family ≠ some .execution) : finishedHandlers out = [] :=
  filterMap_eq_nil_of_notes (fun e he => by cases e <;> first | rfl | exact absurd rfl he) h

theorem reservedHandlers_apart {out : List Effect}
    (h : ∀ e ∈ notes out, e.family ≠ some .execution) : reservedHandlers out = [] :=
  filterMap_eq_nil_of_notes (fun e he => by cases e <;> first | rfl | exact absurd rfl he) h

/-! ## The accounts of the pool -/

/-- A handler, and whether it has reserved. -/
def Task.account (t : Task) : Option (ℕ × Bool) := t.execution.map fun x => (x.handler, t.reserved)

theorem Task.account_eq {t : Task} {x : Execution} (h : t.execution = some x) :
    t.account = some (x.handler, t.reserved) := by
  rw [account, h, Option.map_some]

theorem Task.account_none {t : Task} (h : t.execution = none) : t.account = none := by
  rw [account, h, Option.map_none]

/-! ## The lock on its own -/

/-- What holds of the fields around the lock, the open accounts, and the handlers that finished and
that reserved. -/
structure LockFacts (v : LockView) (accounts : List (ℕ × Bool)) (finished reserved : List ℕ) :
    Prop where
  /-- whoever holds the lock still has a submission left -/
  budget : v.executionInProgress = true → v.submissionsUsed < v.submissionLimit
  limit : v.submissionsUsed ≤ v.submissionLimit
  ledger : Ledger (· < v.nextHandler) accounts finished reserved
  total : v.submissionsUsed = Ledger.total finished reserved

namespace LockFacts
variable {v : LockView} {accounts accounts' : List (ℕ × Bool)} {finished reserved : List ℕ}
  {handler : ℕ} {flag : Bool}

theorem subperm (h : LockFacts v accounts finished reserved) (hsub : accounts'.Subperm accounts) :
    LockFacts v accounts' finished reserved :=
  { h with ledger := h.ledger.subperm hsub }

theorem opened (h : LockFacts v accounts finished reserved) :
    LockFacts { v with nextHandler := v.nextHandler + 1 } ((v.nextHandler, false) :: accounts)
      finished reserved :=
  { h with
    ledger := h.ledger.opened (Nat.lt_irrefl _) (Nat.lt_succ_self _) fun _ => Nat.lt_succ_of_lt }

theorem locked (h : LockFacts v accounts finished reserved)
    (hbudget : v.submissionsUsed < v.submissionLimit) :
    LockFacts { v with executionInProgress := true } accounts finished reserved :=
  { h with budget := fun _ => hbudget }

theorem reserve (h : LockFacts v ((handler, false) :: accounts) finished reserved) :
    LockFacts v ((handler, true) :: accounts) finished (reserved ++ [handler]) :=
  { h with
    ledger := h.ledger.charge
    total := h.total.trans h.ledger.total_charge.symm }

/-- At most one submission is counted, and the holder of the lock had one left. -/
theorem finish (h : LockFacts v ((handler, flag) :: accounts) finished reserved)
    (hlocked : v.executionInProgress = true) :
    LockFacts { v with
      executionInProgress := false
      submissionsUsed := v.submissionsUsed + flag.toNat } accounts (finished ++ [handler])
      reserved where
  budget := nofun
  limit := by
    have hleft := h.budget hlocked
    have hone := flag.toNat_le
    exact (Nat.add_le_add_left hone _).trans hleft
  ledger := h.ledger.close
  total := by rw [h.ledger.total_close, h.total]

end LockFacts

/-- The lock has an owner when it is set, and the facts hold of the handlers in the pool. -/
structure LockInvariant (c : ServerConf) (out : List Effect) : Prop where
  owned : Machine.Owned (fun s : Server => s.room.executionInProgress) Task.holdsLock c
  facts : LockFacts c.shared.lockView (c.pool.filterMap Task.account) (finishedHandlers out)
    (reservedHandlers out)

theorem initial_lock (cfg : Config) (mode : RoomMode) (now : Time) :
    LockInvariant (initial cfg mode now) [] where
  owned := rfl
  facts := ⟨nofun, Nat.zero_le _, .empty, rfl⟩

/-! ## One step -/

section
variable {cfg : Config} {c c' : ServerConf} {past out : List Effect} {t : ServerTrigger} {g : Step}
  {rest : List Task} {task : Task} {account : ℕ × Bool}

/-- The accounts that are not taken. -/
theorem rest_accounts (hby : (server cfg).StepBy c c' out t g rest) :
    (rest.filterMap Task.account).Subperm (c.pool.filterMap Task.account) :=
  (List.sublist_append_right _ _).subperm.trans (hby.filterMap_before Task.account).subperm

/-- The account of the task that ran comes first. -/
theorem taken_account (hby : (server cfg).StepBy c c' out t g rest) (ht : t.taken = [task])
    (ha : task.account = some account) :
    (account :: rest.filterMap Task.account).Perm (c.pool.filterMap Task.account) := by
  have hperm := hby.filterMap_before Task.account
  rw [ht, List.filterMap_cons, ha] at hperm
  exact hperm

/-- The account of the one new task may come first. -/
theorem next_account (hby : (server cfg).StepBy c c' out t g rest) (hnext : g.next = [task])
    (ha : task.account = some account) :
    (c'.pool.filterMap Task.account).Perm (account :: rest.filterMap Task.account) := by
  rw [hby.filterMap_after Task.account, hnext, List.filterMap_cons, ha]
  exact List.perm_append_singleton _ _

theorem no_next_account (hby : (server cfg).StepBy c c' out t g rest)
    (hnext : ∀ task ∈ g.next, task.execution = none) :
    c'.pool.filterMap Task.account = rest.filterMap Task.account := by
  have hnone : g.next.filterMap Task.account = [] :=
    List.filterMap_eq_nil_iff.mpr fun task hm => Task.account_none (hnext task hm)
  rw [hby.filterMap_after Task.account, hnone, List.append_nil]

/-- How many of one task hold the lock. -/
theorem countP_holdsLock (task : Task) : [task].countP Task.holdsLock = task.holdsLock.toNat := by
  rw [List.countP_singleton]
  cases task.holdsLock <;> rfl

theorem countP_holdsLock_of_not_execution {tasks : List Task}
    (h : ∀ task ∈ tasks, task.execution = none) : tasks.countP Task.holdsLock = 0 := by
  rw [List.countP_eq_zero]
  exact fun task hm hholds => Task.execution_of_holdsLock hholds (h task hm)

/-- The flag is set when a handler begins to hold the lock, and reset when it ends. -/
theorem lock_moves_with_holders (h : LockInvariant c past)
    (hby : (server cfg).StepBy c c' out t g rest) :
    g.next.countP Task.holdsLock + c.shared.room.executionInProgress.toNat =
      t.taken.countP Task.holdsLock + g.state.room.executionInProgress.toNat := by
  cases fire_lock hby.fire with
  | apart htaken hnext hlock hout =>
    have hflag : g.state.room.executionInProgress = c.shared.room.executionInProgress :=
      congrArg LockView.executionInProgress hlock
    have hfree : t.taken.countP Task.holdsLock = 0 := by
      rw [List.countP_eq_zero]
      exact fun task hm => by simp [htaken task hm]
    rw [hfree, countP_holdsLock_of_not_execution hnext, hflag]
  | opened x htaken hx hnext hlock hout =>
    have hflag : g.state.room.executionInProgress = c.shared.room.executionInProgress :=
      congrArg LockView.executionInProgress hlock
    rw [countP_holdsLock_of_not_execution htaken, hnext, countP_holdsLock, hflag]
    rfl
  | locked x task htaken hcan hnext hx hholds hfree hloaded hlock hout =>
    have hflag : g.state.room.executionInProgress = true :=
      congrArg LockView.executionInProgress hlock
    rw [htaken, hnext, countP_holdsLock, countP_holdsLock, hholds, hflag,
      (Room.canExecute_eq_none hcan).2.1]
    rfl
  | moved task task' htaken hnext hx hholds hholds' hsame hloaded hstate hout =>
    rw [htaken, hnext, countP_holdsLock, countP_holdsLock, hholds, hholds', hstate]
  | reserved x loaded nonce htaken hnext hstate hout =>
    rw [htaken, hnext, countP_holdsLock, countP_holdsLock, hstate]
    rfl
  | finished x submissionReserved failure htaken hnext hlock hout =>
    have hflag : g.state.room.executionInProgress = false :=
      congrArg LockView.executionInProgress hlock
    have hmem : Task.executionSettling x submissionReserved failure ∈ c.pool :=
      hby.mem_of_taken (by simp [htaken])
    rw [htaken, hnext, countP_holdsLock, hflag, h.owned.of_mem hmem rfl]
    rfl

/-- The lock invariant over one segment. -/
theorem lock_step (h : LockInvariant c past) (hby : (server cfg).StepBy c c' out t g rest) :
    LockInvariant c' (past ++ out) := by
  have hfacts := h.facts
  have hrest := hfacts.subperm (rest_accounts hby)
  have hfinished : finishedHandlers out = finishedHandlers (notes g.out) := by
    rw [hby.out, finishedHandlers_notes]
  have hreserved : reservedHandlers out = reservedHandlers (notes g.out) := by
    rw [hby.out, reservedHandlers_notes]
  refine ⟨h.owned.after hby (lock_moves_with_holders h hby), ?_⟩
  rw [finishedHandlers_append, reservedHandlers_append, hfinished, hreserved, hby.shared]
  cases fire_lock hby.fire with
  | apart htaken hnext hlock hout =>
    rw [← finishedHandlers_notes, ← reservedHandlers_notes, finishedHandlers_apart hout,
      reservedHandlers_apart hout, List.append_nil, List.append_nil, hlock,
      no_next_account hby hnext]
    exact hrest
  | opened x htaken hx hnext hlock hout =>
    have haccount := next_account hby hnext (Task.account_eq rfl)
    rw [hx] at haccount
    rw [hout, hlock]
    change LockFacts _ _ (finishedHandlers past ++ []) (reservedHandlers past ++ [])
    rw [List.append_nil, List.append_nil]
    exact hrest.opened.subperm haccount.subperm
  | locked x task htaken hcan hnext hx hholds hfree hloaded hlock hout =>
    have hbefore := taken_account hby htaken (Task.account_eq rfl)
    have hafter := next_account hby hnext (Task.account_eq hx)
    rw [hfree] at hafter
    rw [hout, hlock]
    have hlocked := hfacts.locked (Room.canExecute_eq_none hcan).2.2
    change LockFacts _ _ (finishedHandlers past ++ []) (reservedHandlers past ++ [])
    rw [List.append_nil, List.append_nil]
    exact hlocked.subperm (hafter.trans hbefore).subperm
  | moved task task' htaken hnext hx hholds hholds' hsame hloaded hstate hout =>
    obtain ⟨x, hexecution⟩ := Option.ne_none_iff_exists'.mp (Task.execution_of_holdsLock hholds)
    have hbefore := taken_account hby htaken (Task.account_eq hexecution)
    have hafter := next_account hby hnext (Task.account_eq (hx.trans hexecution))
    rw [hsame] at hafter
    rw [hstate]
    have hsilent : finishedHandlers (notes g.out) = [] ∧ reservedHandlers (notes g.out) = [] := by
      rcases hout with hout | ⟨_, _, _, -, hout⟩ <;> rw [hout] <;> exact ⟨rfl, rfl⟩
    rw [hsilent.1, hsilent.2, List.append_nil, List.append_nil]
    exact hfacts.subperm (hafter.trans hbefore).subperm
  | reserved x loaded nonce htaken hnext hstate hout =>
    have hbefore := taken_account hby htaken (Task.account_eq rfl)
    have hafter := next_account hby hnext (Task.account_eq rfl)
    rw [hout, hstate]
    have hcharged := (hfacts.subperm hbefore.subperm).reserve
    change LockFacts _ _ (finishedHandlers past ++ []) (reservedHandlers past ++ [x.handler])
    rw [List.append_nil]
    exact hcharged.subperm hafter.subperm
  | finished x submissionReserved failure htaken hnext hlock hout =>
    have hbefore := taken_account hby htaken (Task.account_eq rfl)
    have hmem : Task.executionSettling x submissionReserved failure ∈ c.pool :=
      hby.mem_of_taken (by simp [htaken])
    have hclosed := (hfacts.subperm hbefore.subperm).finish (h.owned.of_mem hmem rfl)
    rw [hout, hlock, no_next_account hby (by simp [hnext])]
    change LockFacts _ _ (finishedHandlers past ++ [x.handler]) (reservedHandlers past ++ [])
    rw [List.append_nil]
    exact hclosed

end

/-! ## Runs -/

theorem lock_run {cfg : Config} {mode : RoomMode} {now : Time} {acts : List ServerAct}
    {c : ServerConf} {out : List Effect} (hreach : Reaches cfg mode now acts c out) :
    LockInvariant c out :=
  Machine.run_preserves_always (fun _ _ _ _ _ _ _ h hby => lock_step h hby)
    (initial_lock cfg mode now) hreach

/-- **Execution lock and room budget.** In every reachable state `executionInProgress` is set exactly
when one handler holds the lock, and never do two hold it; no more submissions are used than allowed;
and the submissions used are the handlers that finished and had reserved, each once. -/
theorem execution_lock_and_budget {cfg : Config} {mode : RoomMode} {now : Time}
    {acts : List ServerAct} {c : ServerConf} {out : List Effect}
    (hreach : Reaches cfg mode now acts c out) :
    (c.pool.countP Task.holdsLock = if c.shared.room.executionInProgress then 1 else 0) ∧
    c.shared.room.submissionsUsed ≤ c.shared.room.submissionLimit ∧
    (finishedHandlers out).Nodup ∧ (reservedHandlers out).Nodup ∧
    c.shared.room.submissionsUsed =
      (finishedHandlers out).countP fun handler => handler ∈ reservedHandlers out := by
  have h := lock_run hreach
  refine ⟨?_, h.facts.limit, h.facts.ledger.closed_nodup, h.facts.ledger.charged_nodup,
    h.facts.total⟩
  have howned : c.pool.countP Task.holdsLock = c.shared.room.executionInProgress.toNat := h.owned
  rw [howned]
  cases c.shared.room.executionInProgress <;> rfl

/-- One run that Judge0 answers. -/
def exampleExecution : List ServerAct :=
  [.event (.receive 0 .codeRun), .resume 0 .go, .resume 0 .allowed, .resume 0 (.cases []),
    .resume 0 (.resources (some (exampleBoilerplate 7)) (some (exampleProblem 7))),
    .resume 0 (.granted (js "n")), .resume 0 (.response ⟨none, none, 3⟩), .resume 0 .go]

theorem execution_lock_and_budget_example : ∃ c out,
    Reaches plainConfig .collaboration 0
      (exampleJoin 0 .go ++ exampleSelect 0 7 ++ exampleExecution) c out ∧
    c.shared.room.submissionsUsed = 1 ∧ finishedHandlers out = [0] ∧
    ((c.pool.countP Task.holdsLock = if c.shared.room.executionInProgress then 1 else 0) ∧
      c.shared.room.submissionsUsed ≤ c.shared.room.submissionLimit ∧
      (finishedHandlers out).Nodup ∧ (reservedHandlers out).Nodup ∧
      c.shared.room.submissionsUsed =
        (finishedHandlers out).countP fun handler => handler ∈ reservedHandlers out) := by
  obtain ⟨c, out, hreach, hused, hfinished⟩ : ∃ c out,
      Reaches plainConfig .collaboration 0
        (exampleJoin 0 .go ++ exampleSelect 0 7 ++ exampleExecution) c out ∧
      c.shared.room.submissionsUsed = 1 ∧ finishedHandlers out = [0] :=
    ⟨_, _, rfl, rfl, rfl⟩
  exact ⟨c, out, hreach, hused, hfinished, execution_lock_and_budget hreach⟩

end CodeShare
