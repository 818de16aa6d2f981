import CodeShare.Access.AccessRepository
import CodeShare.Foundations.Threads

/-! # The transaction of createSession

`createSession` of `accessRepository.ts` statement by statement, among others and revocations. Of PostgreSQL:
a row that is selected for update is kept from others until the transaction ends, a statement sees what is
committed when it runs, and others see nothing of an open transaction. Behind a statement that fails the
transaction ends at once or with its ROLLBACK, and with a ROLLBACK that fails it ends as well.
-/

namespace CodeShare.Access
open Tasks
set_option autoImplicit false

/-! ## The database -/

/-- The invite has room for one more session. -/
def AccessTables.RoomFor (tables : AccessTables) (input : CreateSessionInput) : Prop :=
  ∃ invite, tables.invite? input.inviteId = some invite ∧
    tables.countActive input.inviteId input.now < invite.maxSessions

/-- What an open transaction keeps from others. -/
inductive Holding where
  | lockedInvite (id : Uuid)
  | insertedRow (row : SessionRow)
  deriving DecidableEq

/-- What is committed, and what open transactions hold. -/
structure AccessDatabase where
  tables : AccessTables
  held : List Holding

/-- Where `createSession` waits for a statement. -/
inductive SessionTask where
  | connecting (input : CreateSessionInput)
  | beginning (input : CreateSessionInput)
  | selecting (input : CreateSessionInput)
  | counting (input : CreateSessionInput) (maxSessions : ℕ)
  | inserting (input : CreateSessionInput)
  | updating (input : CreateSessionInput) (row : SessionRow)
  | committing (input : CreateSessionInput) (row : SessionRow)
  | refusing (holdings : List Holding)
  | undoing (holdings : List Holding)
  | reading (id : Uuid)
  deriving DecidableEq

inductive AccessEvent where
  | createSession (input : CreateSessionInput)
  | createInvite (row : InviteRow)
  | revokeSession (id : Uuid) (now : ℤ)
  | revokeInvite (id : Uuid) (now : ℤ)
  deriving DecidableEq

/-- How a statement goes. The row of an INSERT gets an id; a COMMIT may be carried out although its answer
is lost. -/
inductive StatementOutcome where
  | done
  | generated (id : Uuid)
  | failed (ended : Bool)
  | lost
  deriving DecidableEq

inductive SessionOutput where
  | performed (call : AccessCall)
  | returned (session : Option AccessSessionRecord)
  | threw
  deriving DecidableEq

/-- What the transaction of a task holds. -/
def SessionTask.holdings : SessionTask → List Holding
  | .connecting _ | .beginning _ | .selecting _ | .reading _ => []
  | .counting input _ | .inserting input => [.lockedInvite input.inviteId]
  | .updating input row | .committing input row => [.insertedRow row, .lockedInvite input.inviteId]
  | .refusing holdings | .undoing holdings => holdings

def newSessionRow (id : Uuid) (input : CreateSessionInput) : SessionRow :=
  ⟨id, input.inviteId, input.sessionTokenHash, input.expiresAt, none⟩

namespace AccessDatabase
variable (db : AccessDatabase)

/-- The end of a transaction. -/
def release (holdings : List Holding) : AccessDatabase :=
  { db with held := db.held.filter (· ∉ holdings) }

/-- An open transaction has inserted a row with the id or the token hash. -/
def insertionBlocked (row : SessionRow) : Bool :=
  db.held.any fun
    | .insertedRow other => other.id = row.id || other.sessionTokenHash = row.sessionTokenHash
    | .lockedInvite _ => false

abbrev SessionSegment := Segment AccessDatabase SessionTask SessionOutput

def perform (call : AccessCall) : SessionSegment :=
  (Segment.of { db with tables := db.tables.call call }).emit (.performed call)

/-- On to the ROLLBACK of the `catch`. -/
def fail (holdings : List Holding) (ended : Bool) : SessionSegment :=
  if ended then (Segment.of (db.release holdings)).suspend (.undoing [])
  else (Segment.of db).suspend (.undoing holdings)

/-- COMMIT. -/
def commit (input : CreateSessionInput) (row : SessionRow) (next : SessionTask) : Option SessionSegment :=
  (db.tables.insertSession row).map fun inserted =>
    ((Segment.of { db.release [.insertedRow row, .lockedInvite input.inviteId] with
      tables := inserted.useInvite input.inviteId input.now }).emit
        (.performed (.createSession row.id input))).suspend next

end AccessDatabase

/-- `none` is a statement that waits. -/
def sessionHandle (db : AccessDatabase) : AccessEvent → Option AccessDatabase.SessionSegment
  | .createSession input => some ((Segment.of db).suspend (.connecting input))
  | .createInvite row => some (db.perform (.createInvite row))
  | .revokeSession id now => some (db.perform (.revokeSession id now))
  | .revokeInvite id now =>
    if .lockedInvite id ∈ db.held then none else some (db.perform (.revokeInvite id now))

/-- `none` is a statement that waits, or an outcome that it does not have. -/
def sessionResume (db : AccessDatabase) :
    SessionTask → StatementOutcome → Option AccessDatabase.SessionSegment
  | .connecting input, .done => some ((Segment.of db).suspend (.beginning input))
  | .connecting _, .failed _ => some ((Segment.of db).emit .threw)
  | .beginning input, .done => some ((Segment.of db).suspend (.selecting input))
  | .selecting input, .done =>
    match db.tables.invite? input.inviteId with
    | none => some ((Segment.of db).suspend (.refusing []))
    | some invite =>
      if .lockedInvite input.inviteId ∈ db.held then none
      else
        some ((Segment.of { db with held := .lockedInvite input.inviteId :: db.held }).suspend
          (.counting input invite.maxSessions))
  | .counting input maxSessions, .done =>
    if maxSessions ≤ db.tables.countActive input.inviteId input.now then
      some ((Segment.of db).suspend (.refusing [.lockedInvite input.inviteId]))
    else some ((Segment.of db).suspend (.inserting input))
  | .inserting input, .generated id =>
    let row := newSessionRow id input
    if db.insertionBlocked row then none
    else if db.tables.sessionConflicts row then some (db.fail [.lockedInvite input.inviteId] false)
    else
      some ((Segment.of { db with held := .insertedRow row :: db.held }).suspend (.updating input row))
  | .updating input row, .done => some ((Segment.of db).suspend (.committing input row))
  | .committing input row, .done => db.commit input row (.reading row.id)
  | .committing input row, .lost => db.commit input row (.undoing [])
  | .refusing holdings, .done => some ((Segment.of (db.release holdings)).emit (.returned none))
  | .undoing holdings, .done | .undoing holdings, .failed _ =>
    some ((Segment.of (db.release holdings)).emit .threw)
  | .reading id, .done => some ((Segment.of db).emit (.returned (db.tables.findSessionRecordById id)))
  | .reading _, .failed _ => some ((Segment.of db).emit .threw)
  | task, .failed ended => some (db.fail task.holdings ended)
  | _, _ => none

def sessionMachine : Machine AccessDatabase SessionTask AccessEvent StatementOutcome SessionOutput where
  handle := sessionHandle
  resume := sessionResume

/-! ## What a statement does -/

/-- What a task knows of the tables. -/
def SessionTask.Ok (tables : AccessTables) : SessionTask → Prop
  | .counting input maxSessions =>
    ∃ invite, tables.invite? input.inviteId = some invite ∧ invite.maxSessions = maxSessions
  | .inserting input => tables.RoomFor input
  | .updating input row | .committing input row => tables.RoomFor input ∧ row = newSessionRow row.id input
  | .reading id => (tables.findSessionRecordById id).isSome
  | .connecting _ | .beginning _ | .selecting _ | .refusing _ | .undoing _ => True

/-- No session is created. -/
def AccessCall.createsNone : AccessCall → Prop
  | .createSession _ _ => False
  | _ => True

/-- A segment by what it does to the tables and to what is held. -/
inductive SessionStep (db : AccessDatabase) : List SessionTask → AccessDatabase.SessionSegment → Prop where
  | performs (call : AccessCall) (hcall : call.createsNone) : SessionStep db [] (db.perform call)
  | commits {input : CreateSessionInput} {row : SessionRow} {next : SessionTask}
      {g : AccessDatabase.SessionSegment} (hnext : next = .reading row.id ∨ next = .undoing [])
      (hcommit : db.commit input row next = some g) : SessionStep db [.committing input row] g
  | keeps {taken next : List SessionTask} {out : List SessionOutput}
      (hholdings : ∀ r, next.countP (r ∈ ·.holdings) = taken.countP (r ∈ ·.holdings))
      (hnext : ∀ task ∈ next, task.Ok db.tables) (hout : ∀ call, .performed call ∉ out)
      (hflow : next = [] ∨ out = [] ∧ next.length = 1) : SessionStep db taken ⟨db, out, next⟩
  | acquires {task next : SessionTask} {r : Holding} (hfree : r ∉ db.held)
      (hholdings : next.holdings = r :: task.holdings) (hnext : next.Ok db.tables)
      (hrow : ∀ row, r = .insertedRow row →
        db.insertionBlocked row = false ∧ db.tables.sessionConflicts row = false) :
      SessionStep db [task] ⟨{ db with held := r :: db.held }, [], [next]⟩
  | releases {task : SessionTask} {next : List SessionTask} {out : List SessionOutput}
      (hholdings : ∀ task ∈ next, task.holdings = []) (hnext : ∀ task ∈ next, task.Ok db.tables)
      (hout : ∀ call, .performed call ∉ out) (hflow : next = [] ∨ out = [] ∧ next.length = 1) :
      SessionStep db [task] ⟨db.release task.holdings, out, next⟩

theorem insertionBlocked_eq_false {db : AccessDatabase} {row : SessionRow} :
    db.insertionBlocked row = false ↔ ∀ other, .insertedRow other ∈ db.held →
      ¬(other.id = row.id ∨ other.sessionTokenHash = row.sessionTokenHash) := by
  rw [AccessDatabase.insertionBlocked, List.any_eq_false]
  refine ⟨fun h other hm => by simpa using h _ hm, fun h r hm => ?_⟩
  cases r with
  | lockedInvite id => exact Bool.false_ne_true
  | insertedRow other => simpa using h other hm

theorem insertedRow_not_mem {db : AccessDatabase} {row : SessionRow}
    (h : db.insertionBlocked row = false) : .insertedRow row ∉ db.held := fun hm =>
  insertionBlocked_eq_false.mp h row hm (.inl rfl)

theorem fail_step {db : AccessDatabase} {task : SessionTask} (ended : Bool) :
    SessionStep db [task] (db.fail task.holdings ended) := by
  cases ended with
  | false => exact .keeps (fun _ => rfl) (by simp [SessionTask.Ok]) nofun (.inr ⟨rfl, rfl⟩)
  | true =>
    exact .releases (by simp [SessionTask.holdings]) (by simp [SessionTask.Ok]) nofun (.inr ⟨rfl, rfl⟩)

theorem handle_cases {db : AccessDatabase} {e : AccessEvent} {g : AccessDatabase.SessionSegment}
    (h : sessionHandle db e = some g) : SessionStep db [] g := by
  cases e with
  | createSession input =>
    obtain rfl := Option.some.inj h
    exact .keeps (fun _ => rfl) (by simp [SessionTask.Ok]) nofun (.inr ⟨rfl, rfl⟩)
  | createInvite row =>
    obtain rfl := Option.some.inj h
    exact .performs _ trivial
  | revokeSession id now =>
    obtain rfl := Option.some.inj h
    exact .performs _ trivial
  | revokeInvite id now =>
    rw [sessionHandle] at h
    split_ifs at h
    obtain rfl := Option.some.inj h
    exact .performs _ trivial

theorem resume_cases {db : AccessDatabase} {task : SessionTask} {o : StatementOutcome}
    {g : AccessDatabase.SessionSegment} (hok : task.Ok db.tables) (h : sessionResume db task o = some g) :
    SessionStep db [task] g := by
  fun_cases sessionResume db task o with
  | case1 input =>
    obtain rfl := Option.some.inj h
    exact .keeps (fun _ => rfl) (by simp [SessionTask.Ok]) nofun (.inr ⟨rfl, rfl⟩)
  | case2 input ended =>
    obtain rfl := Option.some.inj h
    exact .keeps (fun _ => rfl) nofun (by simp) (.inl rfl)
  | case3 input =>
    obtain rfl := Option.some.inj h
    exact .keeps (fun _ => rfl) (by simp [SessionTask.Ok]) nofun (.inr ⟨rfl, rfl⟩)
  | case4 input hinvite =>
    simp only [sessionResume, hinvite, Option.some.injEq] at h
    subst h
    exact .keeps (fun _ => rfl) (by simp [SessionTask.Ok]) nofun (.inr ⟨rfl, rfl⟩)
  | case5 input invite hinvite hlocked =>
    simp only [sessionResume, hinvite, if_pos hlocked, reduceCtorEq] at h
  | case6 input invite hinvite hlocked =>
    simp only [sessionResume, hinvite, if_neg hlocked, Option.some.injEq] at h
    subst h
    exact .acquires hlocked rfl ⟨invite, hinvite, rfl⟩ nofun
  | case7 input maxSessions hfull =>
    simp only [sessionResume, if_pos hfull, Option.some.injEq] at h
    subst h
    exact .keeps (fun _ => rfl) (by simp [SessionTask.Ok]) nofun (.inr ⟨rfl, rfl⟩)
  | case8 input maxSessions hfull =>
    simp only [sessionResume, if_neg hfull, Option.some.injEq] at h
    subst h
    obtain ⟨invite, hinvite, hmax⟩ := hok
    rw [← hmax, not_le] at hfull
    exact .keeps (fun _ => rfl) (by simpa [SessionTask.Ok] using ⟨invite, hinvite, hfull⟩) nofun
      (.inr ⟨rfl, rfl⟩)
  | case9 input id row hblocked =>
    simp only [sessionResume, row, if_pos hblocked, reduceCtorEq] at h
  | case10 input id row hblocked hconflicts =>
    simp only [sessionResume, row, if_neg hblocked, if_pos hconflicts, Option.some.injEq] at h
    subst h
    exact fail_step false
  | case11 input id row hblocked hconflicts =>
    simp only [sessionResume, row, if_neg hblocked, if_neg hconflicts, Option.some.injEq] at h
    subst h
    have hblocked := Bool.eq_false_iff.mpr hblocked
    refine .acquires (insertedRow_not_mem hblocked) rfl ⟨hok, rfl⟩ fun other hother => ?_
    obtain rfl := Holding.insertedRow.inj hother
    exact ⟨hblocked, Bool.eq_false_iff.mpr hconflicts⟩
  | case12 input row =>
    obtain rfl := Option.some.inj h
    exact .keeps (fun _ => rfl) (by simpa [SessionTask.Ok] using hok) nofun (.inr ⟨rfl, rfl⟩)
  | case13 input row => exact .commits (.inl rfl) h
  | case14 input row => exact .commits (.inr rfl) h
  | case15 holdings =>
    obtain rfl := Option.some.inj h
    exact .releases nofun nofun (by simp) (.inl rfl)
  | case16 holdings =>
    obtain rfl := Option.some.inj h
    exact .releases nofun nofun (by simp) (.inl rfl)
  | case17 holdings ended =>
    obtain rfl := Option.some.inj h
    exact .releases nofun nofun (by simp) (.inl rfl)
  | case18 id =>
    obtain rfl := Option.some.inj h
    exact .keeps (fun _ => rfl) nofun (by simp) (.inl rfl)
  | case19 id ended =>
    obtain rfl := Option.some.inj h
    exact .keeps (fun _ => rfl) nofun (by simp) (.inl rfl)
  | case20 =>
    rw [sessionResume] at h
    · obtain rfl := Option.some.inj h
      exact fail_step _
    all_goals assumption
  | case21 =>
    rw [sessionResume] at h
    · cases h
    all_goals assumption

theorem fire_cases {db : AccessDatabase} {t : Trigger AccessEvent SessionTask StatementOutcome}
    {g : AccessDatabase.SessionSegment} (hok : ∀ task ∈ t.taken, task.Ok db.tables)
    (h : sessionMachine.fire db t = some g) : SessionStep db t.taken g := by
  cases t with
  | event e => exact handle_cases h
  | task task o => exact resume_cases (hok task (List.mem_singleton_self _)) h

/-! ## What holds at any time -/

/-- Every holding belongs to one task, and what is inserted clashes with nothing. -/
structure DatabaseOk (c : Conf AccessDatabase SessionTask) : Prop where
  owned : ∀ r, Machine.Owned (fun db => decide (r ∈ db.held)) (fun task => decide (r ∈ task.holdings)) c
  apart : ∀ row other, .insertedRow row ∈ c.shared.held → .insertedRow other ∈ c.shared.held →
    other.id = row.id ∨ other.sessionTokenHash = row.sessionTokenHash → other = row
  fresh : ∀ row, .insertedRow row ∈ c.shared.held → c.shared.tables.sessionConflicts row = false
  tasks : ∀ task ∈ c.pool, task.Ok c.shared.tables

theorem databaseOk_start (tables : AccessTables) : DatabaseOk ⟨⟨tables, []⟩, []⟩ :=
  ⟨fun _ => rfl, nofun, nofun, nofun⟩

theorem mem_release {db : AccessDatabase} {holdings : List Holding} {r : Holding} :
    r ∈ (db.release holdings).held ↔ r ∈ db.held ∧ r ∉ holdings := by
  rw [AccessDatabase.release, List.mem_filter, decide_eq_true_eq]

/-- COMMIT is the whole of `createSession`. -/
theorem commit_eq {db : AccessDatabase} {input : CreateSessionInput} {row : SessionRow} {next : SessionTask}
    {g : AccessDatabase.SessionSegment} (hroom : db.tables.RoomFor input)
    (hrow : row = newSessionRow row.id input) (h : db.commit input row next = some g) :
    (db.tables.createSession row.id input).2 = .created ∧
      g = ⟨⟨db.tables.call (.createSession row.id input),
        (db.release [.insertedRow row, .lockedInvite input.inviteId]).held⟩,
        [.performed (.createSession row.id input)], [next]⟩ := by
  obtain ⟨invite, hinvite, hlt⟩ := hroom
  obtain ⟨inserted, hinserted, rfl⟩ := Option.map_eq_some_iff.mp h
  have hcreated : db.tables.createSession row.id input =
      (inserted.useInvite input.inviteId input.now, .created) := by
    rw [hrow] at hinserted
    rw [AccessTables.createSession, hinvite]
    dsimp only
    rw [if_neg (not_le.mpr hlt)]
    simp only [newSessionRow] at hinserted
    rw [hinserted]
  refine ⟨congrArg Prod.snd hcreated, ?_⟩
  rw [AccessTables.call, hcreated]
  rfl

theorem countP_holdings (task : SessionTask) (r : Holding) :
    [task].countP (r ∈ ·.holdings) = (decide (r ∈ task.holdings)).toNat := by
  by_cases hr : r ∈ task.holdings <;> simp [hr]

/-- What a transaction gives back was held. -/
theorem count_release {db : AccessDatabase} {holdings : List Holding} (hheld : ∀ r ∈ holdings, r ∈ db.held)
    (r : Holding) : (decide (r ∈ db.held)).toNat =
      (decide (r ∈ holdings)).toNat + (decide (r ∈ (db.release holdings).held)).toNat := by
  by_cases hr : r ∈ holdings
  · simp [mem_release, hr, hheld r hr]
  · simp [mem_release, hr]

/-- What is held moves with the tasks. -/
theorem SessionStep.count_holdings {db : AccessDatabase} {taken : List SessionTask}
    {g : AccessDatabase.SessionSegment} (h : SessionStep db taken g)
    (hheld : ∀ task ∈ taken, ∀ r ∈ task.holdings, r ∈ db.held) (r : Holding) :
    g.next.countP (r ∈ ·.holdings) + (decide (r ∈ db.held)).toNat =
      taken.countP (r ∈ ·.holdings) + (decide (r ∈ g.state.held)).toNat := by
  cases h with
  | performs call hcall => rfl
  | @commits input row next g hnext hcommit =>
    obtain ⟨inserted, -, rfl⟩ := Option.map_eq_some_iff.mp hcommit
    have hnone : next.holdings = [] := by
      rcases hnext with rfl | rfl <;> rfl
    have hrelease := count_release (hheld _ (List.mem_singleton_self _)) r
    change [next].countP (r ∈ ·.holdings) + _ = _ + (decide (r ∈ (db.release _).held)).toNat
    rw [countP_holdings, countP_holdings, hnone, hrelease]
    exact Nat.zero_add _
  | keeps hholdings hnext hout hflow => rw [hholdings r]
  | @acquires task next r' hfree hholdings hnext hrow =>
    rw [countP_holdings, countP_holdings, hholdings]
    by_cases hr : r = r'
    · have hnot : r' ∉ task.holdings := fun hm => hfree (hheld _ (List.mem_singleton_self _) r' hm)
      simp [hr, hfree, hnot]
    · simp [hr]
  | @releases task next out hholdings hnext hout hflow =>
    have hnone : next.countP (r ∈ ·.holdings) = 0 := by
      refine List.countP_eq_zero.mpr fun other hm => ?_
      rw [hholdings other hm]
      simp
    rw [hnone, countP_holdings, count_release (hheld _ (List.mem_singleton_self _)) r]
    exact Nat.zero_add _

theorem roomFor_call {tables : AccessTables} {input : CreateSessionInput} (h : tables.RoomFor input)
    {c : AccessCall} (hc : ∀ newId other, c = .createSession newId other → other.inviteId ≠ input.inviteId) :
    (tables.call c).RoomFor input := by
  obtain ⟨invite, hinvite, hlt⟩ := h
  obtain ⟨lastUsedAt, hinvite⟩ := AccessTables.invite?_call hinvite c
  exact ⟨_, hinvite, lt_of_le_of_lt (AccessTables.countActive_call_le hc _) hlt⟩

/-- What a task knows stays true while others run: its invite is kept from their sessions. -/
theorem SessionTask.Ok.call {tables : AccessTables} {task : SessionTask} (h : task.Ok tables) {c : AccessCall}
    (hc : ∀ newId input, c = .createSession newId input → .lockedInvite input.inviteId ∉ task.holdings) :
    task.Ok (tables.call c) := by
  have hroom : ∀ input : CreateSessionInput, .lockedInvite input.inviteId ∈ task.holdings →
      tables.RoomFor input → (tables.call c).RoomFor input := fun input hlocked hroom =>
    roomFor_call hroom fun newId other heq hsame => hc newId other heq (hsame ▸ hlocked)
  cases task with
  | counting input maxSessions =>
    obtain ⟨invite, hinvite, hmax⟩ := h
    obtain ⟨lastUsedAt, hinvite⟩ := AccessTables.invite?_call hinvite c
    exact ⟨_, hinvite, hmax⟩
  | inserting input => exact hroom input (by simp [holdings]) h
  | updating input row => exact ⟨hroom input (by simp [holdings]) h.1, h.2⟩
  | committing input row => exact ⟨hroom input (by simp [holdings]) h.1, h.2⟩
  | reading id => exact AccessTables.findSessionRecordById_call h c
  | connecting _ => trivial
  | beginning _ => trivial
  | selecting _ => trivial
  | refusing _ => trivial
  | undoing _ => trivial

namespace DatabaseOk
variable {c c' : Conf AccessDatabase SessionTask} {out : List SessionOutput}
  {t : Trigger AccessEvent SessionTask StatementOutcome} {g : AccessDatabase.SessionSegment}
  {rest : List SessionTask}

theorem held_of_mem (h : DatabaseOk c) {task : SessionTask} (hm : task ∈ c.pool) {r : Holding}
    (hr : r ∈ task.holdings) : r ∈ c.shared.held :=
  of_decide_eq_true ((h.owned r).of_mem hm (decide_eq_true hr))

theorem sessionStep (h : DatabaseOk c) (hby : sessionMachine.StepBy c c' out t g rest) :
    SessionStep c.shared t.taken g :=
  fire_cases (fun task hm => h.tasks task (hby.mem_of_taken hm)) hby.fire

/-- The invariant of the database is kept. -/
theorem step (h : DatabaseOk c) (hby : sessionMachine.StepBy c c' out t g rest) : DatabaseOk c' := by
  have hstep := h.sessionStep hby
  have howned : ∀ r, Machine.Owned (fun db => decide (r ∈ db.held))
      (fun task => decide (r ∈ task.holdings)) c' := fun r =>
    (h.owned r).after hby (hstep.count_holdings (fun task hm r hr => h.held_of_mem (hby.mem_of_taken hm) hr) r)
  have hrest : ∀ task ∈ rest, task.Ok c.shared.tables := fun task hm => h.tasks task (hby.mem_of_rest hm)
  have htasks : (∀ task ∈ rest, task.Ok g.state.tables) → (∀ task ∈ g.next, task.Ok g.state.tables) →
      ∀ task ∈ c'.pool, task.Ok c'.shared.tables := by
    intro hold hnew task hm
    rw [hby.shared]
    exact (hby.mem_after hm).elim (hold task) (hnew task)
  have htaken : ∀ task ∈ t.taken, task.Ok c.shared.tables := fun task hm => h.tasks task (hby.mem_of_taken hm)
  have hlocked : ∀ task ∈ t.taken, ∀ r ∈ task.holdings, ∀ other ∈ rest, r ∉ other.holdings :=
    fun task hm r hr other hother => of_decide_eq_false
      ((h.owned r).not_of_rest hby hm (decide_eq_true hr) hother)
  have hinserted : ∀ task ∈ t.taken, ∀ r ∈ task.holdings, r ∈ c.shared.held :=
    fun task hm r hr => h.held_of_mem (hby.mem_of_taken hm) hr
  generalize t.taken = taken at hstep htaken hlocked hinserted
  cases hstep with
  | performs call hcall =>
    have hnone : ∀ newId input, call ≠ .createSession newId input := fun newId input heq => by
      rw [heq] at hcall
      exact hcall
    refine ⟨howned, ?_, ?_, htasks (fun task hm => (hrest task hm).call fun newId input heq =>
      absurd heq (hnone newId input)) nofun⟩
    · rw [hby.shared]
      exact h.apart
    · rw [hby.shared]
      exact fun row hm => AccessTables.sessionConflicts_call (h.fresh row hm) fun newId input heq =>
        absurd heq (hnone newId input)
  | @commits input row next g hnext hcommit =>
    obtain ⟨hroom, hrow⟩ := htaken _ (List.mem_singleton_self _)
    obtain ⟨hcreated, rfl⟩ := commit_eq hroom hrow hcommit
    have hheld : .insertedRow row ∈ c.shared.held := hinserted _ (List.mem_singleton_self _) _ List.mem_cons_self
    refine ⟨howned, ?_, ?_, htasks ?_ ?_⟩
    · rw [hby.shared]
      exact fun row other hrow hother => h.apart row other (mem_release.mp hrow).1 (mem_release.mp hother).1
    · rw [hby.shared]
      intro other hm
      obtain ⟨hm, hkept⟩ := mem_release.mp hm
      refine AccessTables.sessionConflicts_call (h.fresh other hm) fun newId input' heq hclash => hkept ?_
      obtain ⟨rfl, rfl⟩ := AccessCall.createSession.inj heq
      rw [h.apart other row hm hheld (hclash.imp_right fun hhash => (congrArg _ hrow).trans hhash)]
      exact List.mem_cons_self
    · intro task hm
      refine (hrest task hm).call fun newId input' heq => ?_
      obtain ⟨rfl, rfl⟩ := AccessCall.createSession.inj heq
      exact hlocked _ (List.mem_singleton_self _) _ (List.mem_cons_of_mem _ List.mem_cons_self) task hm
    · intro task hm
      rw [List.mem_singleton.mp hm]
      rcases hnext with rfl | rfl
      · exact AccessTables.findSessionRecordById_createSession hcreated
      · trivial
  | keeps hholdings hnext hout hflow =>
    refine ⟨howned, ?_, ?_, htasks hrest hnext⟩
    · rw [hby.shared]
      exact h.apart
    · rw [hby.shared]
      exact h.fresh
  | @acquires task next r hfree hholdings hnext hrow =>
    refine ⟨howned, ?_, ?_, htasks hrest fun task hm => List.mem_singleton.mp hm ▸ hnext⟩
    · rw [hby.shared]
      intro row other hm hm' hclash
      rcases List.mem_cons.mp hm with hr | hm <;> rcases List.mem_cons.mp hm' with hr' | hm'
      · exact Holding.insertedRow.inj (hr'.trans hr.symm)
      · exact absurd hclash (insertionBlocked_eq_false.mp (hrow row hr.symm).1 other hm')
      · exact absurd (hclash.imp Eq.symm Eq.symm) (insertionBlocked_eq_false.mp (hrow other hr'.symm).1 row hm)
      · exact h.apart row other hm hm' hclash
    · rw [hby.shared]
      intro row hm
      rcases List.mem_cons.mp hm with hr | hm
      · exact (hrow row hr.symm).2
      · exact h.fresh row hm
  | releases hholdings hnext hout hflow =>
    refine ⟨howned, ?_, ?_, htasks hrest hnext⟩
    · rw [hby.shared]
      exact fun row other hrow hother => h.apart row other (mem_release.mp hrow).1 (mem_release.mp hother).1
    · rw [hby.shared]
      exact fun row hrow => h.fresh row (mem_release.mp hrow).1

end DatabaseOk

end CodeShare.Access
