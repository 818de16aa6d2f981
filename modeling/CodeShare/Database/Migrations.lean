import CodeShare.Foundations.Tasks
import CodeShare.Text.JsString
import Mathlib.Data.List.Lex
import Mathlib.Data.List.Sort

/-! # Database migrations

`migrate` of `migrate.ts` statement by statement. Any number of runs may be at work at once: each is a process
with one connection, any statement may fail, and the process may be killed anywhere. Of PostgreSQL: a statement
outside a transaction is committed at once; nobody sees what an open transaction has done before its COMMIT, and
without that it is gone; and an INSERT of a key that an open transaction has inserted waits for the end of that
transaction. The scripts are opaque, and have no transaction statements of their own: a database is known by the
scripts whose statements it has carried out.
-/

namespace CodeShare.Migrations
open Tasks
set_option autoImplicit false

/-! ## Statements -/

/-- What is committed, and the names that open transactions have inserted. -/
structure MigrationDatabase where
  /-- the rows of `_migrations`, as they came -/
  applied : List JsString
  /-- the scripts whose statements are committed, as they came -/
  executed : List JsString
  inserted : List JsString

/-- What an open transaction has done. -/
structure Transaction where
  executed : List JsString
  inserted : List JsString

/-- The names that a connection has inserted, and not committed. -/
def uncommitted : Option Transaction → List JsString
  | none => []
  | some tx => tx.inserted

/-- BEGIN in an open transaction only warns. -/
def beginTransaction (tx : Option Transaction) : Option Transaction := some (tx.getD ⟨[], []⟩)

namespace MigrationDatabase
variable (db : MigrationDatabase)

/-- The statements of a script. -/
def execute (file : JsString) : Option Transaction → MigrationDatabase × Option Transaction
  | none => ({ db with executed := db.executed ++ [file] }, none)
  | some tx => (db, some { tx with executed := tx.executed ++ [file] })

/-- The INSERT into `_migrations`; `none` is one that waits, or fails because the name is there. -/
def insert (file : JsString) (tx : Option Transaction) : Option (MigrationDatabase × Option Transaction) :=
  if file ∈ db.inserted ∨ file ∈ db.applied then none
  else
    match tx with
    | none => some ({ db with applied := db.applied ++ [file] }, none)
    | some tx => some ({ db with inserted := file :: db.inserted },
        some { tx with inserted := tx.inserted ++ [file] })

/-- The end of a transaction without COMMIT. -/
def release (tx : Option Transaction) : MigrationDatabase :=
  { db with inserted := db.inserted.filter (· ∉ uncommitted tx) }

def commit : Option Transaction → MigrationDatabase
  | none => db
  | some tx => { db.release (some tx) with
    applied := db.applied ++ tx.inserted
    executed := db.executed ++ tx.executed }

end MigrationDatabase

/-! ## Runs -/

/-- What `readdirSync` lists. -/
structure Directory where
  names : List JsString
  nodup : names.Nodup

/-- The scripts of a directory, in the order of `sort`. -/
def migrationFiles (directory : Directory) : List JsString :=
  (directory.names.filter (js ".sql" <:+ ·)).insertionSort (· ≤ ·)

/-- A run that is at one of its scripts. -/
structure MigrationRun where
  files : List JsString
  appliedSet : List JsString
  file : JsString
  remaining : List JsString
  appliedCount : ℕ
  skippedCount : ℕ

/-- What a run waits for, with the transaction that is open on its connection; a script has been read when its
BEGIN is sent. -/
inductive MigrationTask where
  | connecting (directory : Directory)
  | creatingTable (directory : Directory)
  | selecting (directory : Directory)
  | beginning (x : MigrationRun)
  | executing (x : MigrationRun) (tx : Option Transaction)
  | inserting (x : MigrationRun) (tx : Option Transaction)
  | committing (x : MigrationRun) (tx : Option Transaction)
  | rollingBack (tx : Option Transaction)
  /-- `pool.end()` of the `finally`, where a transaction may still be open -/
  | ending (tx : Option Transaction) (threw : Bool)

/-- How a statement goes. A failure may end the transaction at once, a COMMIT may be carried out although its
answer is lost or the next script cannot be read. -/
inductive MigrationOutcome where
  | done
  | failed (ended : Bool)
  | lost
  | killed
  deriving DecidableEq

inductive MigrationEvent where
  | migrate (directory : Directory)

/-- What is logged about the end of a run. -/
inductive MigrationLog where
  | completed (files : List JsString) (appliedCount skippedCount : ℕ)
  | failed

abbrev MigrationStep := Segment MigrationDatabase MigrationTask MigrationLog

def MigrationTask.transaction : MigrationTask → Option Transaction
  | connecting _ | creatingTable _ | selecting _ | beginning _ => none
  | executing _ tx | inserting _ tx | committing _ tx | rollingBack tx | ending tx _ => tx

section
variable (db : MigrationDatabase)

/-- On to the ROLLBACK of the `catch`. -/
def throwing (tx : Option Transaction) (ended : Bool) : MigrationStep :=
  if ended then (Segment.of (db.release tx)).suspend (.rollingBack none)
  else (Segment.of db).suspend (.rollingBack tx)

/-- On to `pool.end()`. -/
def leaving (tx : Option Transaction) (ended : Bool) : MigrationStep :=
  if ended then (Segment.of (db.release tx)).suspend (.ending none true)
  else (Segment.of db).suspend (.ending tx true)

/-- The loop over the files, up to the next script that is to be applied. -/
def nextFile (files appliedSet : List JsString) (appliedCount skippedCount : ℕ) : List JsString → MigrationStep
  | [] => ((Segment.of db).emit (.completed files appliedCount skippedCount)).suspend (.ending none false)
  | file :: remaining =>
    if file ∈ appliedSet then nextFile files appliedSet appliedCount (skippedCount + 1) remaining
    else (Segment.of db).suspend (.beginning ⟨files, appliedSet, file, remaining, appliedCount, skippedCount⟩)

/-- The pool has ended, and with it the connection. -/
def ended (tx : Option Transaction) (threw : Bool) : MigrationStep :=
  (Segment.of (db.release tx)).emits fun _ => if threw then [.failed] else []

def MigrationRun.afterCommit (x : MigrationRun) : MigrationStep :=
  nextFile db x.files x.appliedSet (x.appliedCount + 1) x.skippedCount x.remaining

/-- `none` is an outcome that a statement does not have, or one that waits. -/
def migrationResume : MigrationTask → MigrationOutcome → Option MigrationStep
  | task, .killed => some (.of (db.release task.transaction))
  | .connecting directory, .done => some ((Segment.of db).suspend (.creatingTable directory))
  | .connecting _, .failed _ => some ((Segment.of db).emit .failed)
  | .creatingTable directory, .done => some ((Segment.of db).suspend (.selecting directory))
  | .selecting directory, .done =>
    let files := migrationFiles directory
    some (nextFile db files db.applied 0 0 files)
  | .beginning x, .done => some ((Segment.of db).suspend (.executing x (beginTransaction none)))
  | .executing x tx, .done =>
    let (db, tx) := db.execute x.file tx
    some ((Segment.of db).suspend (.inserting x tx))
  | .inserting x tx, .done =>
    (db.insert x.file tx).map fun (db, tx) => (Segment.of db).suspend (.committing x tx)
  | .committing x tx, .done => some (x.afterCommit (db.commit tx))
  | .committing _ tx, .lost => some ((Segment.of (db.commit tx)).suspend (.rollingBack none))
  | .rollingBack tx, .done => some (leaving db tx true)
  | .rollingBack tx, .failed ended => some (leaving db tx ended)
  | .ending tx threw, .done => some (ended db tx threw)
  | .ending tx _, .failed _ => some (ended db tx true)
  | task, .failed ended => some (throwing db task.transaction ended)
  | _, .lost => none

end

def migrations : Machine MigrationDatabase MigrationTask MigrationEvent MigrationOutcome MigrationLog where
  handle db
    | .migrate directory => some ((Segment.of db).suspend (.connecting directory))
  resume := migrationResume

/-- A database that has only been changed by runs which are over. -/
structure MigratedDatabase where
  applied : List JsString
  nodup : applied.Nodup

def MigratedDatabase.conf (past : MigratedDatabase) : Conf MigrationDatabase MigrationTask :=
  ⟨⟨past.applied, past.applied, []⟩, []⟩

end CodeShare.Migrations
