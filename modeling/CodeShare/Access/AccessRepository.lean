import CodeShare.Text.JsString
import Mathlib.Data.List.Nodup
import Mathlib.Tactic.SplitIfs

/-! # Invites and sessions

The tables of `accessRepository.ts` with its queries. Times are milliseconds since 1970. A query sees the
tables as they are when it runs; `createSession` is here what its transaction does as a whole.
-/

namespace CodeShare.Access
set_option autoImplicit false

/-! ## Identifiers -/

def isHexDigit (c : ℕ) : Bool := (48 ≤ c && c ≤ 57) || (97 ≤ c && c ≤ 102)

/-- Five groups of hexadecimal digits, as PostgreSQL writes a UUID. -/
def isUuid (text : JsString) : Bool :=
  (text.splitOn 45).map List.length = [8, 4, 4, 4, 12] && text.all fun c => c = 45 || isHexDigit c

abbrev Uuid := {text : JsString // isUuid text = true}

theorem Uuid.units (id : Uuid) {c : ℕ} (hc : c ∈ id.1) : c = 45 ∨ isHexDigit c = true := by
  have hall := (Bool.and_eq_true_iff.mp id.2).2
  simpa using List.all_eq_true.mp hall c hc

theorem Uuid.ne_nil (id : Uuid) : id.1 ≠ [] := by
  intro hnil
  have huuid := id.2
  rw [hnil] at huuid
  revert huuid
  decide

/-! ## Tables -/

/-- A row of `invite_codes`. -/
structure InviteRow where
  id : Uuid
  label : JsString
  codeHash : JsString
  codeLookupHash : Option JsString
  maxSessions : ℕ
  expiresAt : Option ℤ
  revokedAt : Option ℤ
  lastUsedAt : Option ℤ
  deriving DecidableEq

/-- A row of `access_sessions`. -/
structure SessionRow where
  id : Uuid
  inviteId : Uuid
  sessionTokenHash : JsString
  expiresAt : ℤ
  revokedAt : Option ℤ
  deriving DecidableEq

/-- The rows in the order in which they were inserted. -/
structure AccessTables where
  invites : List InviteRow
  sessions : List SessionRow
  inviteIds : (invites.map InviteRow.id).Nodup
  sessionIds : (sessions.map SessionRow.id).Nodup

/-- A session with what its invite adds. -/
structure AccessSessionRecord where
  id : Uuid
  inviteId : Uuid
  sessionTokenHash : JsString
  expiresAt : ℤ
  revokedAt : Option ℤ
  inviteLabel : JsString
  inviteExpiresAt : Option ℤ
  inviteRevokedAt : Option ℤ
  deriving DecidableEq

structure CreateSessionInput where
  inviteId : Uuid
  sessionTokenHash : JsString
  expiresAt : ℤ
  now : ℤ
  deriving DecidableEq

namespace AccessTables
variable (tables : AccessTables)

def empty : AccessTables := ⟨[], [], List.nodup_nil, List.nodup_nil⟩

/-- The row of an invite. -/
def invite? (id : Uuid) : Option InviteRow := tables.invites.find? (·.id = id)

/-- The row of a session. -/
def session? (id : Uuid) : Option SessionRow := tables.sessions.find? (·.id = id)

/-! ## Updates -/

/-- An update of one invite that leaves its id. -/
def modifyInvite (id : Uuid) (f : InviteRow → InviteRow) (hf : ∀ row, (f row).id = row.id) :
    AccessTables where
  invites := tables.invites.map fun row => if row.id = id then f row else row
  sessions := tables.sessions
  inviteIds := by
    have hids : InviteRow.id ∘ (fun row => if row.id = id then f row else row) = InviteRow.id := by
      funext row
      dsimp only [Function.comp]
      split_ifs
      · exact hf row
      · rfl
    rw [List.map_map, hids]
    exact tables.inviteIds
  sessionIds := tables.sessionIds

/-- An update of one session that leaves its id. -/
def modifySession (id : Uuid) (f : SessionRow → SessionRow) (hf : ∀ row, (f row).id = row.id) :
    AccessTables where
  invites := tables.invites
  sessions := tables.sessions.map fun row => if row.id = id then f row else row
  inviteIds := tables.inviteIds
  sessionIds := by
    have hids : SessionRow.id ∘ (fun row => if row.id = id then f row else row) = SessionRow.id := by
      funext row
      dsimp only [Function.comp]
      split_ifs
      · exact hf row
      · rfl
    rw [List.map_map, hids]
    exact tables.sessionIds

def revokeSession (sessionId : Uuid) (now : ℤ) : AccessTables :=
  tables.modifySession sessionId (fun row => { row with revokedAt := some now }) fun _ => rfl

def revokeInvite (id : Uuid) (now : ℤ) : AccessTables :=
  tables.modifyInvite id (fun row => { row with revokedAt := some now }) fun _ => rfl

/-- `UPDATE invite_codes SET last_used_at`. -/
def useInvite (id : Uuid) (now : ℤ) : AccessTables :=
  tables.modifyInvite id (fun row => { row with lastUsedAt := some now }) fun _ => rfl

/-- The row has the id or the token hash of another. -/
def sessionConflicts (row : SessionRow) : Bool :=
  tables.sessions.any fun other => other.id = row.id || other.sessionTokenHash = row.sessionTokenHash

/-- `INSERT INTO access_sessions`; `none` when a unique index refuses the row. -/
def insertSession (row : SessionRow) : Option AccessTables :=
  if h : tables.sessionConflicts row = true then none
  else
    some
      { tables with
        sessions := tables.sessions ++ [row]
        sessionIds := by
          rw [List.map_append]
          refine List.nodup_append'.mpr ⟨tables.sessionIds, List.nodup_singleton _, ?_⟩
          rw [List.map_singleton, List.disjoint_singleton]
          intro hmem
          obtain ⟨other, hother, hid⟩ := List.mem_map.mp hmem
          exact h (List.any_eq_true.mpr ⟨other, hother, by simp [hid]⟩) }

/-- The invite has the id, the code hash or the lookup hash of another. -/
def inviteConflicts (row : InviteRow) : Bool :=
  tables.invites.any fun other => other.id = row.id || other.codeHash = row.codeHash ||
    (row.codeLookupHash.isSome && other.codeLookupHash = row.codeLookupHash)

/-- `INSERT INTO invite_codes`, which may fail. -/
def createInvite (row : InviteRow) : AccessTables :=
  if h : tables.inviteConflicts row = true then tables
  else
    { tables with
      invites := tables.invites ++ [{ row with revokedAt := none, lastUsedAt := none }]
      inviteIds := by
        rw [List.map_append]
        refine List.nodup_append'.mpr ⟨tables.inviteIds, List.nodup_singleton _, ?_⟩
        rw [List.map_singleton, List.disjoint_singleton]
        intro hmem
        obtain ⟨other, hother, hid⟩ := List.mem_map.mp hmem
        exact h (List.any_eq_true.mpr ⟨other, hother, by simp [hid]⟩) }

/-! ## Queries -/

def usable (row : InviteRow) (now : ℤ) : Bool := row.revokedAt.isNone && row.expiresAt.all (now < ·)

/-- The newest first. -/
def listUsableInvites (now : ℤ) : List InviteRow :=
  (tables.invites.filter fun row => usable row now && row.codeLookupHash.isNone).reverse

def findUsableInviteByLookupHash (codeLookupHash : JsString) (now : ℤ) : Option InviteRow :=
  tables.invites.find? fun row => row.codeLookupHash = some codeLookupHash && usable row now

def activeSession (inviteId : Uuid) (now : ℤ) (row : SessionRow) : Bool :=
  row.inviteId = inviteId && row.revokedAt.isNone && now < row.expiresAt

/-- `SELECT COUNT(*) FROM access_sessions`. -/
def countActive (inviteId : Uuid) (now : ℤ) : ℕ := tables.sessions.countP (activeSession inviteId now)

def findSessionRecordById (id : Uuid) : Option AccessSessionRecord :=
  (tables.session? id).bind fun s =>
    (tables.invite? s.inviteId).map fun i =>
      ⟨s.id, s.inviteId, s.sessionTokenHash, s.expiresAt, s.revokedAt, i.label, i.expiresAt, i.revokedAt⟩

/-- With a text from a cookie; `none` is the error for one that is no UUID. -/
def findSessionById (text : JsString) : Option (Option AccessSessionRecord) :=
  if h : isUuid text = true then some (tables.findSessionRecordById ⟨text, h⟩) else none

inductive CreateSessionAnswer where
  | created
  | refused
  | failed
  deriving DecidableEq

/-- The transaction of `createSession`, with the id that its row gets. -/
def createSession (id : Uuid) (input : CreateSessionInput) : AccessTables × CreateSessionAnswer :=
  match tables.invite? input.inviteId with
  | none => (tables, .refused)
  | some invite =>
    if invite.maxSessions ≤ tables.countActive input.inviteId input.now then (tables, .refused)
    else
      match tables.insertSession ⟨id, input.inviteId, input.sessionTokenHash, input.expiresAt, none⟩ with
      | none => (tables, .failed)
      | some inserted => (inserted.useInvite input.inviteId input.now, .created)

end AccessTables

/-! ## Calls -/

inductive AccessCall where
  | createInvite (row : InviteRow)
  | createSession (id : Uuid) (input : CreateSessionInput)
  | revokeSession (id : Uuid) (now : ℤ)
  | revokeInvite (id : Uuid) (now : ℤ)
  deriving DecidableEq

namespace AccessTables

def call (tables : AccessTables) : AccessCall → AccessTables
  | .createInvite row => tables.createInvite row
  | .createSession id input => (tables.createSession id input).1
  | .revokeSession id now => tables.revokeSession id now
  | .revokeInvite id now => tables.revokeInvite id now

/-- The tables behind some calls. -/
def after (tables : AccessTables) (calls : List AccessCall) : AccessTables := calls.foldl call tables

end AccessTables

/-- When the call revokes the session. -/
def AccessCall.revokesSession (id : Uuid) : AccessCall → Option ℤ
  | .revokeSession id' now => if id = id' then some now else none
  | _ => none

/-- When the call revokes the invite. -/
def AccessCall.revokesInvite (id : Uuid) : AccessCall → Option ℤ
  | .revokeInvite id' now => if id = id' then some now else none
  | _ => none

/-! ## Rows behind calls -/

/-- Updates of one row are seen under its id. -/
theorem find?_update {ρ : Type} (key : ρ → Uuid) (id id' : Uuid) (f : ρ → ρ)
    (hf : ∀ row, key (f row) = key row) (rows : List ρ) :
    (rows.map fun row => if key row = id' then f row else row).find? (fun row => key row = id) =
      (rows.find? fun row => key row = id).map fun row => if id = id' then f row else row := by
  induction rows with
  | nil => rfl
  | cons row rows ih =>
    have hkey : key (if key row = id' then f row else row) = key row := by
      split_ifs
      · exact hf row
      · rfl
    rw [List.map_cons, List.find?_cons, List.find?_cons, hkey]
    by_cases hrow : key row = id
    · simp [hrow]
    · simp only [hrow, decide_false]
      exact ih

/-- A row that is found is found behind further rows. -/
theorem find?_append_of_some {ρ : Type} {p : ρ → Bool} {rows : List ρ} {row : ρ}
    (h : rows.find? p = some row) (later : List ρ) : (rows ++ later).find? p = some row := by
  rw [List.find?_append, h, Option.some_or]

namespace AccessTables
variable {tables : AccessTables} {id : Uuid}

theorem invite?_modifyInvite {id' : Uuid} {f : InviteRow → InviteRow} {hf : ∀ row, (f row).id = row.id} :
    (tables.modifyInvite id' f hf).invite? id =
      (tables.invite? id).map fun row => if id = id' then f row else row :=
  find?_update InviteRow.id id id' f hf tables.invites

theorem session?_modifySession {id' : Uuid} {f : SessionRow → SessionRow}
    {hf : ∀ row, (f row).id = row.id} : (tables.modifySession id' f hf).session? id =
      (tables.session? id).map fun row => if id = id' then f row else row :=
  find?_update SessionRow.id id id' f hf tables.sessions

theorem insertSession_eq {row : SessionRow} {inserted : AccessTables}
    (h : tables.insertSession row = some inserted) : tables.sessionConflicts row = false ∧
      inserted.invites = tables.invites ∧ inserted.sessions = tables.sessions ++ [row] := by
  unfold insertSession at h
  split_ifs at h with hconflict
  obtain rfl := Option.some.inj h
  exact ⟨Bool.eq_false_iff.mpr hconflict, rfl, rfl⟩

theorem createInvite_rows (tables : AccessTables) (row : InviteRow) :
    (tables.createInvite row).sessions = tables.sessions ∧
      ∃ later, (tables.createInvite row).invites = tables.invites ++ later := by
  unfold createInvite
  split_ifs
  · exact ⟨rfl, [], (List.append_nil _).symm⟩
  · exact ⟨rfl, _, rfl⟩

/-- The rows behind the transaction of `createSession`. -/
theorem createSession_cases (tables : AccessTables) (id : Uuid) (input : CreateSessionInput) :
    ((tables.createSession id input).1 = tables ∧ (tables.createSession id input).2 ≠ .created) ∨
    ∃ invite inserted, tables.invite? input.inviteId = some invite ∧
      tables.countActive input.inviteId input.now < invite.maxSessions ∧
      tables.insertSession ⟨id, input.inviteId, input.sessionTokenHash, input.expiresAt, none⟩ =
        some inserted ∧
      tables.createSession id input = (inserted.useInvite input.inviteId input.now, .created) := by
  unfold createSession
  cases hinvite : tables.invite? input.inviteId with
  | none => exact .inl ⟨rfl, nofun⟩
  | some invite =>
    dsimp only
    split_ifs with hfull
    · exact .inl ⟨rfl, nofun⟩
    · cases hinserted : tables.insertSession
          ⟨id, input.inviteId, input.sessionTokenHash, input.expiresAt, none⟩ with
      | none => exact .inl ⟨rfl, nofun⟩
      | some inserted => exact .inr ⟨invite, inserted, rfl, not_le.mp hfull, rfl, rfl⟩

theorem session?_insertSession {row : SessionRow} {inserted : AccessTables}
    (h : tables.insertSession row = some inserted) : inserted.session? row.id = some row := by
  obtain ⟨hconflicts, -, hsessions⟩ := insertSession_eq h
  have hnone : tables.sessions.find? (fun other => decide (other.id = row.id)) = none := by
    refine List.find?_eq_none.mpr fun other hother hid => ?_
    refine Bool.eq_false_iff.mp hconflicts (List.any_eq_true.mpr ⟨other, hother, ?_⟩)
    rw [hid, Bool.true_or]
  rw [session?, hsessions, List.find?_append, hnone, Option.none_or]
  exact List.find?_cons_of_pos (decide_eq_true rfl)

/-- A session that has been created can be read. -/
theorem findSessionRecordById_createSession {input : CreateSessionInput}
    (h : (tables.createSession id input).2 = .created) :
    ((tables.createSession id input).1.findSessionRecordById id).isSome := by
  rcases createSession_cases tables id input with ⟨-, hfailed⟩ | ⟨invite, inserted, hinvite, -, hinsert, heq⟩
  · exact absurd h hfailed
  · have hsession := session?_insertSession hinsert
    have hinvite : inserted.invite? input.inviteId = some invite := by
      rw [invite?, (insertSession_eq hinsert).2.1]
      exact hinvite
    rw [heq, findSessionRecordById]
    change ((inserted.session? id).bind _).isSome = true
    rw [hsession, Option.bind_some, Option.isSome_map, useInvite, invite?_modifyInvite, Option.isSome_map,
      hinvite]
    rfl

/-- A session stays as it is, but for its revocation. -/
theorem session?_call {row : SessionRow} (h : tables.session? id = some row) (c : AccessCall) :
    (tables.call c).session? id =
      some { row with revokedAt := (c.revokesSession id).or row.revokedAt } := by
  cases c with
  | createInvite invite =>
    unfold session?
    rw [call, (createInvite_rows tables invite).1]
    exact h
  | createSession newId input =>
    rw [call]
    rcases createSession_cases tables newId input with ⟨hsame, -⟩ | ⟨invite, inserted, -, -, hinsert, heq⟩
    · rw [hsame]
      exact h
    · rw [heq]
      change inserted.sessions.find? _ = _
      rw [(insertSession_eq hinsert).2.2]
      exact find?_append_of_some h _
  | revokeSession id' now =>
    rw [call, revokeSession, session?_modifySession, h, Option.map_some, AccessCall.revokesSession]
    split_ifs <;> rfl
  | revokeInvite id' now => exact h

/-- An invite stays as it is, but for its revocation and its last use. -/
theorem invite?_call {row : InviteRow} (h : tables.invite? id = some row) (c : AccessCall) :
    ∃ lastUsedAt, (tables.call c).invite? id = some { row with
      revokedAt := (c.revokesInvite id).or row.revokedAt, lastUsedAt := lastUsedAt } := by
  cases c with
  | createInvite invite =>
    obtain ⟨-, later, hlater⟩ := createInvite_rows tables invite
    refine ⟨row.lastUsedAt, ?_⟩
    unfold invite?
    rw [call, hlater]
    exact find?_append_of_some h _
  | createSession newId input =>
    rw [call]
    rcases createSession_cases tables newId input with ⟨hsame, -⟩ | ⟨invite, inserted, -, -, hinsert, heq⟩
    · rw [hsame]
      exact ⟨row.lastUsedAt, h⟩
    · have hinvite : inserted.invite? id = some row := by
        unfold invite?
        rw [(insertSession_eq hinsert).2.1]
        exact h
      rw [heq]
      dsimp only
      rw [useInvite, invite?_modifyInvite, hinvite, Option.map_some]
      split_ifs
      · exact ⟨some input.now, rfl⟩
      · exact ⟨row.lastUsedAt, rfl⟩
  | revokeSession id' now => exact ⟨row.lastUsedAt, h⟩
  | revokeInvite id' now =>
    refine ⟨row.lastUsedAt, ?_⟩
    rw [call, revokeInvite, invite?_modifyInvite, h, Option.map_some, AccessCall.revokesInvite]
    split_ifs <;> rfl

theorem session?_after {row : SessionRow} (h : tables.session? id = some row) (calls : List AccessCall) :
    ∃ revokedAt, (tables.after calls).session? id = some { row with revokedAt := revokedAt } ∧
      (revokedAt = none ↔ row.revokedAt = none ∧ ∀ c ∈ calls, c.revokesSession id = none) := by
  induction calls generalizing tables row with
  | nil => exact ⟨row.revokedAt, h, by simp⟩
  | cons c calls ih =>
    obtain ⟨revokedAt, hrow, hiff⟩ := ih (session?_call h c)
    refine ⟨revokedAt, hrow, hiff.trans ?_⟩
    cases hc : c.revokesSession id <;> simp [hc]

theorem invite?_after {row : InviteRow} (h : tables.invite? id = some row) (calls : List AccessCall) :
    ∃ revokedAt lastUsedAt, (tables.after calls).invite? id =
        some { row with revokedAt := revokedAt, lastUsedAt := lastUsedAt } ∧
      (revokedAt = none ↔ row.revokedAt = none ∧ ∀ c ∈ calls, c.revokesInvite id = none) := by
  induction calls generalizing tables row with
  | nil => exact ⟨row.revokedAt, row.lastUsedAt, h, by simp⟩
  | cons c calls ih =>
    obtain ⟨_, hnext⟩ := invite?_call h c
    obtain ⟨revokedAt, lastUsedAt, hrow, hiff⟩ := ih hnext
    refine ⟨revokedAt, lastUsedAt, hrow, hiff.trans ?_⟩
    cases hc : c.revokesInvite id <;> simp [hc]

/-! ## Counts behind calls -/

theorem countActive_revokeSession_le (tables : AccessTables) (id' : Uuid) (now t : ℤ) :
    (tables.revokeSession id' now).countActive id t ≤ tables.countActive id t := by
  unfold countActive revokeSession modifySession
  dsimp only
  rw [List.countP_map]
  refine List.countP_mono_left fun row _ hrow => ?_
  dsimp only [Function.comp] at hrow
  split_ifs at hrow
  · simp [activeSession] at hrow
  · exact hrow

/-- The sessions behind the transaction of `createSession`. -/
theorem createSession_sessions (tables : AccessTables) (id : Uuid) (input : CreateSessionInput) :
    (tables.createSession id input).1.sessions = tables.sessions ∨
      tables.sessionConflicts ⟨id, input.inviteId, input.sessionTokenHash, input.expiresAt, none⟩ = false ∧
      (tables.createSession id input).1.sessions =
        tables.sessions ++ [⟨id, input.inviteId, input.sessionTokenHash, input.expiresAt, none⟩] := by
  rcases createSession_cases tables id input with ⟨hsame, -⟩ | ⟨invite, inserted, -, -, hinsert, heq⟩
  · rw [hsame]
    exact .inl rfl
  · obtain ⟨hconflicts, -, hsessions⟩ := insertSession_eq hinsert
    rw [heq]
    exact .inr ⟨hconflicts, hsessions⟩

/-- A session adds one to what is counted for its invite. -/
theorem countActive_createSession_le (tables : AccessTables) (id newId : Uuid) (input : CreateSessionInput)
    (t : ℤ) : (tables.createSession newId input).1.countActive id t ≤ tables.countActive id t +
      if input.inviteId = id then 1 else 0 := by
  unfold countActive
  rcases createSession_sessions tables newId input with hsame | ⟨-, hmore⟩
  · rw [hsame]
    exact Nat.le_add_right _ _
  · rw [hmore, List.countP_append, List.countP_singleton]
    refine Nat.add_le_add_left ?_ _
    by_cases hid : input.inviteId = id
    · rw [if_pos hid]
      split_ifs <;> omega
    · rw [if_neg hid, if_neg]
      simp [activeSession, hid]

/-- What creates no session of an invite adds nothing to its count. -/
theorem countActive_call_le {c : AccessCall}
    (hc : ∀ newId input, c = .createSession newId input → input.inviteId ≠ id) (t : ℤ) :
    (tables.call c).countActive id t ≤ tables.countActive id t := by
  cases c with
  | createInvite row =>
    rw [call, countActive, (createInvite_rows tables row).1]
    exact Nat.le_refl _
  | createSession newId input =>
    have hle := countActive_createSession_le tables id newId input t
    rwa [if_neg (hc newId input rfl)] at hle
  | revokeSession id' now => exact countActive_revokeSession_le tables id' now t
  | revokeInvite id' now => exact Nat.le_refl _

/-- A count is less at a later time. -/
theorem countActive_anti {t t' : ℤ} (h : t ≤ t') : tables.countActive id t' ≤ tables.countActive id t := by
  refine List.countP_mono_left fun row _ hrow => ?_
  simp only [activeSession, Bool.and_eq_true, decide_eq_true_eq] at hrow ⊢
  exact ⟨hrow.1, Int.lt_of_le_of_lt h hrow.2⟩

/-- Ids and token hashes stay. -/
theorem sessionConflicts_call {row : SessionRow} (h : tables.sessionConflicts row = false) {c : AccessCall}
    (hc : ∀ newId input, c = .createSession newId input →
      ¬(newId = row.id ∨ input.sessionTokenHash = row.sessionTokenHash)) :
    (tables.call c).sessionConflicts row = false := by
  cases c with
  | createInvite invite =>
    rw [call, sessionConflicts, (createInvite_rows tables invite).1]
    exact h
  | createSession newId input =>
    rw [call, sessionConflicts]
    rcases createSession_sessions tables newId input with hsame | ⟨-, hmore⟩
    · rw [hsame]
      exact h
    · have hnew := hc newId input rfl
      rw [not_or] at hnew
      rw [hmore, List.any_append, Bool.or_eq_false_iff]
      exact ⟨h, by simp [hnew.1, hnew.2]⟩
  | revokeSession id' now =>
    rw [call, revokeSession, modifySession, sessionConflicts, List.any_map]
    rw [sessionConflicts] at h
    have hkeys : ∀ other : SessionRow,
        ((fun other : SessionRow => decide (other.id = row.id) ||
          decide (other.sessionTokenHash = row.sessionTokenHash)) ∘ fun other =>
            if other.id = id' then { other with revokedAt := some now } else other) other =
          (decide (other.id = row.id) || decide (other.sessionTokenHash = row.sessionTokenHash)) := by
      intro other
      dsimp only [Function.comp]
      split_ifs <;> rfl
    rw [funext hkeys]
    exact h
  | revokeInvite id' now => exact h

/-- A session that can be read can be read later. -/
theorem findSessionRecordById_call (h : (tables.findSessionRecordById id).isSome) (c : AccessCall) :
    ((tables.call c).findSessionRecordById id).isSome := by
  obtain ⟨record, hrecord⟩ := Option.isSome_iff_exists.mp h
  obtain ⟨row, hrow, hinvite⟩ := Option.bind_eq_some_iff.mp hrecord
  obtain ⟨invite, hinvite, -⟩ := Option.map_eq_some_iff.mp hinvite
  obtain ⟨lastUsedAt, hinvite⟩ := invite?_call hinvite c
  rw [findSessionRecordById, session?_call hrow c, Option.bind_some]
  dsimp only
  rw [hinvite]
  rfl

end AccessTables
end CodeShare.Access
