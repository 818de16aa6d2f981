import CodeShare.Access.PrivateAccess
import CodeShare.Properties.SessionLifecycle

/-! # Nobody enters without a session

Whatever requests, commands and failures interleave: who passes a check presents the cookie of a session that an
earlier login was granted for the code of an invite. Since then neither the session nor the invite has been revoked,
and the session's time is not over.
-/

namespace CodeShare.Access
open Tasks
set_option autoImplicit false

/-! ## What has been performed -/

def AccessOutput.call : AccessOutput → Option AccessCall
  | performed call => some call
  | _ => none

def calls (out : List AccessOutput) : List AccessCall := out.filterMap AccessOutput.call

theorem calls_append (out out' : List AccessOutput) : calls (out ++ out') = calls out ++ calls out' :=
  List.filterMap_append

/-- The invite is one of the first, or has been stored: no unique index refused it. -/
def Issued (start : AccessTables) (out : List AccessOutput) (row : InviteRow) : Prop :=
  row ∈ start.invites ∨ ∃ before later, out = before ++ .performed (.createInvite row) :: later ∧
    (start.after (calls before)).inviteConflicts row = false

/-- The code is the one of an issued invite. -/
def CodeOf (options : AccessServiceOptions) (start : AccessTables) (out : List AccessOutput) (code : JsString)
    (inviteId : Uuid) : Prop :=
  ∃ row, Issued start out row ∧ row.id = inviteId ∧
    verifyInviteCodeHash options.crypto code row.codeHash = true

/-- The header has the cookie of the session. -/
def Presents (options : AccessServiceOptions) (cookie : Option JsString) (sessionId : Uuid) (grant : Grant) :
    Prop :=
  ∃ value token, extractCookie cookie options.cookieName = .value value ∧
    parseCookieValue options value = some (sessionId.1, token) ∧
    timingSafeStringEqual (createSessionTokenHash options grant.token.text)
      (createSessionTokenHash options token) = true

/-- The session was granted, has not been revoked since, nor its invite, and is not too old. -/
def GrantedBefore (options : AccessServiceOptions) (past : List AccessOutput) (cookie : Option JsString)
    (checkedAt : ℤ) (session : ValidatedSession) : Prop :=
  ∃ before grant after, past = before ++ .granted session.id grant :: after ∧
    grant.inviteId = session.inviteId ∧ Presents options cookie session.id grant ∧
    checkedAt < grant.loginAt + options.sessionTtlDays * dayMs ∧
    ∀ call ∈ calls after, call.revokesSession session.id = none ∧ call.revokesInvite session.inviteId = none

/-- What an output needs to have before it. -/
def Justified (options : AccessServiceOptions) (enabled : Bool) (start : AccessTables) (past : List AccessOutput) :
    AccessOutput → Prop
  | .entered entry _ _ none => enabled = false ∨ entry.isPublic = true
  | .entered _ cookie checkedAt (some session) => GrantedBefore options past cookie checkedAt session
  | .granted _ grant => CodeOf options start past grant.code grant.inviteId
  | _ => True

/-- Each output is justified by those before it. -/
def AllJustified (options : AccessServiceOptions) (enabled : Bool) (start : AccessTables)
    (out : List AccessOutput) : Prop :=
  ∀ past x later, out = past ++ x :: later → Justified options enabled start past x

/-- The session of a row was granted, and is unrevoked only if nobody has revoked it, nor its invite. -/
structure Backed (options : AccessServiceOptions) (tables : AccessTables) (id : Uuid) (row : SessionRow)
    (grant : Grant) (after : List AccessOutput) : Prop where
  invite : row.inviteId = grant.inviteId
  token : row.sessionTokenHash = createSessionTokenHash options grant.token.text
  expires : row.expiresAt = grant.loginAt + options.sessionTtlDays * dayMs
  kept : row.revokedAt = none → ∀ call ∈ calls after, call.revokesSession id = none
  inviteKept : ∃ invite, tables.invite? grant.inviteId = some invite ∧
    (invite.revokedAt = none → ∀ call ∈ calls after, call.revokesInvite grant.inviteId = none)

/-! ## Rows behind a call -/

section
variable {options : AccessServiceOptions} {start tables : AccessTables} {out : List AccessOutput}

theorem Issued.append {row : InviteRow} (h : Issued start out row) (later : List AccessOutput) :
    Issued start (out ++ later) row := by
  refine h.imp_right ?_
  rintro ⟨before, after, rfl, hstored⟩
  exact ⟨before, after ++ later, by simp, hstored⟩

theorem CodeOf.append {code : JsString} {inviteId : Uuid} (h : CodeOf options start out code inviteId)
    (later : List AccessOutput) : CodeOf options start (out ++ later) code inviteId := by
  obtain ⟨row, hissued, hrow⟩ := h
  exact ⟨row, hissued.append later, hrow⟩

/-- An update leaves the ids and the code hashes. -/
theorem mem_modifyInvite {id : Uuid} {f : InviteRow → InviteRow} {hf : ∀ row, (f row).id = row.id}
    {invite : InviteRow} (h : invite ∈ (tables.modifyInvite id f hf).invites)
    (hcode : ∀ row, (f row).codeHash = row.codeHash) :
    ∃ row ∈ tables.invites, row.id = invite.id ∧ row.codeHash = invite.codeHash := by
  obtain ⟨row, hrow, rfl⟩ := List.mem_map.mp h
  refine ⟨row, hrow, ?_⟩
  split_ifs
  · exact ⟨(hf row).symm, (hcode row).symm⟩
  · exact ⟨rfl, rfl⟩

theorem mem_invites_call {call : AccessCall} {invite : InviteRow} (h : invite ∈ (tables.call call).invites) :
    (∃ row ∈ tables.invites, row.id = invite.id ∧ row.codeHash = invite.codeHash) ∨
      ∃ row, call = .createInvite row ∧ tables.inviteConflicts row = false ∧ row.id = invite.id ∧
        row.codeHash = invite.codeHash := by
  cases call with
  | createInvite row =>
    simp only [AccessTables.call, AccessTables.createInvite] at h
    split_ifs at h with hconflict
    · exact .inl ⟨invite, h, rfl, rfl⟩
    · rcases List.mem_append.mp h with hold | hnew
      · exact .inl ⟨invite, hold, rfl, rfl⟩
      · rw [List.mem_singleton.mp hnew]
        exact .inr ⟨row, rfl, Bool.eq_false_iff.mpr hconflict, rfl, rfl⟩
  | createSession id input =>
    rw [AccessTables.call] at h
    rcases AccessTables.createSession_cases tables id input with ⟨hsame, -⟩ |
      ⟨_, inserted, -, -, hinsert, heq⟩
    · rw [hsame] at h
      exact .inl ⟨invite, h, rfl, rfl⟩
    · rw [heq] at h
      dsimp only [AccessTables.useInvite] at h
      obtain ⟨row, hrow, hsame⟩ := mem_modifyInvite h fun _ => rfl
      rw [(AccessTables.insertSession_eq hinsert).2.1] at hrow
      exact .inl ⟨row, hrow, hsame⟩
  | revokeSession id now => exact .inl ⟨invite, h, rfl, rfl⟩
  | revokeInvite id now =>
    rw [AccessTables.call, AccessTables.revokeInvite] at h
    exact .inl (mem_modifyInvite h fun _ => rfl)

/-- A session behind a call was there before, or the call has created it. -/
theorem session?_call_cases {call : AccessCall} {id : Uuid} {row : SessionRow}
    (h : (tables.call call).session? id = some row) :
    (∃ old, tables.session? id = some old ∧
      row = { old with revokedAt := (call.revokesSession id).or old.revokedAt }) ∨
    ∃ input, call = .createSession id input ∧
      row = ⟨id, input.inviteId, input.sessionTokenHash, input.expiresAt, none⟩ := by
  cases hold : tables.session? id with
  | some old =>
    rw [AccessTables.session?_call hold] at h
    exact .inl ⟨old, rfl, (Option.some.inj h).symm⟩
  | none =>
    refine .inr ?_
    cases call with
    | createInvite invite =>
      rw [AccessTables.call, AccessTables.session?, (AccessTables.createInvite_rows tables invite).1] at h
      rw [AccessTables.session?, h] at hold
      cases hold
    | createSession newId input =>
      rw [AccessTables.call] at h
      rcases AccessTables.createSession_sessions tables newId input with hsame | ⟨-, hmore⟩
      · rw [AccessTables.session?, hsame] at h
        rw [AccessTables.session?, h] at hold
        cases hold
      · rw [AccessTables.session?, hmore, List.find?_append, ← AccessTables.session?, hold, Option.none_or] at h
        have hid := List.find?_some h
        obtain rfl := List.mem_singleton.mp (List.mem_of_find?_eq_some h)
        obtain rfl : newId = id := of_decide_eq_true hid
        exact ⟨input, rfl, rfl⟩
    | revokeSession id' now =>
      rw [AccessTables.call, AccessTables.revokeSession, AccessTables.session?_modifySession, hold] at h
      cases h
    | revokeInvite id' now =>
      change tables.session? id = some row at h
      rw [hold] at h
      cases h

end

/-! ## Segments -/

/-- The outputs of a segment that perform nothing and grant nothing. -/
def Plain (out : List AccessOutput) : Prop :=
  calls out = [] ∧ ∀ x ∈ out, ∀ id grant, x ≠ .granted id grant

/-- What a segment does to the tables. -/
inductive TableMove (options : AccessServiceOptions) (s : AccessServer) (taken : List AccessTask)
    (g : AccessSegment) : Prop where
  | quiet (htables : g.state.tables = s.tables) (hout : Plain g.out)
  | called (call : AccessCall) (rest : List AccessOutput) (hcreates : ∀ id input, call ≠ .createSession id input)
      (htables : g.state.tables = s.tables.call call) (hout : g.out = .performed call :: rest) (hrest : Plain rest)
  | granted (sessionId : Uuid) (code : JsString) (invite : InviteRow) (now : ℤ) (token : Digest)
      (rest : List AccessOutput) (htaken : taken = [.creating code invite now])
      (hcreated : (s.tables.createSession sessionId (grantInput options invite token now)).2 = .created)
      (htables : g.state.tables =
        s.tables.call (.createSession sessionId (grantInput options invite token now)))
      (hout : g.out = .performed (.createSession sessionId (grantInput options invite token now)) ::
        .granted sessionId ⟨code, invite.id, token, now⟩ :: rest)
      (hrest : Plain rest)

/-- A login that may make a session: its code is the one of an invite in the tables. -/
def AccessTask.Verified (options : AccessServiceOptions) (tables : AccessTables) : AccessTask → Prop
  | creating code invite _ =>
    invite ∈ tables.invites ∧ verifyInviteCodeHash options.crypto code invite.codeHash = true
  | _ => True

/-- A segment enters only behind a check, and does nothing else then. -/
def Enters (options : AccessServiceOptions) (enabled : Bool) (tables : AccessTables) (out : List AccessOutput) :
    Prop :=
  ∀ entry cookie checkedAt found, .entered entry cookie checkedAt found ∈ out →
    out = [.entered entry cookie checkedAt found] ∧
      (found = none ∧ (enabled = false ∨ entry.isPublic = true) ∨
        ∃ session, found = some session ∧
          validateCookieHeader options tables cookie checkedAt = some (.allowed session))

structure AccessStep (options : AccessServiceOptions) (enabled : Bool) (s : AccessServer)
    (taken : List AccessTask) (g : AccessSegment) : Prop where
  move : TableMove options s taken g
  next : ∀ task ∈ g.next, task.Verified options s.tables
  enters : Enters options enabled s.tables g.out

section
variable {options : AccessServiceOptions} {enabled : Bool} {s : AccessServer} {taken : List AccessTask}
  {g : AccessSegment}

theorem plain_nil : Plain [] := ⟨rfl, List.forall_mem_nil _⟩

theorem plain_replied (answer : AccessReply) : Plain [.replied answer] :=
  ⟨rfl, by simp⟩

theorem enters_of_plain {tables : AccessTables} {out : List AccessOutput}
    (h : ∀ entry cookie checkedAt found, .entered entry cookie checkedAt found ∉ out) :
    Enters options enabled tables out :=
  fun entry cookie checkedAt found hmem => absurd hmem (h entry cookie checkedAt found)

theorem AccessStep.reply (answer : AccessReply) : AccessStep options enabled s taken (reply s answer) where
  move := .quiet rfl (plain_replied answer)
  next := List.forall_mem_nil _
  enters := enters_of_plain (by simp [Access.reply])

theorem AccessStep.suspend {task : AccessTask} (h : task.Verified options s.tables) :
    AccessStep options enabled s taken ((Segment.of s).suspend task) where
  move := .quiet rfl plain_nil
  next := by simpa using h
  enters := enters_of_plain (by simp)

theorem AccessStep.perform {call : AccessCall} (h : ∀ id input, call ≠ .createSession id input) :
    AccessStep options enabled s taken (performCall s call) where
  move := .called call [] h rfl rfl plain_nil
  next := List.forall_mem_nil _
  enters := enters_of_plain (by simp [performCall])

theorem afterCheck_step (cookie : Option JsString) (now : ℤ) (found : Option AccessValidationResult)
    (purpose : CheckPurpose) (hfound : ∀ session, found = some (.allowed session) →
      validateCookieHeader options s.tables cookie now = some (.allowed session)) :
    AccessStep options enabled s taken (afterCheck s cookie now found purpose) := by
  unfold afterCheck
  split
  · split
    · rename_i entry session
      refine ⟨.quiet rfl ⟨rfl, by simp⟩, List.forall_mem_nil _, fun entry' cookie' now' found' hmem => ?_⟩
      simp only [Segment.emit_out, Segment.of_out, List.nil_append, List.mem_singleton,
        AccessOutput.entered.injEq] at hmem
      obtain ⟨rfl, rfl, rfl, rfl⟩ := hmem
      exact ⟨rfl, .inr ⟨session, rfl, hfound session rfl⟩⟩
    · exact ⟨.quiet rfl ⟨rfl, by simp⟩, List.forall_mem_nil _, enters_of_plain (by simp)⟩
  · split <;> exact .reply _
  · split
    · exact .reply _
    · split
      · exact .reply _
      · exact .suspend trivial

theorem receiveRequest_step (request : AccessRequest) :
    AccessStep options enabled s taken (receiveRequest options enabled s request) := by
  unfold receiveRequest
  cases request with
  | enter entry cookie =>
    dsimp only
    split_ifs with hopen
    · refine ⟨.quiet rfl ⟨rfl, by simp⟩, List.forall_mem_nil _, fun entry' cookie' now' found' hmem => ?_⟩
      simp only [Segment.emit_out, Segment.of_out, List.nil_append, List.mem_singleton,
        AccessOutput.entered.injEq] at hmem
      obtain ⟨rfl, rfl, rfl, rfl⟩ := hmem
      exact ⟨rfl, .inl ⟨rfl, by simpa using hopen⟩⟩
    · exact .suspend trivial
  | session cookie =>
    dsimp only
    split_ifs
    · exact .suspend trivial
    · exact .reply _
  | login cookie code =>
    dsimp only
    split_ifs
    · exact .suspend trivial
    · exact .reply _
  | logout cookie =>
    dsimp only
    split_ifs
    · split
      · exact .suspend trivial
      · exact .reply _
    · exact .reply _

/-- A session is granted, or nothing happens. -/
theorem grantSession_cases (s : AccessServer) (code : JsString) (invite : InviteRow) (now : ℤ) (sessionId : Uuid)
    (token : Digest) :
    (grantSession options s code invite now sessionId token).1 = .of s ∧
      (grantSession options s code invite now sessionId token).2 ≠ .created ∨
    (s.tables.createSession sessionId (grantInput options invite token now)).2 = .created ∧
      grantSession options s code invite now sessionId token =
        ((performCall s (.createSession sessionId (grantInput options invite token now))).emit
          (.granted sessionId ⟨code, invite.id, token, now⟩), .created) := by
  unfold grantSession
  split
  · rename_i hcreated
    exact .inr ⟨hcreated, rfl⟩
  · rename_i hanswer
    exact .inl ⟨rfl, hanswer⟩

/-- The invite that a login has found. -/
theorem verified_of_found {code : JsString} {now : ℤ} {invite : InviteRow} {tables : AccessTables}
    {p : InviteRow → Bool} (h : (tables.listUsableInvites now).find? p = some invite)
    (hp : p invite = true → verifyInviteCodeHash options.crypto code invite.codeHash = true) :
    (AccessTask.creating code invite now).Verified options tables := by
  have hmem := List.mem_filter.mp (List.mem_reverse.mp (List.mem_of_find?_eq_some h))
  exact ⟨hmem.1, hp (List.find?_some h)⟩

theorem grantSession_step {code : JsString} {invite : InviteRow} {now : ℤ} {sessionId : Uuid} {token : Digest}
    (answer : AccessReply)
    (hg : g = (grantSession options s code invite now sessionId token).1.emit (.replied answer) ∨
      g = (grantSession options s code invite now sessionId token).1.suspend (.reading sessionId token now)) :
    AccessStep options enabled s [.creating code invite now] g := by
  rcases grantSession_cases s code invite now sessionId token with ⟨hsame, -⟩ | ⟨hcreated, heq⟩
  · rw [hsame] at hg
    rcases hg with rfl | rfl
    · exact .reply _
    · exact .suspend trivial
  · rw [heq] at hg
    rcases hg with rfl | rfl
    · refine ⟨.granted sessionId code invite now token [.replied answer] rfl hcreated rfl rfl (plain_replied _),
        List.forall_mem_nil _, enters_of_plain (by simp [performCall])⟩
    · refine ⟨.granted sessionId code invite now token [] rfl hcreated rfl rfl plain_nil, ?_,
        enters_of_plain (by simp [performCall])⟩
      simp [performCall, AccessTask.Verified]

theorem resume_step {task : AccessTask} {o : StatementEnd} (h : accessResume options s task o = some g) :
    AccessStep options enabled s [task] g := by
  unfold accessResume at h
  split at h
  · cases h
    exact afterCheck_step _ _ _ _ fun _ hfound => hfound
  · cases h
    exact afterCheck_step _ _ _ _ nofun
  · split at h
    · rename_i invite hinvite
      split_ifs at h with hcode <;> cases h
      · exact .suspend ⟨List.mem_of_find?_eq_some hinvite, hcode⟩
      · exact .reply _
    · cases h
      exact .suspend trivial
  · split at h <;> cases h
    · rename_i invite hinvite
      exact .suspend (verified_of_found hinvite fun hp => (Bool.and_eq_true_iff.mp hp).2)
    · exact .reply _
  · split at h <;> cases h <;> rename_i heq
    · exact grantSession_step .error (.inr (by rw [heq]))
    · exact grantSession_step _ (.inl (by rw [heq]))
    · exact grantSession_step _ (.inl (by rw [heq]))
  · cases h
    exact grantSession_step _ (.inl rfl)
  · split at h
    · cases h
      exact .reply _
    · split at h <;> cases h <;> exact .reply _
  · split_ifs at h with huuid <;> cases h
    · exact ⟨.called (.revokeSession ⟨_, huuid⟩ _) [.replied .unauthenticated] (fun _ _ => nofun) rfl rfl
        (plain_replied _), List.forall_mem_nil _, enters_of_plain (by simp [performCall])⟩
    · exact .reply _
  · cases h
  · cases h
    exact .reply _
  · cases h

theorem fire_accessStep {t : Trigger AccessServerEvent AccessTask StatementEnd}
    (h : (accessServer options enabled).fire s t = some g) : AccessStep options enabled s t.taken g := by
  cases t with
  | task task o => exact resume_step h
  | event e =>
    change accessHandle options enabled s e = some g at h
    cases e <;> cases h
    · exact receiveRequest_step _
    · exact .perform fun _ _ => nofun
    · exact .perform fun _ _ => nofun
    · exact ⟨.quiet rfl plain_nil, List.forall_mem_nil _, enters_of_plain (by simp)⟩

end

/-! ## The invariant -/

/-- What is known of a suspended request. -/
def AccessTask.CodeKnown (options : AccessServiceOptions) (start : AccessTables) (out : List AccessOutput) :
    AccessTask → Prop
  | creating code invite _ => CodeOf options start out code invite.id
  | _ => True

structure Mediated (options : AccessServiceOptions) (enabled : Bool) (start : AccessTables)
    (c : Conf AccessServer AccessTask) (out : List AccessOutput) : Prop where
  replayed : c.shared.tables = start.after (calls out)
  issued : ∀ invite ∈ c.shared.tables.invites,
    ∃ row, Issued start out row ∧ row.id = invite.id ∧ row.codeHash = invite.codeHash
  waiting : ∀ task ∈ c.pool, task.CodeKnown options start out
  backed : ∀ id row, c.shared.tables.session? id = some row →
    ∃ before grant after, out = before ++ .granted id grant :: after ∧
      Backed options c.shared.tables id row grant after
  justified : AllJustified options enabled start out

section
variable {options : AccessServiceOptions} {enabled : Bool} {start tables : AccessTables}
  {out more : List AccessOutput}

theorem AllJustified.append (h : AllJustified options enabled start out)
    (hmore : ∀ past x later, more = past ++ x :: later → Justified options enabled start (out ++ past) x) :
    AllJustified options enabled start (out ++ more) := by
  intro past x later hsplit
  rcases List.append_eq_append_iff.mp hsplit with ⟨front, rfl, hrest⟩ | ⟨back, rfl, hback⟩
  · exact hmore front x later hrest
  · cases back with
    | nil =>
      rw [← List.append_nil past]
      have hpast := hmore [] x later hback.symm
      rwa [List.append_nil] at hpast
    | cons y back =>
      obtain ⟨rfl, -⟩ := List.cons.inj hback
      exact h past x back rfl

theorem Backed.quiet {id : Uuid} {row : SessionRow} {grant : Grant} {after : List AccessOutput}
    (h : Backed options tables id row grant after) (hmore : calls more = []) :
    Backed options tables id row grant (after ++ more) where
  invite := h.invite
  token := h.token
  expires := h.expires
  kept hrow := by
    rw [calls_append, hmore, List.append_nil]
    exact h.kept hrow
  inviteKept := by
    rw [calls_append, hmore, List.append_nil]
    exact h.inviteKept

theorem Backed.call {id : Uuid} {row : SessionRow} {grant : Grant} {after : List AccessOutput}
    {call : AccessCall} (h : Backed options tables id row grant after) (hmore : calls more = [call]) :
    Backed options (tables.call call) id
      { row with revokedAt := (call.revokesSession id).or row.revokedAt } grant (after ++ more) where
  invite := h.invite
  token := h.token
  expires := h.expires
  kept hrow := by
    obtain ⟨hcall, hold⟩ := Option.or_eq_none_iff.mp hrow
    rw [calls_append, hmore]
    exact List.forall_mem_append.mpr ⟨h.kept hold, by simpa using hcall⟩
  inviteKept := by
    obtain ⟨invite, hinvite, hkept⟩ := h.inviteKept
    obtain ⟨lastUsedAt, hnext⟩ := AccessTables.invite?_call hinvite call
    refine ⟨_, hnext, fun hnone => ?_⟩
    obtain ⟨hcall, hold⟩ := Option.or_eq_none_iff.mp hnone
    rw [calls_append, hmore]
    exact List.forall_mem_append.mpr ⟨hkept hold, by simpa using hcall⟩

/-- The session that a check lets in was granted. -/
theorem grantedBefore_of_allowed
    (hbacked : ∀ id row, tables.session? id = some row → ∃ before grant after,
      out = before ++ .granted id grant :: after ∧ Backed options tables id row grant after)
    {cookie : Option JsString} {now : ℤ} {session : ValidatedSession}
    (h : validateCookieHeader options tables cookie now = some (.allowed session)) :
    GrantedBefore options out cookie now session := by
  unfold validateCookieHeader at h
  split at h
  · cases h
  · cases h
  · rename_i value hvalue
    split at h
    · cases h
    · rename_i sessionId token hparsed
      split at h
      · cases h
      · cases h
      · rename_i record hrecord
        split_ifs at h with hsame
        · unfold AccessTables.findSessionById at hrecord
          split_ifs at hrecord with huuid
          obtain ⟨row, hrow, hinvited⟩ := Option.bind_eq_some_iff.mp (Option.some.inj hrecord)
          obtain ⟨invite, hinvite, rfl⟩ := Option.map_eq_some_iff.mp hinvited
          obtain ⟨⟨hrevoked, hinviteRevoked, hexpiry, -⟩, rfl⟩ := judgeSession_eq_allowed.mp (Option.some.inj h)
          have hfound := List.find?_some hrow
          have hid : row.id = ⟨sessionId, huuid⟩ := of_decide_eq_true hfound
          obtain ⟨before, grant, after, hsplit, hback⟩ := hbacked _ row hrow
          obtain ⟨invite', hinvite', hkept⟩ := hback.inviteKept
          rw [hback.invite, hinvite'] at hinvite
          obtain rfl := Option.some.inj hinvite
          refine ⟨before, grant, after, by rw [hid]; exact hsplit, hback.invite.symm, ?_, ?_, fun call hcall => ?_⟩
          · exact ⟨value, token, hvalue, by rw [hid]; exact hparsed, by rw [← hback.token]; exact hsame⟩
          · rw [← hback.expires]
            exact hexpiry
          · refine ⟨?_, ?_⟩
            · rw [hid]
              exact hback.kept hrevoked call hcall
            · rw [hback.invite]
              exact hkept hinviteRevoked call hcall
        · cases h

/-! ## Steps -/

variable {c c' : Conf AccessServer AccessTask} {t : Trigger AccessServerEvent AccessTask StatementEnd}
  {g : AccessSegment} {rest : List AccessTask}

/-- A new session has its grant right before. -/
theorem Backed.created {sessionId : Uuid} {code : JsString} {invite : InviteRow} {now : ℤ} {token : Digest}
    (hcreated : (tables.createSession sessionId (grantInput options invite token now)).2 = .created)
    (hmore : calls more = []) :
    Backed options (tables.call (.createSession sessionId (grantInput options invite token now))) sessionId
      ⟨sessionId, invite.id, createSessionTokenHash options token.text,
        now + options.sessionTtlDays * dayMs, none⟩ ⟨code, invite.id, token, now⟩ more where
  invite := rfl
  token := rfl
  expires := rfl
  kept _ := by simp [hmore]
  inviteKept := by
    rcases AccessTables.createSession_cases tables sessionId (grantInput options invite token now) with
      ⟨-, hnot⟩ | ⟨row, -, hrow, -⟩
    · exact absurd hcreated hnot
    · obtain ⟨lastUsedAt, hnext⟩ := AccessTables.invite?_call hrow
        (.createSession sessionId (grantInput options invite token now))
      exact ⟨_, hnext, fun _ => by simp [hmore]⟩

theorem Mediated.issued_step (h : Mediated options enabled start c out)
    (hmove : TableMove options c.shared t.taken g) :
    ∀ invite ∈ g.state.tables.invites,
      ∃ row, Issued start (out ++ g.out) row ∧ row.id = invite.id ∧ row.codeHash = invite.codeHash := by
  have hold : ∀ invite ∈ c.shared.tables.invites,
      ∃ row, Issued start (out ++ g.out) row ∧ row.id = invite.id ∧ row.codeHash = invite.codeHash := by
    intro invite hinvite
    obtain ⟨row, hissued, hrow⟩ := h.issued invite hinvite
    exact ⟨row, hissued.append _, hrow⟩
  have hcall : ∀ (call : AccessCall) (later : List AccessOutput), g.out = .performed call :: later →
      g.state.tables = c.shared.tables.call call → ∀ invite ∈ g.state.tables.invites,
        ∃ row, Issued start (out ++ g.out) row ∧ row.id = invite.id ∧ row.codeHash = invite.codeHash := by
    intro call later hout htables invite hinvite
    rw [htables] at hinvite
    rcases mem_invites_call hinvite with ⟨old, hmem, hid, hcode⟩ | ⟨row, rfl, hstored, hrow⟩
    · obtain ⟨row, hissued, hrow, hhash⟩ := hold old hmem
      exact ⟨row, hissued, hrow.trans hid, hhash.trans hcode⟩
    · rw [h.replayed] at hstored
      exact ⟨row, .inr ⟨out, later, by rw [hout], hstored⟩, hrow⟩
  cases hmove with
  | quiet htables => rwa [htables]
  | called call later _ htables hout => exact hcall call later hout htables
  | granted sessionId code invite now token later _ _ htables hout => exact hcall _ _ hout htables

/-- The tables are what the calls have made of them. -/
theorem Mediated.replayed_step (h : Mediated options enabled start c out)
    (hmove : TableMove options c.shared t.taken g) : g.state.tables = start.after (calls (out ++ g.out)) := by
  rw [calls_append, AccessTables.after, List.foldl_append]
  change _ = (calls g.out).foldl AccessTables.call (start.after (calls out))
  rw [← h.replayed]
  cases hmove with
  | quiet htables hout => rw [htables, hout.1]; rfl
  | called call later _ htables hout hlater =>
    have hcalls : calls g.out = [call] := by
      rw [hout]
      exact congrArg (call :: ·) hlater.1
    rw [htables, hcalls]
    rfl
  | granted sessionId code invite now token later _ _ htables hout hlater =>
    have hcalls : calls g.out = [.createSession sessionId (grantInput options invite token now)] := by
      rw [hout]
      exact congrArg (_ :: ·) hlater.1
    rw [htables, hcalls]
    rfl

theorem Mediated.backed_step (h : Mediated options enabled start c out)
    (hmove : TableMove options c.shared t.taken g) :
    ∀ id row, g.state.tables.session? id = some row →
      ∃ before grant after, out ++ g.out = before ++ .granted id grant :: after ∧
        Backed options g.state.tables id row grant after := by
  intro id row hrow
  have hcall : ∀ call : AccessCall, calls g.out = [call] → g.state.tables = c.shared.tables.call call →
      ∀ old, c.shared.tables.session? id = some old →
        row = { old with revokedAt := (call.revokesSession id).or old.revokedAt } →
        ∃ before grant after, out ++ g.out = before ++ .granted id grant :: after ∧
          Backed options g.state.tables id row grant after := by
    rintro call hcalls htables old hold rfl
    obtain ⟨before, grant, after, rfl, hback⟩ := h.backed id old hold
    refine ⟨before, grant, after ++ g.out, by simp, ?_⟩
    rw [htables]
    exact hback.call hcalls
  cases hmove with
  | quiet htables hout =>
    rw [htables] at hrow ⊢
    obtain ⟨before, grant, after, rfl, hback⟩ := h.backed id row hrow
    exact ⟨before, grant, after ++ g.out, by simp, hback.quiet hout.1⟩
  | called call later hcreates htables hout hrest =>
    have hcalls : calls g.out = [call] := by
      rw [hout]
      exact congrArg (call :: ·) hrest.1
    rw [htables] at hrow
    rcases session?_call_cases hrow with ⟨old, hold, hsame⟩ | ⟨input, hnew, -⟩
    · exact hcall call hcalls htables old hold hsame
    · exact absurd hnew (hcreates id input)
  | granted sessionId code invite now token later _ hcreated htables hout hrest =>
    have hcalls : calls g.out = [.createSession sessionId (grantInput options invite token now)] := by
      rw [hout]
      exact congrArg (_ :: ·) hrest.1
    rw [htables] at hrow
    rcases session?_call_cases hrow with ⟨old, hold, hsame⟩ | ⟨input, hnew, rfl⟩
    · exact hcall _ hcalls htables old hold hsame
    · obtain ⟨rfl, rfl⟩ := AccessCall.createSession.inj hnew
      refine ⟨out ++ [.performed (.createSession sessionId (grantInput options invite token now))],
        ⟨code, invite.id, token, now⟩, later, by rw [hout]; simp, ?_⟩
      rw [htables]
      exact .created hcreated hrest.1

theorem Mediated.justified_step (h : Mediated options enabled start c out)
    (hstep : AccessStep options enabled c.shared t.taken g) (htaken : ∀ task ∈ t.taken, task ∈ c.pool) :
    AllJustified options enabled start (out ++ g.out) := by
  refine h.justified.append fun past x later hsplit => ?_
  have hmem : x ∈ g.out := by simp [hsplit]
  cases x with
  | entered entry cookie checkedAt found =>
    obtain ⟨hsingle, hcase⟩ := hstep.enters entry cookie checkedAt found hmem
    obtain rfl : past = [] := by
      rw [hsingle] at hsplit
      cases past with
      | nil => rfl
      | cons y past => simp at hsplit
    rw [List.append_nil]
    rcases hcase with ⟨rfl, hopen⟩ | ⟨session, rfl, hallowed⟩
    · exact hopen
    · exact grantedBefore_of_allowed h.backed hallowed
  | granted sessionId grant =>
    cases hstep.move with
    | quiet _ hout => exact absurd rfl (hout.2 _ hmem sessionId grant)
    | called call rest _ _ hout hrest =>
      rw [hout] at hmem
      exact absurd rfl (hrest.2 _ (by simpa using hmem) sessionId grant)
    | granted sessionId' code invite now token rest hcreating _ _ hout hrest =>
      rw [hout] at hmem
      simp only [List.mem_cons, reduceCtorEq, false_or] at hmem
      rcases hmem with hsame | hmem
      · obtain ⟨-, rfl⟩ := AccessOutput.granted.inj hsame
        have hwaiting := h.waiting _ (htaken _ (by rw [hcreating]; exact List.mem_singleton_self _))
        exact CodeOf.append hwaiting past
      · exact absurd rfl (hrest.2 _ hmem sessionId grant)
  | refused entry => trivial
  | replied answer => trivial
  | performed call => trivial

theorem mediated_step (h : Mediated options enabled start c out) {more : List AccessOutput}
    (hby : (accessServer options enabled).StepBy c c' more t g rest) :
    Mediated options enabled start c' (out ++ more) := by
  have hstep := fire_accessStep hby.fire
  have htaken : ∀ task ∈ t.taken, task ∈ c.pool := fun task hm => hby.mem_of_taken hm
  rw [hby.out]
  refine ⟨?_, ?_, fun task hm => ?_, ?_, h.justified_step hstep htaken⟩
  · rw [hby.shared]
    exact h.replayed_step hstep.move
  · rw [hby.shared]
    exact h.issued_step hstep.move
  · rcases hby.mem_after hm with hm | hm
    · have hwaiting := h.waiting task (hby.mem_of_rest hm)
      cases task with
      | creating code invite now => exact CodeOf.append hwaiting _
      | _ => trivial
    · have hverified := hstep.next task hm
      cases task with
      | creating code invite now =>
        obtain ⟨hinvite, hcode⟩ := hverified
        obtain ⟨row, hissued, hid, hhash⟩ := h.issued invite hinvite
        exact ⟨row, hissued.append _, hid, by rw [hhash]; exact hcode⟩
      | _ => trivial
  · rw [hby.shared]
    exact h.backed_step hstep.move

theorem initial_mediated (options : AccessServiceOptions) (enabled : Bool) {start : AccessTables}
    (hstart : start.sessions = []) (now : ℤ) : Mediated options enabled start ⟨⟨start, now⟩, []⟩ [] where
  replayed := rfl
  issued invite hinvite := ⟨invite, .inl hinvite, rfl, rfl⟩
  waiting := List.forall_mem_nil _
  backed id row hrow := by
    rw [AccessTables.session?, hstart] at hrow
    cases hrow
  justified past x later hsplit := by simp at hsplit

end

/-! ## Runs -/

/-- The routes of rooms and problems are behind the check. -/
theorem isPublicAccessPath_eq_false {url : JsString}
    (h : js "/api/rooms" <+: pathname url ∨ js "/api/problems" <+: pathname url) :
    isPublicAccessPath url = false := by
  have haccess : ¬ js "/api/access/" <+: pathname url := by
    intro haccess
    rcases h with h | h
    · exact absurd (List.prefix_of_prefix_length_le h haccess (by decide)) (by decide)
    · exact absurd (List.prefix_of_prefix_length_le haccess h (by decide)) (by decide)
  have hother : ∀ path, ¬ js "/api/rooms" <+: path → ¬ js "/api/problems" <+: path → pathname url ≠ path := by
    rintro path hrooms hproblems rfl
    exact h.elim hrooms hproblems
  simp only [isPublicAccessPath, Bool.or_eq_false_iff, decide_eq_false_iff_not]
  refine ⟨⟨⟨?_, hother _ (by decide) (by decide)⟩, hother _ (by decide) (by decide)⟩,
    hother _ (by decide) (by decide)⟩
  rw [← Bool.not_eq_true, List.isPrefixOf_iff_prefix]
  exact haccess

/-- **Nobody enters without a session.** Each entry of a run is public, or it is made with the cookie of a session
that was granted before, for the code of an invite, and that is neither revoked nor too old. -/
theorem access_mediated {options : AccessServiceOptions} {enabled : Bool} {start : AccessTables}
    (hstart : start.sessions = []) {now : ℤ} {acts : List (Act AccessServerEvent StatementEnd)}
    {c : Conf AccessServer AccessTask} {out : List AccessOutput}
    (hrun : (accessServer options enabled).run ⟨⟨start, now⟩, []⟩ acts = some (c, out)) :
    AllJustified options enabled start out ∧
      ∀ url, js "/api/rooms" <+: pathname url ∨ js "/api/problems" <+: pathname url →
        isPublicAccessPath url = false :=
  ⟨(Machine.run_preserves_always (I := Mediated options enabled start)
    (fun _ _ _ _ _ _ _ h hby => mediated_step h hby) (initial_mediated options enabled hstart now) hrun).justified,
    fun _ => isPublicAccessPath_eq_false⟩

/-- Somebody enters with a session. -/
def AccessOutput.isEntry : AccessOutput → Bool
  | entered _ _ _ found => found.isSome
  | _ => false

/-- A login with an invite's code, and a request for the rooms with its cookie. -/
def exampleVisit : List (Act AccessServerEvent StatementEnd) :=
  [.event (.request (.login none (some exampleLogin.code))), .resume 0 .ran, .resume 0 .ran, .resume 0 .ran,
    .resume 0 (.transacted exampleLogin.sessionId exampleLogin.token), .resume 0 .ran,
    .event (.request (.enter (.route (js "/api/rooms?x=1")) (some exampleHeader))), .resume 0 .ran]

theorem access_mediated_example : ∃ c out,
    (accessServer exampleAccessOptions true).run ⟨⟨exampleTables, exampleLogin.now⟩, []⟩ exampleVisit =
      some (c, out) ∧
    out.any AccessOutput.isEntry = true ∧ AllJustified exampleAccessOptions true exampleTables out ∧
      ∀ url, js "/api/rooms" <+: pathname url ∨ js "/api/problems" <+: pathname url →
        isPublicAccessPath url = false := by
  have hentry : ((accessServer exampleAccessOptions true).run ⟨⟨exampleTables, exampleLogin.now⟩, []⟩
      exampleVisit).any (fun r => r.2.any AccessOutput.isEntry) = true := by decide +kernel
  obtain ⟨⟨c, out⟩, hrun, hentered⟩ := (Option.any_eq_true _ _).mp hentry
  exact ⟨c, out, hrun, hentered, access_mediated rfl hrun⟩

end CodeShare.Access
