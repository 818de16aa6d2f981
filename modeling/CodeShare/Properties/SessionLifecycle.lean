import CodeShare.Access.AccessService
import CodeShare.Foundations.Enumeration
import CodeShare.Text.RegExp

/-! # The life of an access session

The cookie of a login is read back from a header as the session's id and its token. From then on it lets its
bearer in until the session or its invite is revoked or expires.
-/

namespace CodeShare.Access
set_option autoImplicit false

/-! ## The cookie in a header -/

/-- The first cookie of the name in the header is the pair that the Set-Cookie header begins with. -/
def Carries (name setCookie header : JsString) : Prop :=
  ∃ before part later, header.splitOn 59 = before ++ part :: later ∧
    jsTrim part = setCookie.takeWhile (· ≠ 59) ∧
    ∀ other ∈ before, (jsTrim other).takeWhile (· ≠ 61) ≠ name

theorem extractFrom_append {name : JsString} {before : List JsString}
    (h : ∀ other ∈ before, (jsTrim other).takeWhile (· ≠ 61) ≠ name) (parts : List JsString) :
    extractFrom name (before ++ parts) = extractFrom name parts := by
  induction before with
  | nil => rfl
  | cons other before ih =>
    have hother := h other List.mem_cons_self
    have hhead := head?_splitOn (jsTrim other) 61
    rw [List.cons_append, extractFrom]
    cases hsplit : (jsTrim other).splitOn 61 with
    | nil => exact absurd hsplit (List.splitOn_ne_nil _ _)
    | cons rawName rawValueParts =>
      rw [hsplit, List.head?_cons] at hhead
      dsimp only
      rw [if_neg fun hname => hother ((Option.some.inj hhead).symm.trans hname)]
      exact ih fun o ho => h o (List.mem_cons_of_mem _ ho)

theorem extractFrom_pair {name part encoded text : JsString} (hname : 61 ∉ name) (hencoded : 61 ∉ encoded)
    (hpart : jsTrim part = name ++ 61 :: encoded) (hdecoded : decodeURIComponent encoded = some text)
    (parts : List JsString) : extractFrom name (part :: parts) = .value text := by
  have hjoin : joinTexts (js "=") [encoded] = encoded := by
    rw [joinTexts, List.intersperse_singleton, List.flatten_cons, List.flatten_nil, List.append_nil]
  rw [extractFrom, hpart, List.splitOn_append_cons_self_of_not_mem hname _,
    List.splitOn_eq_singleton hencoded]
  dsimp only
  rw [if_pos rfl, hjoin, hdecoded]

/-- The Set-Cookie header begins with the name and the encoded value. -/
theorem buildSetCookieHeader_pair {name value setCookie : JsString} {expiresAt now : ℤ} {secureCookies : Bool}
    (hname : 59 ∉ name) (hunits : ∀ c ∈ value, c < 0x10000)
    (h : buildSetCookieHeader name value expiresAt now secureCookies = some setCookie) :
    ∃ encoded, setCookie.takeWhile (· ≠ 59) = name ++ 61 :: encoded ∧ 61 ∉ encoded ∧
      decodeURIComponent encoded = some value := by
  obtain ⟨encoded, hencoded, rfl⟩ := Option.map_eq_some_iff.mp h
  have hplain : ∀ c ∈ encoded, c ≠ 59 ∧ c ≠ 61 := by
    intro c hc
    rcases encodeURIComponent_plain hunits hencoded hc with hc | hc
    · refine ⟨?_, ?_⟩ <;> intro heq <;> rw [heq] at hc <;> revert hc <;> decide
    · rw [hc]
      decide
  refine ⟨encoded, ?_, fun hc => (hplain 61 hc).2 rfl, decodeURIComponent_encodeURIComponent hunits hencoded⟩
  have hpair : 59 ∉ name ++ 61 :: encoded := by
    rw [List.mem_append, List.mem_cons, not_or, not_or]
    exact ⟨hname, by decide, fun hc => (hplain 59 hc).1 rfl⟩
  have hjoin : ∃ rest, joinTexts (js "; ") ([name ++ js "=" ++ encoded, js "Path=/", js "HttpOnly",
      js "SameSite=Lax", js "Expires=" ++ toUTCString expiresAt,
      js "Max-Age=" ++ decimalUnits ((expiresAt - now) / 1000).toNat] ++
        if secureCookies then [js "Secure"] else []) = name ++ 61 :: encoded ++ 59 :: rest := by
    have hequals : js "=" = [61] := rfl
    have hseparator : js "; " = 59 :: js " " := rfl
    rw [joinTexts, List.cons_append, List.cons_append, List.intersperse_cons_cons, List.flatten_cons,
      List.flatten_cons, hequals, hseparator, List.append_assoc name]
    exact ⟨_, rfl⟩
  obtain ⟨rest, hrest⟩ := hjoin
  rw [hrest]
  exact takeWhile_append_cons hpair rest

theorem extractCookie_of_carries {name value setCookie header : JsString} {expiresAt now : ℤ}
    {secureCookies : Bool} (hequals : 61 ∉ name) (hsemicolon : 59 ∉ name)
    (hunits : ∀ c ∈ value, c < 0x10000)
    (h : buildSetCookieHeader name value expiresAt now secureCookies = some setCookie)
    (hheader : Carries name setCookie header) : extractCookie (some header) name = .value value := by
  obtain ⟨encoded, hpair, hencoded, hdecoded⟩ := buildSetCookieHeader_pair hsemicolon hunits h
  obtain ⟨before, part, later, hsplit, hpart, hbefore⟩ := hheader
  have hne : header ≠ [] := by
    intro hnil
    rw [hnil, List.splitOn_nil] at hsplit
    -- the only part of an empty header is empty, but the pair is not
    obtain ⟨rfl, hsingle⟩ := (List.append_eq_singleton_iff.mp hsplit.symm).resolve_right
      fun hright => List.cons_ne_nil _ _ hright.2
    rw [(List.cons.inj hsingle).1, hpair] at hpart
    exact List.append_ne_nil_of_right_ne_nil _ (List.cons_ne_nil _ _) hpart.symm
  have hfrom : extractCookie (some header) name = extractFrom name (header.splitOn 59) := by
    cases header with
    | nil => exact absurd rfl hne
    | cons c header => rfl
  rw [hfrom, hsplit, extractFrom_append hbefore]
  exact extractFrom_pair hequals hencoded (hpart.trans hpair) hdecoded later

/-! ## The value of the cookie -/

section
variable (options : AccessServiceOptions)

theorem sign_undotted (payload : JsString) : 46 ∉ sign options payload :=
  (options.crypto.hmacBase64url options.sessionSecret payload).undotted

theorem Uuid.undotted (id : Uuid) : 46 ∉ id.1 := by
  intro hmem
  rcases id.units hmem with h | h
  · exact absurd h (by decide)
  · exact absurd h (by decide)

/-- A cookie value is parsed as what it was made of. -/
theorem parseCookieValue_createCookieValue (id : Uuid) (token : Digest) :
    parseCookieValue options (createCookieValue options id.1 token.text) = some (id.1, token.text) := by
  have hsplit : (createCookieValue options id.1 token.text).splitOn 46 =
      [js "v1", id.1, token.text, sign options (js "v1" ++ js "." ++ id.1 ++ js "." ++ token.text)] := by
    have hvalue : createCookieValue options id.1 token.text = js "v1" ++ 46 :: (id.1 ++ 46 ::
        (token.text ++ 46 :: sign options (js "v1" ++ js "." ++ id.1 ++ js "." ++ token.text))) := by
      have hdot : js "." = [46] := rfl
      simp only [createCookieValue, hdot, List.append_assoc, List.cons_append, List.nil_append]
    rw [hvalue, List.splitOn_append_cons_self_of_not_mem (by decide) _,
      List.splitOn_append_cons_self_of_not_mem id.undotted _,
      List.splitOn_append_cons_self_of_not_mem token.undotted _,
      List.splitOn_eq_singleton (sign_undotted options _)]
  have hgiven : ¬(js "v1" ≠ js "v1" ∨ id.1 = [] ∨ token.text = [] ∨
      sign options (js "v1" ++ js "." ++ id.1 ++ js "." ++ token.text) = []) := by
    rintro (h | h | h | h)
    · exact h rfl
    · exact id.ne_nil h
    · exact token.nonempty h
    · exact (options.crypto.hmacBase64url options.sessionSecret _).nonempty h
  rw [parseCookieValue, hsplit]
  dsimp only
  rw [if_neg hgiven, timingSafeStringEqual, decide_eq_true rfl, if_pos rfl]

theorem createCookieValue_units (id : Uuid) (token : Digest) :
    ∀ c ∈ createCookieValue options id.1 token.text, c < 0x10000 := by
  have hmarks : (∀ c ∈ js "v1", c < 0x10000) ∧ ∀ c ∈ js ".", c < 0x10000 := by decide
  have hid : ∀ c ∈ id.1, c < 0x10000 := by
    intro c hc
    rcases id.units hc with h | h
    · omega
    · simp only [isHexDigit, Bool.or_eq_true, Bool.and_eq_true, decide_eq_true_eq] at h
      omega
  have hpayload : ∀ c ∈ js "v1" ++ js "." ++ id.1 ++ js "." ++ token.text, c < 0x10000 := by
    simp only [List.forall_mem_append]
    exact ⟨⟨⟨⟨hmarks.1, hmarks.2⟩, hid⟩, hmarks.2⟩, token.units⟩
  simp only [createCookieValue, List.forall_mem_append] at hpayload ⊢
  exact ⟨⟨hpayload, hmarks.2⟩, (options.crypto.hmacBase64url options.sessionSecret _).units⟩

end

/-! ## The session behind a login -/

theorem AccessTables.invite?_of_mem {tables : AccessTables} {invite : InviteRow}
    (h : invite ∈ tables.invites) : tables.invite? invite.id = some invite :=
  Enumeration.find_of_mem tables.inviteIds h

/-- An invite that is found for a code has not been revoked. -/
theorem findMatchingInvite_eq {options : AccessServiceOptions} {run : LoginRun} {tables : AccessTables}
    {invite : InviteRow} (h : (findMatchingInvite options run tables).2 = some invite) :
    (findMatchingInvite options run tables).1.invite? invite.id = some invite ∧ invite.revokedAt = none := by
  have hunrevoked : AccessTables.usable invite run.now = true → invite.revokedAt = none := fun husable =>
    Option.isNone_iff_eq_none.mp (Bool.and_eq_true_iff.mp husable).1
  unfold findMatchingInvite at h ⊢
  dsimp only at h ⊢
  split at h
  · rename_i indexed hindexed
    dsimp only at h ⊢
    split_ifs at h
    obtain rfl := Option.some.inj h
    have hp := List.find?_some hindexed
    exact ⟨AccessTables.invite?_of_mem (List.mem_of_find?_eq_some hindexed), hunrevoked (Bool.and_eq_true_iff.mp hp).2⟩
  · dsimp only at h ⊢
    have hmem := List.mem_filter.mp (List.mem_reverse.mp (List.mem_of_find?_eq_some h))
    exact ⟨AccessTables.invite?_of_mem hmem.1, hunrevoked (Bool.and_eq_true_iff.mp hmem.2).1⟩

/-- The input of the transaction of a login. -/
def sessionInput (options : AccessServiceOptions) (run : LoginRun) (invite : InviteRow) : CreateSessionInput :=
  ⟨invite.id, createSessionTokenHash options run.token.text, run.now + options.sessionTtlDays * dayMs, run.now⟩

/-- A login that is allowed has stored a session of the invite, and its cookie names it. -/
theorem loginWithInviteCode_eq {options : AccessServiceOptions} {run : LoginRun} {tables behind : AccessTables}
    {setCookie : JsString} {session : LoginSession}
    (h : loginWithInviteCode options run tables = (behind, some (.allowed setCookie session))) :
    ∃ invite created, (findMatchingInvite options run tables).2 = some invite ∧
      created = (findMatchingInvite options run tables).1.after
        (run.whileCreating ++ [.createSession run.sessionId (sessionInput options run invite)]) ∧
      behind = created.after run.whileReading ∧
      created.session? run.sessionId = some ⟨run.sessionId, invite.id,
        createSessionTokenHash options run.token.text, (sessionInput options run invite).expiresAt, none⟩ ∧
      session.id = run.sessionId ∧ session.expiresAt = (sessionInput options run invite).expiresAt ∧
      buildSetCookieHeader options.cookieName (createCookieValue options run.sessionId.1 run.token.text)
        (sessionInput options run invite).expiresAt run.now options.secureCookies = some setCookie := by
  unfold loginWithInviteCode at h
  rcases hfound : findMatchingInvite options run tables with ⟨listed, found⟩
  rw [hfound] at h
  cases found with
  | none => cases h
  | some invite =>
    dsimp only at h
    have hinput : (⟨invite.id, createSessionTokenHash options run.token.text,
      run.now + options.sessionTtlDays * dayMs, run.now⟩ : CreateSessionInput) =
        sessionInput options run invite := rfl
    rw [hinput] at h
    rcases AccessTables.createSession_cases (listed.after run.whileCreating) run.sessionId
      (sessionInput options run invite) with ⟨hsame, hrefused⟩ | ⟨row, inserted, -, -, hinsert, hcreated⟩
    · rcases hanswer : (listed.after run.whileCreating).createSession run.sessionId
        (sessionInput options run invite) with ⟨rows, answer⟩
      rw [hanswer] at h hrefused
      cases answer with
      | created => exact absurd rfl hrefused
      | refused => cases h
      | failed => cases h
    · rw [hcreated] at h
      dsimp only at h
      have hbehind : inserted.useInvite (sessionInput options run invite).inviteId
          (sessionInput options run invite).now = listed.after
            (run.whileCreating ++ [.createSession run.sessionId (sessionInput options run invite)]) := by
        rw [AccessTables.after, List.foldl_append]
        change _ = ((listed.after run.whileCreating).createSession run.sessionId
          (sessionInput options run invite)).1
        rw [hcreated]
      have hstored : (inserted.useInvite (sessionInput options run invite).inviteId
          (sessionInput options run invite).now).session? run.sessionId = some ⟨run.sessionId, invite.id,
            createSessionTokenHash options run.token.text, (sessionInput options run invite).expiresAt, none⟩ :=
        AccessTables.session?_insertSession hinsert
      rw [hbehind] at h hstored
      obtain ⟨revokedAt, hsession, -⟩ := AccessTables.session?_after hstored run.whileReading
      refine ⟨invite, _, rfl, rfl, ?_⟩
      split at h
      · cases h
      · rename_i record hrecord
        rw [AccessTables.findSessionRecordById, hsession, Option.bind_some] at hrecord
        obtain ⟨row, -, rfl⟩ := Option.map_eq_some_iff.mp hrecord
        obtain ⟨hbehind, hallowed⟩ := Prod.mk.inj h
        obtain ⟨header, hheader, hresult⟩ := Option.map_eq_some_iff.mp hallowed
        obtain ⟨rfl, rfl⟩ := AccessLoginResult.allowed.inj hresult
        exact ⟨hbehind.symm, hstored, rfl, rfl, hheader⟩

/-! ## The check of the cookie -/

/-- A record is let in when nothing is against it. -/
theorem judgeSession_eq_allowed {record : AccessSessionRecord} {now : ℤ} {session : ValidatedSession} :
    judgeSession record now = .allowed session ↔
      (record.revokedAt = none ∧ record.inviteRevokedAt = none ∧ now < record.expiresAt ∧
        ∀ expiry ∈ record.inviteExpiresAt, now < expiry) ∧
      session = ⟨record.id, record.inviteId, record.inviteLabel, record.expiresAt⟩ := by
  unfold judgeSession
  split_ifs with hrevoked hexpired hinvite hinviteExpired
  · simp [Option.isSome_iff_ne_none.mp hrevoked]
  · simp [not_lt.mpr hexpired]
  · simp [Option.isSome_iff_ne_none.mp hinvite]
  · obtain ⟨expiry, hexpiry, hle⟩ := (Option.any_eq_true _ _).mp hinviteExpired
    exact ⟨nofun, fun h => absurd (h.1.2.2.2 expiry hexpiry) (not_lt.mpr (of_decide_eq_true hle))⟩
  · have hopen : ∀ expiry ∈ record.inviteExpiresAt, now < expiry := fun expiry hexpiry =>
      not_le.mp fun hle => hinviteExpired ((Option.any_eq_true _ _).mpr ⟨expiry, hexpiry, decide_eq_true hle⟩)
    rw [AccessValidationResult.allowed.injEq]
    exact ⟨fun h => ⟨⟨Option.not_isSome_iff_eq_none.mp hrevoked, Option.not_isSome_iff_eq_none.mp hinvite,
      not_le.mp hexpired, hopen⟩, h.symm⟩, fun h => h.2.symm⟩

/-- With the cookie of a stored session, its record decides. -/
theorem validateCookieHeader_eq {options : AccessServiceOptions} {tables : AccessTables} {header : JsString}
    {id : Uuid} {token : Digest} {record : AccessSessionRecord}
    (hcookie : extractCookie (some header) options.cookieName = .value (createCookieValue options id.1 token.text))
    (hrecord : tables.findSessionRecordById id = some record)
    (htoken : record.sessionTokenHash = createSessionTokenHash options token.text) (now : ℤ) :
    validateCookieHeader options tables (some header) now = some (judgeSession record now) := by
  have hfound : tables.findSessionById id.1 = some (some record) := by
    rw [AccessTables.findSessionById, dif_pos id.2]
    exact congrArg some hrecord
  have hsame : timingSafeStringEqual record.sessionTokenHash (createSessionTokenHash options token.text) = true := by
    rw [htoken]
    exact decide_eq_true rfl
  rw [validateCookieHeader, hcookie]
  dsimp only
  rw [parseCookieValue_createCookieValue]
  dsimp only
  rw [hfound]
  dsimp only
  rw [if_pos hsame]

/-- A logout with the cookie revokes its session. -/
theorem revokeCookieSession_eq {options : AccessServiceOptions} {header : JsString} {id : Uuid} {token : Digest}
    (hcookie : extractCookie (some header) options.cookieName =
      .value (createCookieValue options id.1 token.text)) :
    revokeCookieSession options (some header) = some id.1 := by
  have hparsed := parseCookieValue_createCookieValue options id token
  obtain ⟨c, value, hvalue⟩ : ∃ c value, createCookieValue options id.1 token.text = c :: value := ⟨_, _, rfl⟩
  rw [hvalue] at hcookie hparsed
  rw [revokeCookieSession, hcookie]
  dsimp only
  rw [hparsed]
  rfl

/-- **A login's cookie lets in until a revocation or an expiry.** -/
theorem session_lifecycle {options : AccessServiceOptions} (hequals : 61 ∉ options.cookieName)
    (hsemicolon : 59 ∉ options.cookieName) {run : LoginRun} {tables behind : AccessTables}
    {setCookie : JsString} {session : LoginSession}
    (hlogin : loginWithInviteCode options run tables = (behind, some (.allowed setCookie session)))
    (later : List AccessCall) {header : JsString} (hheader : Carries options.cookieName setCookie header)
    (now : ℤ) : ∃ invite, (findMatchingInvite options run tables).2 = some invite ∧
      revokeCookieSession options (some header) = some session.id.1 ∧
      ∀ validated, validateCookieHeader options (behind.after later) (some header) now =
          some (.allowed validated) ↔
        ((∀ c ∈ run.whileReading ++ later, c.revokesSession session.id = none) ∧
          (∀ c ∈ run.whileCreating ++ (run.whileReading ++ later), c.revokesInvite invite.id = none) ∧
          now < session.expiresAt ∧ ∀ expiry ∈ invite.expiresAt, now < expiry) ∧
        validated = ⟨session.id, invite.id, invite.label, session.expiresAt⟩ := by
  obtain ⟨invite, created, hfound, hcreated, rfl, hstored, hid, hexpires, hset⟩ := loginWithInviteCode_eq hlogin
  obtain ⟨hlisted, hunrevoked⟩ := findMatchingInvite_eq hfound
  have hcookie := extractCookie_of_carries hequals hsemicolon
    (createCookieValue_units options run.sessionId run.token) hset hheader
  have hrows : (created.after run.whileReading).after later = created.after (run.whileReading ++ later) :=
    List.foldl_append.symm
  obtain ⟨revokedAt, hsession, hrevoked⟩ := AccessTables.session?_after hstored (run.whileReading ++ later)
  obtain ⟨inviteRevokedAt, lastUsedAt, hinvite, hinviteRevoked⟩ := AccessTables.invite?_after hlisted
    ((run.whileCreating ++ [.createSession run.sessionId (sessionInput options run invite)]) ++
      (run.whileReading ++ later))
  have hinvite' : (created.after (run.whileReading ++ later)).invite? invite.id =
      some { invite with revokedAt := inviteRevokedAt, lastUsedAt := lastUsedAt } := by
    rw [hcreated, ← hinvite]
    exact congrArg (AccessTables.invite? · _) List.foldl_append.symm
  have hrecord : (created.after (run.whileReading ++ later)).findSessionRecordById run.sessionId =
      some ⟨run.sessionId, invite.id, createSessionTokenHash options run.token.text,
        (sessionInput options run invite).expiresAt, revokedAt, invite.label, invite.expiresAt,
          inviteRevokedAt⟩ := by
    rw [AccessTables.findSessionRecordById, hsession, Option.bind_some]
    dsimp only
    rw [hinvite']
    rfl
  -- the transaction itself revokes nothing
  have hcalls : (∀ c ∈ (run.whileCreating ++ [.createSession run.sessionId (sessionInput options run invite)]) ++
        (run.whileReading ++ later), c.revokesInvite invite.id = none) ↔
      ∀ c ∈ run.whileCreating ++ (run.whileReading ++ later), c.revokesInvite invite.id = none := by
    simp only [List.forall_mem_append, List.forall_mem_singleton, AccessCall.revokesInvite, and_true]
  refine ⟨invite, hfound, ?_, fun validated => ?_⟩
  · rw [hid]
    exact revokeCookieSession_eq hcookie
  rw [hrows, validateCookieHeader_eq hcookie hrecord rfl, Option.some_inj, judgeSession_eq_allowed, hid, hexpires]
  dsimp only
  rw [hrevoked, hinviteRevoked, hcalls]
  simp only [hunrevoked, true_and]

/-! ## An example -/

def hexText (n : ℕ) : JsString := (Nat.toDigits 16 n).map Char.toNat

/-- What HMAC and scrypt derive from the texts below. -/
def exampleCrypto : AccessCrypto where
  hmacHex _ payload :=
    if payload = js "welcome-2026" then
      ⟨hexText 0xe7dbedcd4e0c3a6bdd72bded6422a388bfbcc3c161a8466929226a5afde4ab63, by decide +kernel,
        by decide +kernel, by decide +kernel⟩
    else
      ⟨hexText 0x70913d98685e74caa268510298507825448d551c02e7ff9184675467462c7d67, by decide +kernel,
        by decide +kernel, by decide +kernel⟩
  hmacBase64url _ _ :=
    ⟨js "_ym8iXXEnvGQC1uunwziYeCgLzp-LGRfBErpDzjy1pU", by decide +kernel, by decide +kernel, by decide +kernel⟩
  scrypt _ _ := hexBytes (hexText 0xd5b66cbc7335bb9cb74920870030a4930571528bec29afa4ded96ccfc3f63e48)

def exampleAccessOptions : AccessServiceOptions :=
  ⟨js "codeshare_access", js "codeshare-session-secret", 7, true, exampleCrypto, by decide⟩

theorem isUuid_invite : isUuid (js "9b2d7c1e-0000-4000-8000-000000000001") = true := by decide +kernel

theorem isUuid_session : isUuid (js "3f2504e0-4f89-41d3-9a0c-0305e82c3301") = true := by decide +kernel

def exampleInvite : InviteRow where
  id := ⟨js "9b2d7c1e-0000-4000-8000-000000000001", isUuid_invite⟩
  label := js "friends"
  codeHash := js "scrypt:v1:a1b2c3d4:" ++
    hexText 0xd5b66cbc7335bb9cb74920870030a4930571528bec29afa4ded96ccfc3f63e48
  codeLookupHash := none
  maxSessions := 2
  expiresAt := some 1778000000000
  revokedAt := none
  lastUsedAt := none

/-- A login with the code of the invite, while another session is revoked. -/
def exampleLogin : LoginRun where
  code := js " welcome-2026"
  now := 1777896000000
  token := ⟨js "0011aabb", by decide +kernel,
    by decide +kernel, by decide +kernel⟩
  sessionId := ⟨js "3f2504e0-4f89-41d3-9a0c-0305e82c3301", isUuid_session⟩
  whileListing := []
  whileCreating := [.revokeSession ⟨js "3f2504e0-4f89-41d3-9a0c-0305e82c3302", by decide +kernel⟩ 1777896000001]
  whileReading := []

def exampleTables : AccessTables := ⟨[exampleInvite], [], List.nodup_singleton _, List.nodup_nil⟩

def examplePair : JsString :=
  js "codeshare_access=v1.3f2504e0-4f89-41d3-9a0c-0305e82c3301." ++
    js "0011aabb." ++
    js "_ym8iXXEnvGQC1uunwziYeCgLzp-LGRfBErpDzjy1pU"

/-- The cookie between two others. -/
def exampleHeader : JsString := js "theme=dark; " ++ examplePair ++ js ";lang=en=us"

/-- The cookie is good until the invite expires, unless the session is revoked. -/
theorem session_lifecycle_example :
    (∃ session, validateCookieHeader exampleAccessOptions
      ((loginWithInviteCode exampleAccessOptions exampleLogin exampleTables).1.after []) (some exampleHeader)
        1777999999999 = some (.allowed session)) ∧
    ∀ session, validateCookieHeader exampleAccessOptions
      ((loginWithInviteCode exampleAccessOptions exampleLogin exampleTables).1.after
        [.revokeSession exampleLogin.sessionId 1777900000000]) (some exampleHeader) 1777999999999 ≠
          some (.allowed session) := by
  have hlogin : loginWithInviteCode exampleAccessOptions exampleLogin exampleTables =
      ((loginWithInviteCode exampleAccessOptions exampleLogin exampleTables).1, some (.allowed
        (examplePair ++ js "; Path=/; HttpOnly; SameSite=Lax; Expires=Mon, 11 May 2026 12:00:00 GMT" ++
          js "; Max-Age=604800; Secure")
        ⟨exampleLogin.sessionId, js "friends", 1778500800000⟩)) := Prod.ext rfl (by decide +kernel)
  have hheader : Carries exampleAccessOptions.cookieName
      (examplePair ++ js "; Path=/; HttpOnly; SameSite=Lax; Expires=Mon, 11 May 2026 12:00:00 GMT" ++
        js "; Max-Age=604800; Secure") exampleHeader :=
    ⟨[js "theme=dark"], 32 :: examplePair, [js "lang=en=us"], by decide +kernel, by decide +kernel,
      by decide +kernel⟩
  have hfound : (findMatchingInvite exampleAccessOptions exampleLogin exampleTables).2 = some exampleInvite := by
    decide +kernel
  obtain ⟨invite, hinvite, -, hopen⟩ := session_lifecycle (by decide +kernel) (by decide +kernel) hlogin []
    hheader 1777999999999
  obtain ⟨_, -, -, hrevoked⟩ := session_lifecycle (by decide +kernel) (by decide +kernel) hlogin
    [.revokeSession exampleLogin.sessionId 1777900000000] hheader 1777999999999
  obtain rfl : exampleInvite = invite := Option.some.inj (hfound.symm.trans hinvite)
  refine ⟨⟨_, (hopen _).mpr ⟨⟨nofun, ?_, by decide, by decide⟩, rfl⟩⟩, fun session hsession => ?_⟩
  · decide +kernel
  · have hnone := ((hrevoked session).mp hsession).1.1 _ List.mem_cons_self
    revert hnone
    decide +kernel

end CodeShare.Access
