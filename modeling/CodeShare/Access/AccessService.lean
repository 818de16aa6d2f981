import CodeShare.Access.AccessRepository
import CodeShare.Lib.ReliabilityStore
import CodeShare.Text.Json
import CodeShare.Text.Uri

/-! # Access by invite codes

`AccessService.ts`: a login with an invite code makes a session and a signed cookie, and the cookie is
checked on every request. HMAC, scrypt and the random tokens are parameters.
-/

namespace CodeShare.Access
open Calendar
open ReliabilityStore (paddedUnits)
set_option autoImplicit false

/-! ## Cryptography -/

/-- A random token, or a digest as a text. -/
structure Digest where
  text : JsString
  units : ∀ c ∈ text, c < 0x10000
  nonempty : text ≠ []
  undotted : 46 ∉ text

/-- HMAC with its two encodings, and scrypt with the bytes that it derives. -/
structure AccessCrypto where
  hmacHex : JsString → JsString → Digest
  hmacBase64url : JsString → JsString → Digest
  scrypt : JsString → JsString → List ℕ

/-- There is no access service without a secret. -/
structure AccessServiceOptions where
  cookieName : JsString
  sessionSecret : JsString
  sessionTtlDays : ℤ
  secureCookies : Bool
  crypto : AccessCrypto
  secretGiven : sessionSecret ≠ []

def dayMs : ℤ := 24 * 60 * 60 * 1000

def timingSafeStringEqual (left right : JsString) : Bool := utf8Encode left = utf8Encode right

/-! ## Invite codes -/

def normalizeInviteCode (code : JsString) : JsString := jsTrim code

/-- The salt and the digest. -/
def parseInviteCodeHash (codeHash : JsString) : Option (JsString × JsString) :=
  match codeHash.splitOn 58 with
  | algorithm :: version :: salt :: digest :: _ =>
    if algorithm ++ 58 :: version ≠ js "scrypt:v1" ∨ salt = [] ∨ digest = [] then none
    else some (salt, digest)
  | _ => none

/-- `Buffer.from(text, "hex")`, up to the first pair that is none. -/
def hexBytes : JsString → List ℕ
  | a :: b :: rest =>
    match hexOctet a b with
    | some octet => octet :: hexBytes rest
    | none => []
  | _ => []

def verifyInviteCodeHash (crypto : AccessCrypto) (code codeHash : JsString) : Bool :=
  match parseInviteCodeHash codeHash with
  | none => false
  | some (salt, digest) => crypto.scrypt (normalizeInviteCode code) salt = hexBytes digest

def createInviteLookupHash (crypto : AccessCrypto) (code secret : JsString) : JsString :=
  js "hmac:sha256:v1:" ++ (crypto.hmacHex secret (normalizeInviteCode code)).text

/-! ## Cookies -/

section
variable (options : AccessServiceOptions)

def createSessionTokenHash (token : JsString) : JsString :=
  js "hmac:sha256:" ++ (options.crypto.hmacHex options.sessionSecret token).text

def sign (payload : JsString) : JsString := (options.crypto.hmacBase64url options.sessionSecret payload).text

def createCookieValue (sessionId token : JsString) : JsString :=
  let payload := js "v1" ++ js "." ++ sessionId ++ js "." ++ token
  payload ++ js "." ++ sign options payload

/-- The session id and the token. -/
def parseCookieValue (cookieValue : JsString) : Option (JsString × JsString) :=
  match cookieValue.splitOn 46 with
  | version :: sessionId :: token :: signature :: _ =>
    if version ≠ js "v1" ∨ sessionId = [] ∨ token = [] ∨ signature = [] then none
    else
      let payload := version ++ js "." ++ sessionId ++ js "." ++ token
      if timingSafeStringEqual signature (sign options payload) then some (sessionId, token) else none
  | _ => none

/-- A cookie of a header: absent, not percent-encoded, or its value. -/
inductive ExtractedCookie where
  | missing
  | malformed
  | value (text : JsString)
  deriving DecidableEq

/-- In the parts between the semicolons. -/
def extractFrom (name : JsString) : List JsString → ExtractedCookie
  | [] => .missing
  | part :: parts =>
    match (jsTrim part).splitOn 61 with
    | rawName :: rawValueParts =>
      if rawName = name then
        match decodeURIComponent (joinTexts (js "=") rawValueParts) with
        | some text => .value text
        | none => .malformed
      else extractFrom name parts
    | [] => extractFrom name parts

def extractCookie (cookieHeader : Option JsString) (name : JsString) : ExtractedCookie :=
  match cookieHeader with
  | none | some [] => .missing
  | some header => extractFrom name (header.splitOn 59)

def weekdayNames : List JsString :=
  [js "Sun", js "Mon", js "Tue", js "Wed", js "Thu", js "Fri", js "Sat"]

def monthNames : List JsString :=
  [js "Jan", js "Feb", js "Mar", js "Apr", js "May", js "Jun", js "Jul", js "Aug", js "Sep", js "Oct",
    js "Nov", js "Dec"]

/-- The year in a date string. -/
def yearText (year : ℤ) : JsString :=
  (if year < 0 then [45] else []) ++
    if year.natAbs < 10000 then paddedUnits 4 year.natAbs else decimalUnits year.natAbs

/-- `Date.prototype.toUTCString`. -/
def toUTCString (time : ℤ) : JsString :=
  let day := time / dayMs
  let second := (time % dayMs / 1000).toNat
  weekdayNames.getD ((day + 4) % 7).toNat [] ++ js ", " ++ paddedUnits 2 (dateFromDay day).toNat ++
    js " " ++ monthNames.getD (monthFromDay day) [] ++ js " " ++ yearText (yearFromDay day) ++ js " " ++
    paddedUnits 2 (second / 3600) ++ js ":" ++ paddedUnits 2 (second / 60 % 60) ++ js ":" ++
    paddedUnits 2 (second % 60) ++ js " GMT"

/-- `none` is the exception for a value that is not well-formed. -/
def buildSetCookieHeader (name value : JsString) (expiresAt now : ℤ) (secureCookies : Bool) :
    Option JsString :=
  (encodeURIComponent value).map fun encoded =>
    joinTexts (js "; ") ([name ++ js "=" ++ encoded, js "Path=/", js "HttpOnly", js "SameSite=Lax",
      js "Expires=" ++ toUTCString expiresAt,
      js "Max-Age=" ++ decimalUnits ((expiresAt - now) / 1000).toNat] ++
        if secureCookies then [js "Secure"] else [])

/-! ## Logging in -/

inductive AccessLoginRejectionReason where
  | invalidCode
  | sessionLimitReached
  deriving DecidableEq, Repr

structure LoginSession where
  id : Uuid
  inviteLabel : JsString
  expiresAt : ℤ
  deriving DecidableEq

inductive AccessLoginResult where
  | allowed (cookieHeader : JsString) (session : LoginSession)
  | denied (reason : AccessLoginRejectionReason)
  deriving DecidableEq

/-- What a login is given, and what others do while it waits for its second query, for the transaction
and for the session to be read. -/
structure LoginRun where
  code : JsString
  now : ℤ
  token : Digest
  sessionId : Uuid
  whileListing : List AccessCall
  whileCreating : List AccessCall
  whileReading : List AccessCall

/-- The invite of a code, with the tables as they are then. -/
def findMatchingInvite (run : LoginRun) (tables : AccessTables) : AccessTables × Option InviteRow :=
  let lookupHash := createInviteLookupHash options.crypto run.code options.sessionSecret
  match tables.findUsableInviteByLookupHash lookupHash run.now with
  | some indexedInvite =>
    (tables, if verifyInviteCodeHash options.crypto run.code indexedInvite.codeHash then some indexedInvite
      else none)
  | none =>
    let tables := tables.after run.whileListing
    (tables, (tables.listUsableInvites run.now).find? fun invite =>
      invite.codeLookupHash.all (· = []) && verifyInviteCodeHash options.crypto run.code invite.codeHash)

/-- `none` is an exception. -/
def loginWithInviteCode (run : LoginRun) (tables : AccessTables) :
    AccessTables × Option AccessLoginResult :=
  match findMatchingInvite options run tables with
  | (tables, none) => (tables, some (.denied .invalidCode))
  | (tables, some invite) =>
    let expiresAt := run.now + options.sessionTtlDays * dayMs
    match (tables.after run.whileCreating).createSession run.sessionId
      ⟨invite.id, createSessionTokenHash options run.token.text, expiresAt, run.now⟩ with
    | (tables, .refused) => (tables, some (.denied .sessionLimitReached))
    | (tables, .failed) => (tables, none)
    | (tables, .created) =>
      let tables := tables.after run.whileReading
      match tables.findSessionRecordById run.sessionId with
      | none => (tables, some (.denied .sessionLimitReached))
      | some session =>
        (tables, (buildSetCookieHeader options.cookieName
          (createCookieValue options session.id.1 run.token.text) expiresAt run.now
            options.secureCookies).map fun cookieHeader =>
          .allowed cookieHeader ⟨session.id, session.inviteLabel, session.expiresAt⟩)

/-! ## Checking a cookie -/

inductive AccessValidationRejectionReason where
  | missingCookie
  | invalidCookie
  | sessionNotFound
  | sessionRevoked
  | sessionExpired
  | inviteRevoked
  | inviteExpired
  deriving DecidableEq, Repr

structure ValidatedSession where
  id : Uuid
  inviteId : Uuid
  inviteLabel : JsString
  expiresAt : ℤ
  deriving DecidableEq

inductive AccessValidationResult where
  | allowed (session : ValidatedSession)
  | denied (reason : AccessValidationRejectionReason)
  deriving DecidableEq

/-- What a session says at a time. -/
def judgeSession (session : AccessSessionRecord) (now : ℤ) : AccessValidationResult :=
  if session.revokedAt.isSome then .denied .sessionRevoked
  else if session.expiresAt ≤ now then .denied .sessionExpired
  else if session.inviteRevokedAt.isSome then .denied .inviteRevoked
  else if session.inviteExpiresAt.any (· ≤ now) then .denied .inviteExpired
  else .allowed ⟨session.id, session.inviteId, session.inviteLabel, session.expiresAt⟩

/-- `none` is an exception of the store. -/
def validateCookieHeader (tables : AccessTables) (cookieHeader : Option JsString) (now : ℤ) :
    Option AccessValidationResult :=
  match extractCookie cookieHeader options.cookieName with
  | .missing => some (.denied .missingCookie)
  | .malformed => some (.denied .invalidCookie)
  | .value cookieValue =>
    match parseCookieValue options cookieValue with
    | none => some (.denied .invalidCookie)
    | some (sessionId, token) =>
      match tables.findSessionById sessionId with
      | none => none
      | some none => some (.denied .sessionNotFound)
      | some (some session) =>
        if timingSafeStringEqual session.sessionTokenHash (createSessionTokenHash options token) then
          some (judgeSession session now)
        else some (.denied .invalidCookie)

/-- The session that a header lets its sender revoke. -/
def revokeCookieSession (cookieHeader : Option JsString) : Option JsString :=
  match extractCookie cookieHeader options.cookieName with
  | .missing | .malformed | .value [] => none
  | .value cookieValue => (parseCookieValue options cookieValue).map Prod.fst

end

example : toUTCString 1777896000000 = js "Mon, 04 May 2026 12:00:00 GMT" := by decide +kernel

end CodeShare.Access
