import CodeShare.Access.AccessService
import CodeShare.Foundations.Tasks

/-! # Private access

`privateAccess.ts`, `access.ts` and the checks of `socketio.ts` and `yjs.ts` around the access service, with the
commands of `invites.ts`. Requests wait for one statement at a time, and any number of them are at work at once. A
statement may fail, and the answer to a transaction that was carried out may be lost. What an event says of a
request is its cookie header and what else the code reads of it.
-/

namespace CodeShare.Access
open Tasks
set_option autoImplicit false

/-! ## Requests -/

def pathname (url : JsString) : JsString := (url.splitOn 63).headD []

def isPublicAccessPath (url : JsString) : Bool :=
  (js "/api/access/").isPrefixOf (pathname url) || pathname url = js "/api/health" ||
    pathname url = js "/api/live" || pathname url = js "/api/ready"

/-- What is behind a check. -/
inductive Entry where
  /-- the routes behind `registerPrivateAccessProtection` -/
  | route (url : JsString)
  /-- `createHandshakeMiddleware` -/
  | handshake
  /-- `createAccessEventMiddleware`, with the cookie of the handshake -/
  | socketEvent
  /-- the `connection` handler of the Yjs server -/
  | document
  deriving DecidableEq

def Entry.isPublic : Entry → Bool
  | route url => isPublicAccessPath url
  | _ => false

inductive AccessRequest where
  | enter (entry : Entry) (cookie : Option JsString)
  | session (cookie : Option JsString)
  /-- the code is `none` when `accessLoginSchema` rejects the body -/
  | login (cookie code : Option JsString)
  | logout (cookie : Option JsString)

/-- `AccessSessionResponse` and the errors of the routes. -/
inductive AccessReply where
  | authenticated (session : Option ValidatedSession)
  | loggedIn (cookieHeader : JsString) (session : LoginSession)
  | unauthenticated
  | denied (reason : AccessLoginRejectionReason)
  | invalidBody
  | error
  deriving DecidableEq

/-- A login that has made a session. -/
structure Grant where
  code : JsString
  inviteId : Uuid
  token : Digest
  loginAt : ℤ

/-! ## The server -/

structure AccessServer where
  tables : AccessTables
  now : ℤ

/-- Why a cookie is checked. -/
inductive CheckPurpose where
  | enter (entry : Entry)
  | session
  | login (code : Option JsString)

/-- A request between two statements; the time is what `new Date()` was when its part began. -/
inductive AccessTask where
  | checking (purpose : CheckPurpose) (cookie : Option JsString) (now : ℤ)
  | lookingUp (code : JsString) (now : ℤ)
  | listing (code : JsString) (now : ℤ)
  | creating (code : JsString) (invite : InviteRow) (now : ℤ)
  | reading (sessionId : Uuid) (token : Digest) (now : ℤ)
  | revoking (sessionId : JsString) (now : ℤ)

inductive AccessServerEvent where
  | request (request : AccessRequest)
  | createInvite (row : InviteRow)
  | revokeInvite (id : Uuid)
  | tick (elapsed : ℕ)

inductive StatementEnd where
  | ran
  /-- the transaction of `createSession`, with the id of its row and the token of the request -/
  | transacted (sessionId : Uuid) (token : Digest)
  /-- the same, but the answer is lost -/
  | lost (sessionId : Uuid) (token : Digest)
  | failed

/-- Entries and replies, and notes of what the tables went through. -/
inductive AccessOutput where
  | entered (entry : Entry) (cookie : Option JsString) (checkedAt : ℤ) (session : Option ValidatedSession)
  | refused (entry : Entry)
  | replied (reply : AccessReply)
  | granted (sessionId : Uuid) (grant : Grant)
  | performed (call : AccessCall)

abbrev AccessSegment := Segment AccessServer AccessTask AccessOutput

section
variable (options : AccessServiceOptions) (enabled : Bool)

/-- A statement is carried out. -/
def performCall (s : AccessServer) (call : AccessCall) : AccessSegment :=
  ((Segment.of s).modify fun s => { s with tables := s.tables.call call }).emit (.performed call)

def reply (s : AccessServer) (answer : AccessReply) : AccessSegment := (Segment.of s).emit (.replied answer)

def receiveRequest (s : AccessServer) : AccessRequest → AccessSegment
  | .enter entry cookie =>
    if !enabled || entry.isPublic then (Segment.of s).emit (.entered entry cookie s.now none)
    else (Segment.of s).suspend (.checking (.enter entry) cookie s.now)
  | .session cookie =>
    if enabled then (Segment.of s).suspend (.checking .session cookie s.now)
    else reply s (.authenticated none)
  | .login cookie code =>
    if enabled then (Segment.of s).suspend (.checking (.login code) cookie s.now)
    else reply s (.authenticated none)
  | .logout cookie =>
    if enabled then
      match revokeCookieSession options cookie with
      | some sessionId => (Segment.of s).suspend (.revoking sessionId s.now)
      | none => reply s .unauthenticated
    else reply s .unauthenticated

def accessHandle (s : AccessServer) : AccessServerEvent → Option AccessSegment
  | .request request => some (receiveRequest options enabled s request)
  | .createInvite row => some (performCall s (.createInvite row))
  | .revokeInvite id => some (performCall s (.revokeInvite id s.now))
  | .tick elapsed => some (.of { s with now := s.now + elapsed })

/-- Behind the check of a cookie; `none` is an exception of the store, which the callers catch. -/
def afterCheck (s : AccessServer) (cookie : Option JsString) (now : ℤ) (found : Option AccessValidationResult) :
    CheckPurpose → AccessSegment
  | .enter entry =>
    match found with
    | some (.allowed session) => (Segment.of s).emit (.entered entry cookie now (some session))
    | _ => (Segment.of s).emit (.refused entry)
  | .session =>
    match found with
    | some (.allowed session) => reply s (.authenticated (some session))
    | _ => reply s .unauthenticated
  | .login code =>
    match found with
    | some (.allowed session) => reply s (.authenticated (some session))
    | _ =>
      match code with
      | none => reply s .invalidBody
      | some code => (Segment.of s).suspend (.lookingUp code s.now)

/-- The row of a new session. -/
def grantInput (invite : InviteRow) (token : Digest) (now : ℤ) : CreateSessionInput :=
  ⟨invite.id, createSessionTokenHash options token.text, now + options.sessionTtlDays * dayMs, now⟩

/-- The transaction of `createSession`, and what it answers. -/
def grantSession (s : AccessServer) (code : JsString) (invite : InviteRow) (now : ℤ) (sessionId : Uuid)
    (token : Digest) : AccessSegment × AccessTables.CreateSessionAnswer :=
  let call := AccessCall.createSession sessionId (grantInput options invite token now)
  match (s.tables.createSession sessionId (grantInput options invite token now)).2 with
  | .created => ((performCall s call).emit (.granted sessionId ⟨code, invite.id, token, now⟩), .created)
  | answer => (.of s, answer)

def accessResume (s : AccessServer) : AccessTask → StatementEnd → Option AccessSegment
  | .checking purpose cookie now, .ran =>
    some (afterCheck s cookie now (validateCookieHeader options s.tables cookie now) purpose)
  | .checking purpose cookie now, .failed => some (afterCheck s cookie now none purpose)
  | .lookingUp code now, .ran =>
    match s.tables.findUsableInviteByLookupHash
      (createInviteLookupHash options.crypto code options.sessionSecret) now with
    | some invite =>
      if verifyInviteCodeHash options.crypto code invite.codeHash then
        some ((Segment.of s).suspend (.creating code invite now))
      else some (reply s (.denied .invalidCode))
    | none => some ((Segment.of s).suspend (.listing code now))
  | .listing code now, .ran =>
    match (s.tables.listUsableInvites now).find? fun invite =>
      invite.codeLookupHash.all (· = []) && verifyInviteCodeHash options.crypto code invite.codeHash with
    | some invite => some ((Segment.of s).suspend (.creating code invite now))
    | none => some (reply s (.denied .invalidCode))
  | .creating code invite now, .transacted sessionId token =>
    match grantSession options s code invite now sessionId token with
    | (g, .created) => some (g.suspend (.reading sessionId token now))
    | (g, .refused) => some (g.emit (.replied (.denied .sessionLimitReached)))
    | (g, .failed) => some (g.emit (.replied .error))
  | .creating code invite now, .lost sessionId token =>
    some ((grantSession options s code invite now sessionId token).1.emit (.replied .error))
  | .reading sessionId token now, .ran =>
    match s.tables.findSessionRecordById sessionId with
    | none => some (reply s (.denied .sessionLimitReached))
    | some session =>
      match buildSetCookieHeader options.cookieName (createCookieValue options session.id.1 token.text)
        (now + options.sessionTtlDays * dayMs) now options.secureCookies with
      | some cookieHeader =>
        some (reply s (.loggedIn cookieHeader ⟨session.id, session.inviteLabel, session.expiresAt⟩))
      | none => some (reply s .error)
  | .revoking sessionId now, .ran =>
    if h : isUuid sessionId = true then
      some ((performCall s (.revokeSession ⟨sessionId, h⟩ now)).emit (.replied .unauthenticated))
    else some (reply s .error)
  | .checking _ _ _, _ => none
  | _, .failed => some (reply s .error)
  | _, _ => none

def accessServer : Machine AccessServer AccessTask AccessServerEvent StatementEnd AccessOutput where
  handle := accessHandle options enabled
  resume := accessResume options

end
end CodeShare.Access
