import CodeShare.Server.ExecutionHandler

/-! # The handshake

`createHandshakeMiddleware`: whoever may use the server, names a room and comes from an allowed origin is
counted against the connection limit of its address. What the two awaited calls answer is an argument.
-/

namespace CodeShare
set_option autoImplicit false

/-- The headers and the query of a handshake; a room code that is no string is missing. -/
structure Handshake where
  cookie : Option JsString
  roomCode : Option JsString
  origin : Option JsString
  remoteAddress : Option JsString
  forwardedFor : Option JsString

/-- `toLowerCase` is that of JavaScript strings. -/
structure HandshakeConfig where
  hasAccessService : Bool
  allowedOrigins : Option (List JsString)
  trustedProxyIps : List JsString
  toLowerCase : JsString → JsString

/-- What `consume` answers. -/
inductive RateLimitCheck where
  | allowed
  | limited (retryAfterSeconds : ℕ)

/-- `next` with or without an error, or a promise that is rejected. -/
inductive HandshakeResult where
  | accepted (roomCode clientIp : JsString)
  | refused (message : JsString)
  | rejected (reason : Failure)

/-- An empty address counts as missing. -/
def normalizeIp : Option JsString → Option JsString
  | none | some [] => none
  | some ip => if js "::ffff:" <+: ip then some (ip.drop 7) else some ip

def isOriginAllowed (origin : Option JsString) (allowedOrigins : List JsString) : Bool :=
  match origin with
  | none | some [] => false
  | some origin => decide (origin ∈ allowedOrigins)

/-- An empty normalized proxy address is filtered out, and an empty forwarded address is not taken. -/
def extractClientIp (cfg : HandshakeConfig) (request : Handshake) : JsString :=
  let remoteAddress := normalizeIp request.remoteAddress
  let trusted := (cfg.trustedProxyIps.filterMap fun ip => normalizeIp (some ip)).filter (· ≠ [])
  let forwarded := request.forwardedFor.map fun header => jsTrim (header.takeWhile (· ≠ 44))
  match remoteAddress with
  | none => js "unknown"
  | some address =>
    if address ≠ [] ∧ address ∈ trusted ∧ forwarded ≠ none ∧ forwarded ≠ some [] then
      forwarded.getD []
    else address

def normalizeRoomCode (cfg : HandshakeConfig) (roomCode : JsString) : JsString :=
  cfg.toLowerCase (jsTrim roomCode)

/-- The refusals before the connection limit; a validation that fails counts as one that is denied. -/
def handshakeRefusal (cfg : HandshakeConfig) (request : Handshake)
    (validation : Except Failure Bool) : Option JsString :=
  let allowed := match validation with
    | .ok allowed => allowed
    | .error _ => false
  if cfg.hasAccessService && !allowed then some (js "Access required")
  else if request.roomCode.getD [] = [] then
    some (js "Missing required roomCode query parameter")
  else if cfg.allowedOrigins.any fun origins => !isOriginAllowed request.origin origins then
    some (js "Origin not allowed")
  else none

/-- The middleware; nobody catches a check of the limit that fails. -/
def handshakeMiddleware (cfg : HandshakeConfig) (request : Handshake)
    (validation : Except Failure Bool) (check : Except Failure RateLimitCheck) : HandshakeResult :=
  match handshakeRefusal cfg request validation with
  | some message => .refused message
  | none =>
    match check with
    | .error reason => .rejected reason
    | .ok (.limited retryAfterSeconds) =>
      .refused (js "Too many websocket connections. Try again in " ++
        decimalUnits retryAfterSeconds ++ js "s.")
    | .ok .allowed =>
      .accepted (normalizeRoomCode cfg (request.roomCode.getD [])) (extractClientIp cfg request)

/-- The promise is rejected exactly when the limit is reached and its check fails. -/
theorem handshakeMiddleware_rejected_iff {cfg : HandshakeConfig} {request : Handshake}
    {validation : Except Failure Bool} {check : Except Failure RateLimitCheck} {reason : Failure} :
    handshakeMiddleware cfg request validation check = .rejected reason ↔
      handshakeRefusal cfg request validation = none ∧ check = .error reason := by
  unfold handshakeMiddleware
  cases handshakeRefusal cfg request validation with
  | some message => exact ⟨nofun, nofun⟩
  | none =>
    cases check with
    | error reason' =>
      rw [HandshakeResult.rejected.injEq, Except.error.injEq]
      exact ⟨fun heq => ⟨rfl, heq⟩, fun hboth => hboth.2⟩
    | ok answer => cases answer <;> exact ⟨nofun, nofun⟩

end CodeShare
