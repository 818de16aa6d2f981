import CodeShare.Server.State

/-! # Hints

`hint:request`, `hint:approve` and `hint:deny`, the consent timeout, and a delivery from the look-up
of a stored hint to the end of an LLM stream.
-/

namespace CodeShare
open Tasks
set_option autoImplicit false

/-! ## Requests and answers -/

def rejectHintRequest (g : Step) (socket : SocketId) (message : JsString) : Step :=
  g.toSocket socket (.hintError message)

def clearPendingHintRequest (g : Step) : Step :=
  (g.modifyRoom fun room => { room with pendingHintRequest := none }).syncRoom

/-- The checks of `getHintRequestRejection` behind the cooldown. -/
def hintRequestRefusal (room : Room) : Option JsString :=
  if room.problemId = none then some (js "Select a problem to request hints.")
  else if room.hintLimit ≤ room.hintsUsed then some (js "No more hints available.")
  else if room.executionInProgress then some (js "Cannot request hints while code is executing.")
  else if room.pendingHintRequest ≠ none then some (js "A hint request is already pending.")
  else if room.hintStreaming then some (js "A hint is currently being delivered.")
  else none

/-- Any attempt behind the cooldown starts it anew. -/
def getHintRequestRejection (cfg : Config) (s : Server) (socket : SocketId) :
    Server × Option JsString :=
  if s.now - (s.lastHintRequestTime socket).getD 0 < cfg.hintCooldownMs then
    (s, some (js "Please wait a few seconds before requesting another hint."))
  else
    ({ s with lastHintRequestTime := fun x =>
        if x = socket then some s.now else s.lastHintRequestTime x },
      hintRequestRefusal s.room)

def startConsentTimer (cfg : Config) (s : Server) : Server :=
  let s := s.clearConsentTimer
  { s.setTimeout cfg.hintConsentMs .consent with consentTimer := some s.nextTimer }

def sendPendingHintRequest (cfg : Config) (g : Step) (socket : SocketId) : Step :=
  match g.state.room.users.find? fun u => u.socketId = some socket with
  | none => g
  | some requester =>
    let g := (g.modify fun s => { s with
      room := { s.room with pendingHintRequest := some ⟨⟨requester.id, s.now⟩, s.nextRequest⟩ }
      nextRequest := s.nextRequest + 1 }).syncRoom
    match g.state.room.users.find? fun u => u.connected && u.socketId ≠ some socket with
    | none => g
    | some otherUser =>
      match otherUser.socketId with
      | none => g
      | some otherSocket =>
        (g.toSocket otherSocket (.hintPending requester.id requester.displayName
          g.state.room.hintsUsed g.state.room.hintLimit)).modify (startConsentTimer cfg)

/-- `deliverHint` up to its first await. -/
def deliverHint (g : Step) (socket : SocketId) : Step :=
  g.suspend (.hintStored ⟨socket, g.state.room.problemId, g.state.room.hintsUsed⟩)

def handleHintRequest (cfg : Config) (s : Server) (socket : SocketId) : Step :=
  match getHintRequestRejection cfg s socket with
  | (s, some message) => rejectHintRequest (.of s) socket message
  | (s, none) =>
    if s.room.connectedUserCount ≤ 1 then deliverHint (.of s) socket
    else sendPendingHintRequest cfg (.of s) socket

def handleHintApprove (s : Server) (socket : SocketId) (seen : Option SeenRequest) : Step :=
  match s.room.pendingHintRequest with
  | none => .of s
  | some request =>
    deliverHint ((clearPendingHintRequest (.of s.clearConsentTimer)).emit (.hintApproved request seen))
      socket

/-- Drop the pending request and tell its requester. -/
def denyPendingHintRequest (g : Step) (request : PendingRequest) : Step :=
  let g := clearPendingHintRequest g
  match (g.state.room.findUser request.requestedBy).bind (·.socketId) with
  | none => g
  | some socket => g.toSocket socket .hintDenied

def handleHintDeny (s : Server) : Step :=
  match s.room.pendingHintRequest with
  | none => .of s
  | some request => denyPendingHintRequest (.of s.clearConsentTimer) request

/-- The callback of the consent timer. -/
def handleConsentTimeout (s : Server) : Step :=
  let s := { s with consentTimer := none }
  match s.room.pendingHintRequest with
  | none => .of s
  | some request => denyPendingHintRequest (.of s) request

/-- Runs after the room handler has marked the user of the socket. -/
def handleRequesterDisconnect (g : Step) : Step :=
  match g.state.room.pendingHintRequest with
  | none => g
  | some request =>
    match g.state.room.findUser request.requestedBy with
    | none => g
    | some requester =>
      if requester.connected then g else clearPendingHintRequest (g.modify Server.clearConsentTimer)

/-! ## Deliveries -/

def emitHintDelivered (g : Step) (fullHint : JsString) : Step :=
  g.toRoom (.hintDone fullHint (g.state.room.hintLimit - g.state.room.hintsUsed : ℤ))

def deliverStoredHint (g : Step) (d : Delivery) (hint : Hint) : Step :=
  let g := g.modifyRoom fun room => { room with
    hintsUsed := room.hintsUsed + 1
    hintHistory := room.hintHistory ++ [hint.hintText] }
  emitHintDelivered (g.emit (.hintCharged d true hint.problemId)) hint.hintText

/-- The `catch` of `deliverHint`. -/
def afterHintFailure (s : Server) (d : Delivery) : Failure → Step
  | .capacity retryAfterSeconds =>
    rejectHintRequest (.of s) d.socket (js "AI hint service is busy. Try again in " ++
      decimalUnits retryAfterSeconds ++ js "s.")
  | _ => rejectHintRequest (.of s) d.socket (js "Failed to retrieve hint. Please try again.")

/-- `prepareLLMHintRequest` up to its first await. -/
def prepareLLMHintRequest (cfg : Config) (s : Server) (d : Delivery) : Step :=
  if !cfg.enableLLMHintFallback then
    rejectHintRequest (.of s) d.socket (js "No more curated hints available for this problem.")
  else if cfg.maxLLMCallsPerRoom ≤ s.room.llmCallsUsed then
    rejectHintRequest (.of s) d.socket (js "AI hint limit for this room has been reached.")
  else (Segment.of s).suspend (.hintIpLimiter d)

def afterStoredHint (cfg : Config) (s : Server) (d : Delivery) : Outcome → Option Step
  | .hint (some hint) =>
    if d.problemId = some hint.problemId then some (deliverStoredHint (.of s) d hint) else none
  | .hint none => some (prepareLLMHintRequest cfg s d)
  | .failed reason => some (afterHintFailure s d reason)
  | _ => none

def afterHintIpLimiter (s : Server) (d : Delivery) : Outcome → Option Step
  | .allowed => some ((Segment.of s).suspend (.hintQuota d))
  | .limited retryAfterSeconds =>
    some (rejectHintRequest (.of s) d.socket (js "Too many hint requests. Try again in " ++
      decimalUnits retryAfterSeconds ++ js "s."))
  | .failed reason => some ((Segment.of s).suspend (.hintFailing d reason))
  | _ => none

def dailyHintLimitReached : JsString := js "Daily AI hint limit reached. Please try again tomorrow."

def afterHintQuota (cfg : Config) (s : Server) (d : Delivery) : Outcome → Option Step
  | .answer true =>
    if !cfg.hasGroqClient then
      some (rejectHintRequest (.of s) d.socket
        (js "AI hint fallback is unavailable because Groq is not configured."))
    else
      match s.room.problemId with
      | none => none
      | some problemId => some ((Segment.of s).suspend (.hintProblem d problemId))
  | .answer false => some (rejectHintRequest (.of s) d.socket dailyHintLimitReached)
  | .failed reason => some ((Segment.of s).suspend (.hintFailing d reason))
  | _ => none

def hintPrompt (s : Server) (problem : Problem) : HintPrompt where
  problemId := problem.id
  description := problem.description
  constraints := problem.constraints
  currentCode := s.doc.getD []
  hintLevel := min (s.room.hintsUsed + 1) 3
  previousHints := s.room.hintHistory

def afterHintProblem (cfg : Config) (s : Server) (d : Delivery) (problemId : ProblemId) :
    Outcome → Option Step
  | .problem (some problem) =>
    if problem.id ≠ problemId then none
    else if problem.source = .userSubmitted ∧ !cfg.enableImportedProblemHints then
      some (rejectHintRequest (.of s) d.socket (js "AI hints for imported problems are disabled."))
    else if cfg.hasLLMLimiter then
      some ((Segment.of s).suspend (.hintLimiter d (hintPrompt s problem)))
    else some ((Segment.of s).suspend (.hintReserve d (hintPrompt s problem)))
  | .problem none => some (rejectHintRequest (.of s) d.socket (js "Problem not found."))
  | .failed reason => some ((Segment.of s).suspend (.hintFailing d reason))
  | _ => none

def afterHintLimiter (s : Server) (d : Delivery) (prompt : HintPrompt) : Outcome → Option Step
  | .go => some ((Segment.of s).suspend (.hintReserve d prompt))
  | .failed reason => some ((Segment.of s).suspend (.hintFailing d reason))
  | _ => none

/-- With the reservation granted, `streamLLMHint` starts. -/
def afterHintReserve (s : Server) (d : Delivery) (prompt : HintPrompt) : Outcome → Option Step
  | .answer true =>
    some ((((Segment.of s).modifyRoom fun room => { room with hintStreaming := true }).emit
      (.llmRequest prompt)).suspend (.hintStream d prompt [] false))
  | .answer false => some (rejectHintRequest (.of s) d.socket dailyHintLimitReached)
  | .failed reason => some ((Segment.of s).suspend (.hintFailing d reason))
  | _ => none

/-- `/empty|code|solution/i` -/
def mentionsPolicy (message : JsString) : Bool :=
  let lower := message.map fun c => if 65 ≤ c ∧ c ≤ 90 then c + 32 else c
  decide (js "empty" <:+: lower) || decide (js "code" <:+: lower) || decide (js "solution" <:+: lower)

/-- The client message of `classifyHintStreamFailure`. -/
def hintStreamFailureMessage : Failure → JsString
  | .error message | .aborted message =>
    if mentionsPolicy message then js "Generated hint was blocked by the output policy."
    else js "Failed to generate hint. Please try again."
  | _ => js "Failed to generate hint. Please try again."

def endHintStream (g : Step) : Step :=
  g.modifyRoom fun room => { room with hintStreaming := false }

def failHintStream (s : Server) (d : Delivery) (reason : Failure) : Step :=
  endHintStream (rejectHintRequest (.of s) d.socket (hintStreamFailureMessage reason))

def finishHintStream (cfg : Config) (s : Server) (d : Delivery) (prompt : HintPrompt)
    (generated : JsString) : Step :=
  match cfg.sanitizeLLMHint generated cfg.maxLLMHintChars with
  | .error message => failHintStream s d (.error message)
  | .ok fullHint =>
    let g := (Segment.of s).modifyRoom fun room => { room with
      hintsUsed := room.hintsUsed + 1
      llmCallsUsed := room.llmCallsUsed + 1
      hintHistory := room.hintHistory ++ [fullHint] }
    endHintStream (emitHintDelivered (g.emit (.hintCharged d false prompt.problemId)) fullHint)

/-- After too much text the loop breaks; the generator is then closed. -/
def afterHintStream (cfg : Config) (s : Server) (d : Delivery) (prompt : HintPrompt)
    (generated : JsString) (closing : Bool) : Outcome → Option Step
  | .chunk text =>
    if closing then none
    else
      let generated := generated ++ text
      some (((Segment.of s).toRoom (.hintChunk text)).suspend
        (.hintStream d prompt generated (cfg.maxLLMHintChars * 2 < generated.length)))
  | .streamEnd => some (finishHintStream cfg s d prompt generated)
  | .failed reason => some (failHintStream s d reason)
  | _ => none

end CodeShare
