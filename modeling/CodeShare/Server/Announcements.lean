import CodeShare.Server.ExecutionReplies
import CodeShare.Server.HintSteps
import CodeShare.Server.SeatSteps

/-! # What a segment shows to the sockets

`Announces` lists the ways in which a segment changes what the clients know of the room, each with the
messages that every socket receives for it; `fire_announces` says that there are no others.
-/

namespace CodeShare
open Tasks
set_option autoImplicit false

/-! ## The fields behind the messages -/

structure RoomView where
  users : List RoomUserInternal
  problemId : Option ProblemId
  hintsUsed : ℕ
  hintLimit : ℕ
  pendingHintRequest : Option PendingRequest
  customTestCases : List StoredTestCase
  submissionsUsed : ℕ
  executionInProgress : Bool
  yjsToken : Token
  live : List SocketId
  joined : List SocketId
  nextSocket : SocketId
  fresh : ℕ

def Server.roomView (s : Server) : RoomView where
  users := s.room.users
  problemId := s.room.problemId
  hintsUsed := s.room.hintsUsed
  hintLimit := s.room.hintLimit
  pendingHintRequest := s.room.pendingHintRequest
  customTestCases := s.room.customTestCases
  submissionsUsed := s.room.submissionsUsed
  executionInProgress := s.room.executionInProgress
  yjsToken := s.room.yjsToken
  live := s.live
  joined := s.joined
  nextSocket := s.nextSocket
  fresh := s.fresh

/-- What both sides know, on the server's side. -/
def RoomView.shown (v : RoomView) : Shown where
  users := v.users.map fun u => u.toRoomUser
  problemId := v.problemId
  hintsUsed := v.hintsUsed
  hintLimit := v.hintLimit
  pendingHintRequest := v.pendingHintRequest.map fun r => r.toPendingHintRequest
  customTestCases := v.customTestCases.map fun t => t.toCustomTestCase
  submissionsUsed := v.submissionsUsed
  executionInProgress := v.executionInProgress

theorem shown_roomView (s : Server) : s.roomView.shown = s.room.shown := rfl

/-! ## Which trigger does what -/

/-- The socket that a segment answers with `hint:error`. -/
def refusesHint (cfg : Config) (s : Server) : ServerTrigger → Option SocketId
  | .task (.admitted socket .hintRequest _) .go =>
    if socket ∈ s.live ∧ s.registered ∧ (getHintRequestRejection cfg s socket).2 ≠ none then
      some socket
    else none
  | .task (.hintStored d) (.hint none) =>
    if cfg.enableLLMHintFallback ∧ s.room.llmCallsUsed < cfg.maxLLMCallsPerRoom then none
    else some d.socket
  | .task (.hintStored d) (.failed _) => some d.socket
  | .task (.hintIpLimiter d) (.limited _) => some d.socket
  | .task (.hintQuota d) (.answer available) =>
    if available ∧ cfg.hasGroqClient then none else some d.socket
  | .task (.hintProblem d _) (.problem found) =>
    if found.any fun problem => problem.source ≠ .userSubmitted || cfg.enableImportedProblemHints then
      none
    else some d.socket
  | .task (.hintReserve d _) (.answer false) => some d.socket
  | .task (.hintStream d _ generated _) .streamEnd =>
    match cfg.sanitizeLLMHint generated cfg.maxLLMHintChars with
    | .error _ => some d.socket
    | .ok _ => none
  | .task (.hintStream d _ _ _) (.failed _) => some d.socket
  | .task (.hintFailing d _) .go => some d.socket
  | .task (.admitted socket .solutionReveal _) .go =>
    if socket ∈ s.live ∧ s.registered ∧ (s.room.mode ≠ .interview ∨ s.room.problemId = none) then
      some socket
    else none
  | .task (.revealing socket problemId) (.problem found) =>
    if found.isSome ∧ cfg.db.solution problemId ≠ none ∧ cfg.db.solution problemId ≠ some [] then none
    else some socket
  | .task (.revealing socket _) (.failed _) => some socket
  | _ => none

/-- The user whose request for a hint becomes pending. -/
def requestsConsent (cfg : Config) (s : Server) : ServerTrigger → Option RoomUserInternal
  | .task (.admitted socket .hintRequest _) .go =>
    if socket ∈ s.live ∧ s.registered ∧ (getHintRequestRejection cfg s socket).2 = none ∧
        1 < s.room.connectedUserCount then
      s.room.users.find? fun u => u.socketId = some socket
    else none
  | _ => none

/-- The socket that is asked for consent. -/
def Server.partner (s : Server) (requester : RoomUserInternal) : Option SocketId :=
  (s.room.users.find? fun u => u.connected && u.socketId ≠ requester.socketId).bind (·.socketId)

/-- An answer or the end of the time for it ends the pending request. -/
def answersRequest (s : Server) : ServerTrigger → Bool
  | .task (.admitted socket .hintApprove _) .go | .task (.admitted socket .hintDeny _) .go =>
    decide (socket ∈ s.live) && s.registered && s.room.pendingHintRequest.isSome
  | .event (.timeout id) =>
    ((s.timers.find? fun timer => timer.id = id).any fun timer => timer.kind = .consent) &&
      s.room.pendingHintRequest.isSome
  | _ => false

/-- The socket that a segment closes. -/
def closes (s : Server) : ServerTrigger → Option SocketId
  | .event (.disconnect socket) => some socket
  | .task (.joinLimiter socket payload) .allowed =>
    if s.room.seats payload then none else some socket
  | _ => none

/-- The user who loses its socket. -/
def Server.leaver (s : Server) (socket : SocketId) : Option RoomUserInternal :=
  if s.registered then s.room.findBySocketId socket else none

/-- The requester of the pending request is gone once the socket has been closed. -/
def Server.dropsRequest (s : Server) (socket : SocketId) : Bool :=
  s.registered && s.room.pendingHintRequest.any fun request =>
    ((s.leave socket).find? fun u => u.id = request.requestedBy).any fun u => !u.connected

/-- All sockets of the room receive `room:sync`. -/
def syncs (cfg : Config) (s : Server) (t : ServerTrigger) : Bool :=
  (requestsConsent cfg s t).isSome || answersRequest s t ||
    (closes s t).any fun socket => decide (socket ∈ s.live) && s.dropsRequest socket

/-- The user whose seat is given up after the grace period. -/
def expels (s : Server) : ServerTrigger → Option UserId
  | .event (.timeout id) =>
    match s.timers.find? fun timer => timer.id = id with
    | some ⟨_, _, .grace userId⟩ =>
      if (s.room.findUser userId).any fun u => !u.connected && u.socketId = none then some userId
      else none
    | _ => none
  | _ => none

/-- The problem that the end of a hydration delivers, and to whom. -/
def rehydrates : ServerTrigger → Option (SocketId × ProblemDetail)
  | .task (.hydrating socket _ _) (.detail (some detail)) => some (socket, detail)
  | _ => none

/-! ## Joining -/

/-- The socket whose join a segment answers. -/
def answering (s : Server) : ServerTrigger → Option SocketId
  | .task (.admitted socket (.userJoin (some _)) _) .go =>
    if socket ∈ s.live ∧ s.registered ∧ (s.room.findBySocketId socket).isSome then some socket
    else none
  | .task (.joinLimiter socket payload) .allowed =>
    if s.room.seats payload then some socket else none
  | _ => none

/-- What a join tells its own socket. -/
def joinMessages (room : Room) (user : RoomUserInternal) : List Message :=
  [.userJoined user.id user.displayName user.role room.mode (some user.reconnectToken)
    (some room.yjsToken), .roomSync room.toSyncPayload]

/-- The three ways of joining, with the user, whom the others will be told of, and the users and
unused identifiers afterwards. -/
inductive Joins (s : Server) (t : ServerTrigger) (socket : SocketId) :
    RoomUserInternal → Option RoomUser → List RoomUserInternal → ℕ → Prop where
  | again (user : RoomUserInternal)
      (hseating : seating t = none)
      (huser : s.room.findBySocketId socket = some user) :
      Joins s t socket user none s.room.users s.fresh
  | reconnect (payload : UserJoinPayload) (existing user : RoomUserInternal)
      (hseating : seating t = some (socket, payload))
      (hexisting : reconnectingUser s.room payload.reconnectToken = some existing)
      (huser : user =
        { existing with connected := true, socketId := some socket, reconnectToken := s.fresh }) :
      Joins s t socket user (some user.toRoomUser) (s.reseat existing.id socket) (s.fresh + 1)
  | add (payload : UserJoinPayload)
      (hseating : seating t = some (socket, payload))
      (hnew : reconnectingUser s.room payload.reconnectToken = none)
      (hroom : s.room.isFull = false) :
      Joins s t socket (s.newUser socket payload.displayName)
        (some (s.newUser socket payload.displayName).toRoomUser)
        (s.room.users ++ [s.newUser socket payload.displayName]) (s.fresh + 2)

/-- A join is answered. -/
structure AnswersJoin (s : Server) (t : ServerTrigger) (g : Step) (socket : SocketId)
    (user : RoomUserInternal) (announced : Option RoomUser) (users : List RoomUserInternal)
    (fresh : ℕ) : Prop where
  answering : answering s t = some socket
  joins : Joins s t socket user announced users fresh
  next : g.next = [.hydrating socket s.room.problemId announced]
  view : g.state.roomView = { s.roomView with
    users := users
    fresh := fresh
    joined := if socket ∈ s.live ∧ socket ∉ s.joined then s.joined ++ [socket] else s.joined }
  out : ∀ k, messagesTo k g.out = (joinMessages g.state.room user).flatMap fun m =>
    List.replicate (reaches s.live socket k) m

/-- A hydration ends: the problem goes to the socket, the user to the others. -/
structure EndsHydration (cfg : Config) (s : Server) (t : ServerTrigger) (g : Step) (socket : SocketId)
    (p : Option ProblemId) (announced : Option RoomUser) : Prop where
  taken : t.taken = [.hydrating socket p announced]
  detail : ∀ j detail, rehydrates t = some (j, detail) → j = socket ∧ p = some detail.id
  view : g.state.roomView = s.roomView
  out : ∀ k, messagesTo k g.out =
    ((rehydrates t).toList.flatMap fun delivered =>
      List.replicate (reaches s.live delivered.1 k) (problemLoadedPayload cfg delivered.2)) ++
    announced.toList.flatMap fun user =>
      List.replicate ((s.joined.filter (· ≠ socket)).count k)
        (.userJoined user.id user.displayName user.role s.room.mode none none)

/-! ## The steps -/

inductive Announces (cfg : Config) (s : Server) (t : ServerTrigger) (g : Step) : Prop where
  | quiet
      (hview : g.state.roomView = s.roomView)
      (hout : ∀ k, ∀ m ∈ messagesTo k g.out, m.quiet = true)
  | connected
      (hview : g.state.roomView =
        { s.roomView with live := s.live ++ [s.nextSocket], nextSocket := s.nextSocket + 1 })
      (hout : ∀ k, messagesTo k g.out = [])
  | replies
      (h : Replies s t g)
      (hview : ∃ flag used, g.state.roomView =
        { s.roomView with executionInProgress := flag, submissionsUsed := used })
  | hintRefused (socket : SocketId) (message : JsString)
      (hrefuses : refusesHint cfg s t = some socket)
      (hview : g.state.roomView = s.roomView)
      (hout : ∀ k, messagesTo k g.out =
        List.replicate (reaches s.live socket k) (.hintError message))
  | hintDelivered (charge : Charge) (fullHint : JsString) (remaining : ℤ)
      (hcharge : charges cfg t = some charge)
      (hview : g.state.roomView = { s.roomView with hintsUsed := s.room.hintsUsed + 1 })
      (hout : ∀ k, messagesTo k g.out =
        List.replicate (s.joined.count k) (.hintDone fullHint remaining))
  | hintAsked (requester : RoomUserInternal)
      (hrequester : requestsConsent cfg s t = some requester)
      (hpending : s.room.pendingHintRequest = none)
      (hview : g.state.roomView = { s.roomView with
        pendingHintRequest := some ⟨⟨requester.id, s.now⟩, s.nextRequest⟩ })
      (hout : ∀ k, messagesTo k g.out =
        List.replicate (s.joined.count k) (.roomSync g.state.room.toSyncPayload) ++
          (s.partner requester).toList.flatMap fun other => List.replicate (reaches s.live other k)
            (.hintPending requester.id requester.displayName s.room.hintsUsed s.room.hintLimit))
  | hintAnswered (requester : Option SocketId)
      (hanswers : answersRequest s t = true)
      (hview : g.state.roomView = { s.roomView with pendingHintRequest := none })
      (hout : ∀ k, messagesTo k g.out =
        List.replicate (s.joined.count k) (.roomSync g.state.room.toSyncPayload) ++
          requester.toList.flatMap fun socket => List.replicate (reaches s.live socket k) .hintDenied)
  | loaded (detail : ProblemDetail) (after : List Message)
      (hloads : loads t = some detail.id)
      (hafter : ∀ m ∈ after, m.quiet = true)
      (hview : g.state.roomView = { s.roomView with
        problemId := some detail.id
        hintLimit := hintLimitByDifficulty detail.difficulty
        hintsUsed := 0
        pendingHintRequest := none
        customTestCases := [] })
      (hout : ∀ k, messagesTo k g.out =
        List.replicate (s.joined.count k) (problemLoadedPayload cfg detail) ++
          after.flatMap fun m => List.replicate (s.joined.count k) m)
  | testCaseAdded (testCase : StoredTestCase)
      (hview : g.state.roomView =
        { s.roomView with customTestCases := s.room.customTestCases ++ [testCase] })
      (hout : ∀ k, messagesTo k g.out =
        List.replicate (s.joined.count k) (.testcaseAdded testCase.toCustomTestCase))
  | joined (socket : SocketId) (user : RoomUserInternal) (announced : Option RoomUser)
      (users : List RoomUserInternal) (fresh : ℕ)
      (h : AnswersJoin s t g socket user announced users fresh)
  | hydrated (socket : SocketId) (p : Option ProblemId) (announced : Option RoomUser)
      (h : EndsHydration cfg s t g socket p announced)
  | closed (socket : SocketId) (before : SocketId → List Message)
      (hcloses : closes s t = some socket)
      (hlive : socket ∈ s.live)
      (hbefore : ∀ k, ∀ m ∈ before k, m.quiet = true)
      (hview : g.state.roomView = { s.roomView with
        users := s.leave socket
        live := s.live.filter (· ≠ socket)
        joined := s.joined.filter (· ≠ socket)
        pendingHintRequest := if s.dropsRequest socket then none else s.room.pendingHintRequest })
      (hout : ∀ k, messagesTo k g.out = before k ++
        ((s.leaver socket).toList.flatMap fun user =>
          List.replicate ((s.joined.filter (· ≠ socket)).count k) (.userLeft user.id)) ++
        if s.dropsRequest socket then
          List.replicate ((s.joined.filter (· ≠ socket)).count k)
            (.roomSync g.state.room.toSyncPayload)
        else [])
  | removed (userId : UserId) (rotated : Bool)
      (hexpels : expels s t = some userId)
      (hview : g.state.roomView = { s.roomView with
        users := s.room.users.filter (·.id ≠ userId)
        yjsToken := if rotated then s.fresh else s.room.yjsToken
        fresh := if rotated then s.fresh + 1 else s.fresh })
      (hout : ∀ k, messagesTo k g.out = if rotated then
        List.replicate (s.joined.count k) (.yjsTokenRotated s.fresh) else [])

variable {cfg : Config} {s : Server} {t : ServerTrigger} {o : Outcome} {g : Step} {socket : SocketId}

theorem Announces.of_state (h : g.state = s) (hout : ∀ k, ∀ m ∈ messagesTo k g.out, m.quiet = true) :
    Announces cfg s t g :=
  .quiet (by rw [h]) hout

theorem Announces.of_silent (h : g.state = s) (hout : g.out = []) : Announces cfg s t g :=
  .of_state h fun k => by
    rw [hout]
    exact List.forall_mem_nil _

/-- A quiet message to one socket. -/
theorem Announces.of_toSocket (g : Step) (socket : SocketId) {m : Message} (hm : m.quiet = true)
    (h : g.state = s) (hout : g.out = []) : Announces cfg s t (g.toSocket socket m) :=
  .of_state h fun k m' hm' => by
    rw [messagesTo_toSocket, hout, messagesTo_nil, List.nil_append] at hm'
    rwa [List.eq_of_mem_replicate hm']

/-- A quiet message to the room. -/
theorem Announces.of_toRoom (g : Step) {m : Message} (hm : m.quiet = true) (h : g.state = s)
    (hout : g.out = []) : Announces cfg s t (g.toRoom m) :=
  .of_state h fun k m' hm' => by
    rw [messagesTo_toRoom, hout, messagesTo_nil, List.nil_append] at hm'
    rwa [List.eq_of_mem_replicate hm']

end CodeShare
