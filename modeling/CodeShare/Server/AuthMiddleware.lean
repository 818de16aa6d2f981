import CodeShare.Server.State

/-! # The per-event middleware

The checks of `createAuthMiddleware`, in order. An event that passes is not handled at once: Socket.IO
calls the handler on a later tick, so passing leaves an `admitted` task.
-/

namespace CodeShare
open Tasks
set_option autoImplicit false

def ClientEvent.interviewerOnly : ClientEvent → Bool
  | problemSelect _ | problemImport _ | solutionReveal => true
  | _ => false

def ClientEvent.blockedInInterview : ClientEvent → Bool
  | hintRequest => true
  | _ => false

def ClientEvent.requiresNoExecution : ClientEvent → Bool
  | codeRun | codeSubmit => true
  | _ => false

def ClientEvent.requiresSwitchableProblem : ClientEvent → Bool
  | problemSelect _ | problemImport _ => true
  | _ => false

def ClientEvent.isHintResponse : ClientEvent → Bool
  | hintApprove | hintDeny => true
  | _ => false

/-- The checks that depend on the kind of room. -/
def modeRejection (room : Room) (user : RoomUserInternal) (event : ClientEvent) : Option JsString :=
  match event, room.mode with
  | .solutionReveal, .collaboration => some (js "Solutions can only be revealed in interview mode.")
  | event, .interview =>
    if event.interviewerOnly && user.role ≠ .interviewer then
      some (js "Only the interviewer can perform this action.")
    else if event.blockedInInterview then some (js "Hints are not available in interview mode.")
    else none
  | _, .collaboration => none

/-- The checks that depend on the room's state. -/
def stateRejection (room : Room) (user : RoomUserInternal) (event : ClientEvent) : Option JsString :=
  if event.requiresNoExecution then room.canExecute
  else if event.requiresSwitchableProblem then room.canSwitchProblem
  else if event.isHintResponse then
    match room.pendingHintRequest with
    | none => some (js "No hint request is pending.")
    | some request =>
      if request.requestedBy = user.id then
        some (js "Only the other participant can respond to a hint request.")
      else none
  else none

/-- Why an event of a user is rejected. -/
def eventRejection (room : Room) (user : RoomUserInternal) (event : ClientEvent) : Option JsString :=
  (modeRejection room user event).or (stateRejection room user event)

/-- What an answering user has in front of it. -/
def seenRequest (room : Room) (user : RoomUserInternal) (event : ClientEvent) : Option SeenRequest :=
  if event.isHintResponse then room.pendingHintRequest.map fun request => ⟨request, user.id⟩ else none

/-- Events of sockets outside the room are dropped without a message. -/
def authMiddleware (s : Server) (socket : SocketId) (event : ClientEvent) : Step :=
  match event with
  | .userJoin _ => (Segment.of s).suspend (.admitted socket event none)
  | event =>
    match s.getRoom with
    | none => .of s
    | some room =>
      match room.users.find? fun u => u.socketId = some socket with
      | none => .of s
      | some user =>
        match eventRejection room user event with
        | some reason => (Segment.of s).toSocket socket (.eventRejected event.name reason none)
        | none => (Segment.of s).suspend (.admitted socket event (seenRequest room user event))

end CodeShare
