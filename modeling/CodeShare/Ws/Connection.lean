import CodeShare.Text.Uri
import CodeShare.Ws.DocRegistry

/-! # Connections to a document

`yjsConnection.ts`: the room and the token in the URL of a request, how a connection joins a document, and
what the document does with a message of a connection.
-/

namespace CodeShare.Ws
set_option autoImplicit false

/-! ## The URL -/

/-- The last of the path segments that are not empty. -/
def lastSegment (url : JsString) : Option JsString :=
  (((url.takeWhile (· ≠ 63)).splitOn 47).filter (· ≠ [])).getLast?

def normalizeRoomName (toLowerCase : JsString → JsString) (roomName : JsString) : Option JsString :=
  (decodeURIComponent roomName).map fun decoded => toLowerCase (jsTrim decoded)

/-- `none` is an exception. -/
def extractRoomName (toLowerCase : JsString → JsString) : Option JsString → Option JsString
  | none => some (js "default")
  | some url =>
    match lastSegment url with
    | none => some (js "default")
    | some roomName => normalizeRoomName toLowerCase roomName

def extractToken : Option JsString → Option JsString
  | none => none
  | some url =>
    if url.all (· ≠ 63) then none else searchParam (url.dropWhile (· ≠ 63)) (js "token")

/-! ## Joining -/

section
variable {Document Awareness Payload : Type} (yjs : Yjs Document Awareness Payload)

/-- An error is an exception, with what has been done before it. -/
abbrev Attempt (Document Awareness Payload : Type) :=
  Except (Hub Document Awareness Payload) (Hub Document Awareness Payload)

/-- `conn.send` where nothing catches its exception. -/
def Hub.trySend (w : Hub Document Awareness Payload) (conn : ConnId) (message : Message Payload) :
    Attempt Document Awareness Payload :=
  match w.send conn message with
  | some w => .ok w
  | none => .error w

def sendAwarenessStates (conn : ConnId) (w : Hub Document Awareness Payload) :
    Attempt Document Awareness Payload :=
  let clients := yjs.getStates w.doc.awareness
  if clients = [] then .ok w else w.trySend conn (awarenessMessage yjs w.doc.awareness clients)

def setupWSConnection (conn : ConnId) (w : Hub Document Awareness Payload) :
    Attempt Document Awareness Payload :=
  match { w with doc := w.doc.register conn }.trySend conn
      (.syncStep1 (yjs.encodeStateVector w.doc.document)) with
  | .ok w => sendAwarenessStates yjs conn w
  | .error w => .error w

/-! ## Messages -/

/-- A document update: its event fires when it has changed something. -/
def applyUpdate (update : Payload) (w : Hub Document Awareness Payload) :
    Hub Document Awareness Payload :=
  let (document, event) := yjs.applyUpdate w.doc.document update
  let w := { w with doc := { w.doc with document := document } }
  match event with
  | some update => onUpdate yjs update w
  | none => w

def applyAwarenessUpdate (conn : ConnId) (update : Payload) (w : Hub Document Awareness Payload) :
    Attempt Document Awareness Payload :=
  let (awareness, change) := yjs.applyAwarenessUpdate w.doc.awareness update
  let w := { w with doc := { w.doc with awareness := awareness } }
  match change with
  | none => .error w
  | some change => .ok (if change.changedClients = [] then w else onAwarenessUpdate yjs conn change w)

/-- What is done with a message, by its type. -/
def readMessage (conn : ConnId) (message : Message Payload) (w : Hub Document Awareness Payload) :
    Attempt Document Awareness Payload :=
  match message with
  | .syncStep1 stateVector =>
    match yjs.encodeDiff w.doc.document stateVector with
    | some diff => w.trySend conn (.syncStep2 diff)
    | none => .error w
  | .syncStep2 update | .syncUpdate update => .ok (applyUpdate yjs update w)
  | .awareness update => applyAwarenessUpdate yjs conn update w
  | .other => .ok w
  | .unreadable => .error w

/-- `Y.encodeStateAsUpdate(doc).byteLength`. -/
def encodedLength (document : Document) : ℕ := yjs.byteLength (yjs.encodeStateAsUpdate document)

def documentTooLarge : CloseFrame := ⟨1009, js "Document too large"⟩

def invalidMessage : CloseFrame := ⟨1003, js "Invalid Yjs message"⟩

def messageTooLarge : CloseFrame := ⟨1009, js "Message too large"⟩

def messageListener (maxDocBytes : ℕ) (conn : ConnId) (message : Message Payload)
    (w : Hub Document Awareness Payload) : Hub Document Awareness Payload :=
  match readMessage yjs conn message w with
  | .ok w =>
    if encodedLength yjs w.doc.document > maxDocBytes then
      closeConn yjs (some documentTooLarge) conn w
    else w
  | .error w => closeConn yjs (some invalidMessage) conn w

/-- A message of the given size, once it has been let through. -/
def handleIncomingMessage (maxMessageBytes maxDocBytes : ℕ) (conn : ConnId) (size : ℕ)
    (message : Message Payload) (w : Hub Document Awareness Payload) :
    Hub Document Awareness Payload :=
  if size > maxMessageBytes then w.close conn (some messageTooLarge)
  else messageListener yjs maxDocBytes conn message w

end
end CodeShare.Ws
