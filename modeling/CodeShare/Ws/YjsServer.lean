import CodeShare.Foundations.Tasks
import CodeShare.Ws.Connection

/-! # The Yjs server

`yjs.ts` with the registry of documents and the rooms it looks up, as a machine: the handler of a
connection and that of a message wait for the access check, and anything may happen meanwhile. What
`validateCookie` says is the outcome for which they wait.
-/

namespace CodeShare.Ws
open Tasks
set_option autoImplicit false

abbrev DocId := ℕ

def normalizeRoomCode (toLowerCase : JsString → JsString) (roomCode : JsString) : JsString :=
  toLowerCase (jsTrim roomCode)

/-- The options of `setupYjsServer` with what it is built on. Lower case stays as it is. -/
structure YjsServerConfig (Document Awareness Payload : Type) where
  yjs : Yjs Document Awareness Payload
  toLowerCase : JsString → JsString
  normalized : ∀ text, normalizeRoomCode toLowerCase (normalizeRoomCode toLowerCase text) =
    normalizeRoomCode toLowerCase text
  lowerCase : ∀ text : JsString, (∀ c ∈ text, 97 ≤ c ∧ c ≤ 122) → toLowerCase text = text
  allowedOrigins : Option (List JsString)
  maxMessageBytes : ℕ
  maxDocBytes : ℕ
  accessService : Bool

structure YjsRequest where
  url : Option JsString
  origin : Option JsString

/-- What the handler of a connection keeps while it waits. -/
structure Opened (toLowerCase : JsString → JsString) where
  conn : ConnId
  request : YjsRequest
  roomName : JsString
  extracted : extractRoomName toLowerCase request.url = some roomName

/-- The rooms with their current tokens, the documents of the registry, every document that has been
created, and the document of every connection that has been set up. -/
structure YjsServer (Document Awareness : Type) where
  rooms : List (JsString × JsString)
  docs : List (JsString × DocId)
  heap : DocId → WSSharedDoc Document Awareness
  nextDoc : DocId
  sockets : ConnId → Socket
  joined : ConnId → Option DocId

inductive YjsEvent (Payload : Type) where
  | connection (conn : ConnId) (request : YjsRequest)
  | message (conn : ConnId) (size : ℕ) (message : Message Payload)
  | closing (conn : ConnId)
  | close (conn : ConnId)
  | sendFailed (conn : ConnId)
  | pingFailed (conn : ConnId)
  | revalidate (conn : ConnId)
  | createRoom (roomCode yjsToken : JsString)
  | rotateToken (roomCode yjsToken : JsString)
  | destroyRoom (roomCode : JsString)
  | shutdown

inductive YjsTask (toLowerCase : JsString → JsString) (Payload : Type) where
  | validateConnection (opened : Opened toLowerCase)
  | validateMessage (conn : ConnId) (size : ℕ) (message : Message Payload)
  | revalidateAccess (conn : ConnId)

inductive Validation where
  | allowed
  | denied

section
variable {Document Awareness Payload : Type} (cfg : YjsServerConfig Document Awareness Payload)

abbrev YjsStep :=
  Segment (YjsServer Document Awareness) (YjsTask cfg.toLowerCase Payload) (WsEffect Payload)

namespace YjsServer
variable (s : YjsServer Document Awareness)

def hub (d : DocId) : Hub Document Awareness Payload := ⟨s.heap d, s.sockets, []⟩

def setReadyState (conn : ConnId) (state : ReadyState) : YjsServer Document Awareness :=
  { s with sockets := Function.update s.sockets conn { s.sockets conn with readyState := state } }

/-- What is done with a document and its connections. -/
def put (d : DocId) (w : Hub Document Awareness Payload) : YjsServer Document Awareness :=
  { s with heap := Function.update s.heap d w.doc, sockets := w.sockets }

def onDoc (d : DocId) (f : Hub Document Awareness Payload → Hub Document Awareness Payload) :
    YjsStep cfg :=
  ⟨s.put d (f (s.hub d)), (f (s.hub d)).out, []⟩

/-- `ws.close` of a connection, whatever its document. -/
def closeSocket (conn : ConnId) (frame : CloseFrame) : YjsStep cfg :=
  if (s.sockets conn).alive then
    (Segment.of (s.setReadyState conn .closing)).emit (.closed conn (some frame))
  else Segment.of s

def findSharedDoc (name : JsString) : Option DocId := (s.docs.find? (·.1 = name)).map Prod.snd

def getOrCreateSharedDoc (name : JsString) : YjsServer Document Awareness × DocId :=
  match s.findSharedDoc name with
  | some d => (s, d)
  | none =>
    ({ s with
        docs := s.docs ++ [(name, s.nextDoc)]
        heap := Function.update s.heap s.nextDoc (newSharedDoc cfg.yjs name)
        nextDoc := s.nextDoc + 1 }, s.nextDoc)

/-- The connections are closed one by one before the document leaves the registry. -/
def destroySharedDoc (name : JsString) : YjsStep cfg :=
  match s.findSharedDoc name with
  | none => Segment.of s
  | some d =>
    (onDoc cfg s d fun w =>
        (w.doc.conns.map Prod.fst).foldl (fun w conn => closeConn cfg.yjs none conn w) w).modify
      fun s => { s with docs := s.docs.filter (·.1 ≠ name) }

def destroyAllSharedDocs : YjsStep cfg :=
  (s.docs.map Prod.fst).foldl
    (fun g name => let next := destroySharedDoc cfg g.state name
      ⟨next.state, g.out ++ next.out, g.next ++ next.next⟩) (Segment.of s)

/-- The current token of a room. -/
def getRoom (roomCode : JsString) : Option JsString :=
  (s.rooms.find? (·.1 = normalizeRoomCode cfg.toLowerCase roomCode)).map Prod.snd

end YjsServer

open YjsServer

/-! ## The handler of a connection -/

def isOriginAllowed (origin : Option JsString) (allowedOrigins : List JsString) : Bool :=
  match origin with
  | none => false
  | some origin => origin ≠ [] ∧ origin ∈ allowedOrigins

def accessRequired : CloseFrame := ⟨4401, js "Access required"⟩

def forbidden : CloseFrame := ⟨4403, js "Forbidden"⟩

def unauthorized : CloseFrame := ⟨4401, js "Unauthorized"⟩

/-- Joining the document of the room. -/
def register (s : YjsServer Document Awareness) (opened : Opened cfg.toLowerCase) : YjsStep cfg :=
  let (s, d) := s.getOrCreateSharedDoc cfg opened.roomName
  let s := { s with joined := Function.update s.joined opened.conn (some d) }
  match setupWSConnection cfg.yjs opened.conn (s.hub d) with
  | .ok w => ⟨s.put d w, w.out, []⟩
  | .error w => ⟨s.put d w, w.out ++ [.unhandledRejection], []⟩

/-- Behind the access check. -/
def admitConnection (s : YjsServer Document Awareness) (opened : Opened cfg.toLowerCase) : YjsStep cfg :=
  if cfg.allowedOrigins.any fun origins => !isOriginAllowed opened.request.origin origins then
    s.closeSocket cfg opened.conn forbidden
  else
    match s.getRoom cfg opened.roomName, extractToken opened.request.url with
    | some yjsToken, some token =>
      if token = [] ∨ yjsToken ≠ token then s.closeSocket cfg opened.conn unauthorized
      else register cfg s opened
    | _, _ => s.closeSocket cfg opened.conn unauthorized

/-- A connection is open when it gets to its handler, which is asynchronous: its exceptions are unhandled
rejections. -/
def onConnection (s : YjsServer Document Awareness) (conn : ConnId) (request : YjsRequest) :
    YjsStep cfg :=
  let s := s.setReadyState conn .open
  match h : extractRoomName cfg.toLowerCase request.url with
  | none => (Segment.of s).emit .unhandledRejection
  | some roomName =>
    if cfg.accessService then (Segment.of s).suspend (.validateConnection ⟨conn, request, roomName, h⟩)
    else admitConnection cfg s ⟨conn, request, roomName, h⟩

/-! ## The rooms -/

def rotateToken (s : YjsServer Document Awareness) (roomCode yjsToken : JsString) :
    YjsServer Document Awareness :=
  { s with rooms := s.rooms.map fun room => if room.1 = roomCode then (roomCode, yjsToken) else room }

def createRoom (s : YjsServer Document Awareness) (roomCode yjsToken : JsString) :
    YjsServer Document Awareness :=
  if s.rooms.any (·.1 = roomCode) then rotateToken s roomCode yjsToken
  else { s with rooms := s.rooms ++ [(roomCode, yjsToken)] }

/-- The listeners of a room that is destroyed run before it is gone. -/
def destroyRoom (s : YjsServer Document Awareness) (roomCode : JsString) : YjsStep cfg :=
  let code := normalizeRoomCode cfg.toLowerCase roomCode
  if s.rooms.any (·.1 = code) then
    (s.destroySharedDoc cfg code).modify fun s => { s with rooms := s.rooms.filter (·.1 ≠ code) }
  else Segment.of s

/-! ## The machine -/

/-- What happens to a connection that has joined a document; `none` when it has not. -/
def onJoined (s : YjsServer Document Awareness) (conn : ConnId)
    (f : DocId → YjsStep cfg) : Option (YjsStep cfg) :=
  (s.joined conn).map f

/-- The close event of a connection: it is closed for good, and its document forgets it. -/
def onClose (s : YjsServer Document Awareness) (conn : ConnId) : YjsStep cfg :=
  let s := s.setReadyState conn .closed
  match s.joined conn with
  | none => Segment.of s
  | some d => s.onDoc cfg d (closeConn cfg.yjs none conn)

def handleYjs (s : YjsServer Document Awareness) : YjsEvent Payload → Option (YjsStep cfg)
  | .connection conn request =>
    if (s.sockets conn).readyState = .connecting then some (onConnection cfg s conn request) else none
  | .message conn size message =>
    onJoined cfg s conn fun _ => (Segment.of s).suspend (.validateMessage conn size message)
  | .closing conn =>
    if (s.sockets conn).readyState = .open then
      some (Segment.of (s.setReadyState conn .closing))
    else none
  | .close conn =>
    if (s.sockets conn).readyState = .connecting then none else some (onClose cfg s conn)
  | .sendFailed conn | .pingFailed conn =>
    onJoined cfg s conn fun d => s.onDoc cfg d (closeConn cfg.yjs none conn)
  | .revalidate conn =>
    if cfg.accessService then
      onJoined cfg s conn fun _ => (Segment.of s).suspend (.revalidateAccess conn)
    else none
  | .createRoom roomCode yjsToken => some (Segment.of (createRoom s roomCode yjsToken))
  | .rotateToken roomCode yjsToken => some (Segment.of (rotateToken s roomCode yjsToken))
  | .destroyRoom roomCode => some (destroyRoom cfg s roomCode)
  | .shutdown => some (s.destroyAllSharedDocs cfg)

/-- Without an access service everyone is allowed. -/
def resumeYjs (s : YjsServer Document Awareness) :
    YjsTask cfg.toLowerCase Payload → Validation → Option (YjsStep cfg)
  | .validateConnection opened, .allowed => some (admitConnection cfg s opened)
  | .validateConnection opened, .denied =>
    if cfg.accessService then some (s.closeSocket cfg opened.conn accessRequired) else none
  | .validateMessage conn size message, .allowed =>
    onJoined cfg s conn fun d => s.onDoc cfg d
      (handleIncomingMessage cfg.yjs cfg.maxMessageBytes cfg.maxDocBytes conn size message)
  | .validateMessage conn _ _, .denied | .revalidateAccess conn, .denied =>
    if cfg.accessService then some (s.closeSocket cfg conn accessRequired) else none
  | .revalidateAccess _, .allowed => some (Segment.of s)

def yjsServer : Machine (YjsServer Document Awareness) (YjsTask cfg.toLowerCase Payload)
    (YjsEvent Payload) Validation (WsEffect Payload) where
  handle := handleYjs cfg
  resume := resumeYjs cfg

abbrev YjsConf := Conf (YjsServer Document Awareness) (YjsTask cfg.toLowerCase Payload)
abbrev YjsAct (Payload : Type) := Act (YjsEvent Payload) Validation
abbrev YjsTrigger := Trigger (YjsEvent Payload) (YjsTask cfg.toLowerCase Payload) Validation

abbrev YjsTurn := Turn (YjsServer Document Awareness) (YjsTask cfg.toLowerCase Payload)
  (YjsEvent Payload) Validation (WsEffect Payload)

/-- No room, no document and no connection. -/
def initialYjs : YjsConf cfg :=
  ⟨⟨[], [], fun _ => newSharedDoc cfg.yjs [], 0, fun _ => ⟨.connecting, false⟩, fun _ => none⟩, []⟩

end

/-! ## An example -/

/-- Room codes of ASCII characters. -/
theorem ascii_normalized (text : JsString) :
    normalizeRoomCode (List.map asciiLower) (normalizeRoomCode (List.map asciiLower) text) =
      normalizeRoomCode (List.map asciiLower) text := by
  unfold normalizeRoomCode
  rw [jsTrim_map isRegexSpace_asciiLower, jsTrim_jsTrim, List.map_map]
  congr 1
  exact funext asciiLower_asciiLower

theorem ascii_lowerCase (text : JsString) (h : ∀ c ∈ text, 97 ≤ c ∧ c ≤ 122) :
    text.map asciiLower = text := by
  refine (List.map_congr_left fun c hc => ?_).trans text.map_id
  have hlower := h c hc
  exact if_neg (by omega)

/-- Documents of which only the length is kept, with the length of what is inserted as an update. -/
def exampleYjs : Yjs ℕ (List ClientId) ℕ where
  newDoc := 0
  newAwareness := []
  applyUpdate document update := (document + update, if update = 0 then none else some update)
  encodeStateVector document := document
  encodeStateAsUpdate document := document
  encodeDiff document stateVector := some (document - stateVector)
  byteLength payload := payload
  getStates awareness := awareness
  applyAwarenessUpdate awareness client := (awareness ++ [client], some ⟨[client], [], []⟩)
  removeAwarenessStates awareness clients :=
    (awareness.filter (· ∉ clients), awareness.filter (· ∈ clients))
  encodeAwarenessUpdate _ clients := clients.length

/-- No access service, and every origin is allowed. -/
def plainYjsConfig : YjsServerConfig ℕ (List ClientId) ℕ where
  yjs := exampleYjs
  toLowerCase := List.map asciiLower
  normalized := ascii_normalized
  lowerCase := ascii_lowerCase
  allowedOrigins := none
  maxMessageBytes := 32768
  maxDocBytes := 65536
  accessService := false

/-- A connection to a room with its token. -/
def exampleConnection (conn : ConnId) : YjsAct ℕ :=
  .event (.connection conn ⟨some (js "/ws/yjs/abc-xyz?token=secret"), none⟩)

end CodeShare.Ws
