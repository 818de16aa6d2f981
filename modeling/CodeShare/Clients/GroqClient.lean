import CodeShare.Lib.CircuitBreaker
import CodeShare.Services.JsonParse
import CodeShare.Text.TextDecoder

/-! # The Groq client

`GroqClient.ts`. The client is a machine around its circuit breaker: every `await` of `complete`, of
`streamCompletion` and of `execute` suspends a task. What a consumer takes from one read of a stream is one segment,
since the texts in between touch neither the breaker nor the reader.
-/

namespace CodeShare.Groq
open CircuitBreaker Tasks
set_option autoImplicit false

/-! ## Errors -/

structure GroqError extends DependencyError where
  statusCode : Option ℕ
  isTimeout : Bool

inductive Operation where
  | complete
  | streamCompletion

def Operation.name : Operation → JsString
  | .complete => js "complete"
  | .streamCompletion => js "stream_completion"

/-- What `fetch` or the reading of a body rejects with: a `TimeoutError`, or anything else. -/
inductive Failure where
  | timeout
  | other

def groqError (operation : Operation) (errorType message : JsString) : GroqError :=
  ⟨⟨js "groq", operation.name, errorType, message⟩, none, false⟩

def toGroqDependencyError (failure : Failure) (operation : Operation) : GroqError :=
  match failure with
  | .timeout => { groqError operation (js "timeout") (js "Groq request timed out.") with isTimeout := true }
  | .other => groqError operation (js "network_error") (js "Groq request failed.")

def httpError (operation : Operation) (status : ℕ) : GroqError :=
  { groqError operation (js "http_error") (js "Groq API error: " ++ decimalUnits status) with
    statusCode := some status }

def emptyResponse : GroqError :=
  groqError .complete (js "empty_response") (js "Groq API returned empty response")

def invalidResponse : GroqError :=
  groqError .streamCompletion (js "invalid_response") (js "Groq stream returned invalid JSON data.")

/-! ## Optional chaining -/

/-- `value?.[key]`; undefined and null have no properties. -/
def chain (property : ParsedJson → Option ParsedJson) : Option ParsedJson → Option ParsedJson
  | none | some .null => none
  | some v => property v

/-- `value[0]`. -/
def firstItem : ParsedJson → Option ParsedJson
  | .arr items => items.head?
  | .str (c :: _) => some (.str [c])
  | v => v.get (js "0")

def truthy : ParsedJson → Bool
  | .null => false
  | .bool b => b
  | .finite x => x.significand ≠ 0
  | .infinite _ => true
  | .str text => text ≠ []
  | .arr _ | .obj _ => true

/-- `parsed.choices?.[0]?.<field>?.content`, when it is truthy; an error for a property of null. -/
def choiceContent (field : JsString) (parsed : ParsedJson) : Except Unit (Option ParsedJson) :=
  match parsed with
  | .null => .error ()
  | _ => .ok ((chain (ParsedJson.get (js "content")) (chain (ParsedJson.get field)
      (chain firstItem (parsed.get (js "choices"))))).filter truthy)

/-! ## Reading the stream -/

section
variable (E : JsEngine)

/-- How a generator ends when it does not fail to read. -/
inductive Ending where
  | endOfInput
  | doneMarker
  | invalidJson
  deriving DecidableEq

inductive FrameResult where
  | skipped
  | content (value : ParsedJson)
  | stops (ending : Ending)

/-- The body of the loop over the frames. -/
def readFrame (frame : JsString) : FrameResult :=
  let line := jsTrim frame
  if (js "data: ").isPrefixOf line = false then .skipped
  else
    let data := line.drop 6
    if data = js "[DONE]" then .stops .doneMarker
    else
      match jsonParse E data with
      | .error _ => .stops .invalidJson
      | .ok parsed =>
        match choiceContent (js "delta") parsed with
        | .error _ => .stops .invalidJson
        | .ok none => .skipped
        | .ok (some value) => .content value

/-- What has been yielded, the number of frames begun, and the ending, when there is one. -/
structure Reading where
  yielded : List ParsedJson
  frames : ℕ
  ending : Option Ending

def Reading.empty : Reading := ⟨[], 0, none⟩

/-- One reading and then another, which is not begun behind an ending. -/
def Reading.andThen (r r' : Reading) : Reading :=
  if r.ending.isSome then r else ⟨r.yielded ++ r'.yielded, r.frames + r'.frames, r'.ending⟩

def frameReading (frame : JsString) : Reading :=
  match readFrame E frame with
  | .skipped => ⟨[], 1, none⟩
  | .content value => ⟨[value], 1, none⟩
  | .stops ending => ⟨[], 1, some ending⟩

def readFrames : List JsString → Reading
  | [] => .empty
  | frame :: frames => (frameReading E frame).andThen (readFrames frames)

/-- The decoder and the line that has begun. -/
structure StreamReader where
  decoder : TextDecoder
  buffer : JsString

def StreamReader.new : StreamReader := ⟨.new, []⟩

/-- The frames that some octets complete; `stream` says that there may be more octets. -/
def StreamReader.take (reader : StreamReader) (octets : List ℕ) (stream : Bool) : List JsString × StreamReader :=
  let decoded := reader.decoder.decode octets stream
  let frames := (reader.buffer ++ decoded.1).splitOn 10
  (frames.dropLast, ⟨decoded.2, frames.getLast?.getD []⟩)

/-- The loop over the chunks that are left, behind which the reader is done. -/
def readFrom (reader : StreamReader) : List (List ℕ) → Reading
  | [] => (readFrames E (reader.take [] false).1).andThen ⟨[], 0, some .endOfInput⟩
  | chunk :: chunks => (readFrames E (reader.take chunk true).1).andThen (readFrom (reader.take chunk true).2 chunks)

/-- `readStreamChunks` of a body that can be read to its end. -/
def readStreamChunks (chunks : List (List ℕ)) : Reading := readFrom E .new chunks

end

/-! ## The client -/

structure Response where
  ok : Bool
  status : ℕ
  hasBody : Bool

inductive Fetched where
  | failed (failure : Failure)
  | response (response : Response)

/-- `fetch` and `response.json()` of `complete`. -/
inductive Completed where
  | failed (failure : Failure)
  | notOk (status : ℕ)
  | json (value : ParsedJson)

inductive ReadResult where
  | chunk (octets : List ℕ)
  | done
  | failed (failure : Failure)

/-- The function that `streamCompletion` has executed; the stream it returns is not read yet. -/
def openStream : Fetched → Except GroqError Unit
  | .failed failure => .error (toGroqDependencyError failure .streamCompletion)
  | .response r => if !r.ok || !r.hasBody then .error (httpError .streamCompletion r.status) else .ok ()

/-- The function that `complete` has executed. -/
def completion : Completed → Except GroqError ParsedJson
  | .failed failure => .error (toGroqDependencyError failure .complete)
  | .notOk status => .error (httpError .complete status)
  | .json value =>
    match choiceContent (js "message") value with
    | .error _ => .error (toGroqDependencyError .other .complete)
    | .ok none => .error emptyResponse
    | .ok (some content) => .ok content

inductive ClientEvent where
  | complete
  | streamCompletion
  | timeout (id : CircuitBreaker.TimerId)

/-- Where a call waits: for `fetch`, for the function of `execute`, for `execute`, or for the body. -/
inductive ClientTask where
  | requesting
  | fetching
  | settlingCompletion (result : Except GroqError ParsedJson)
  | settling (result : Except GroqError Unit)
  | returning (result : Except GroqError ParsedJson)
  | opening (result : Except GroqError Unit)
  | reading (reader : StreamReader)

inductive ClientOutcome where
  | completed (result : Completed)
  | fetched (result : Fetched)
  | continued
  | read (result : ReadResult)

/-- What a call throws: an error of the client, or what a read of the body has rejected with. -/
inductive Thrown where
  | error (error : GroqError)
  | unread (failure : Failure)

inductive ClientEffect where
  | breaker (effect : CircuitBreaker.Effect)
  | recorded (settlement : Settlement)
  | yielded (content : ParsedJson)
  | drained  -- `readStreamChunks` has returned
  | returned
  | resolved (content : ParsedJson)
  | threw (thrown : Thrown)

abbrev ClientStep := Segment Breaker ClientTask ClientEffect

/-- A segment of the breaker in the client. -/
def ofBreaker (g : CircuitBreaker.Step) : ClientStep := ⟨g.state, g.out.map .breaker, []⟩

def circuitOpenError (options : CircuitBreakerOptions) : GroqError := ⟨circuitOpen options, none, false⟩

section
variable (options : CircuitBreakerOptions) (E : JsEngine)

/-- `execute`, up to the `await` of its function, which then waits for `fetch`. -/
def beginCall (b : Breaker) (refused started : ClientTask) : ClientStep :=
  (ofBreaker (execute options b)).suspend (if b.state = .opened then refused else started)

/-- `execute` behind its function. -/
def settleCall {α : Type} (b : Breaker) (result : Except GroqError α) (next : Except GroqError α → ClientTask) :
    ClientStep :=
  match result with
  | .ok _ => ((ofBreaker (recordSuccess b)).emit (.recorded .fulfilled)).suspend (next result)
  | .error _ => ((ofBreaker (recordFailure options b)).emit (.recorded .rejected)).suspend (next result)

def handleClient (b : Breaker) : ClientEvent → Option ClientStep
  | .complete => some (beginCall options b (.returning (.error (circuitOpenError options))) .requesting)
  | .streamCompletion => some (beginCall options b (.opening (.error (circuitOpenError options))) .fetching)
  | .timeout id => if id ∈ b.timers then some (ofBreaker (halfOpen b id)) else none

/-- The generator goes on when it has no ending yet. -/
def readingStep (b : Breaker) (reading : Reading) (next : StreamReader) : ClientStep :=
  let g : ClientStep := (Segment.of b).emits fun _ => reading.yielded.map .yielded
  match reading.ending with
  | none => g.suspend (.reading next)
  | some .invalidJson => g.emit (.threw (.error invalidResponse))
  | some .endOfInput | some .doneMarker => (g.emit .drained).emit .returned

def resumeClient (b : Breaker) : ClientTask → ClientOutcome → Option ClientStep
  | .requesting, .completed result => some ((Segment.of b).suspend (.settlingCompletion (completion result)))
  | .fetching, .fetched result => some ((Segment.of b).suspend (.settling (openStream result)))
  | .settlingCompletion result, .continued => some (settleCall options b result .returning)
  | .settling result, .continued => some (settleCall options b result .opening)
  | .returning (.ok content), .continued => some ((Segment.of b).emit (.resolved content))
  | .returning (.error e), .continued => some ((Segment.of b).emit (.threw (.error e)))
  | .opening (.ok _), .continued => some ((Segment.of b).suspend (.reading .new))
  | .opening (.error e), .continued => some ((Segment.of b).emit (.threw (.error e)))
  | .reading reader, .read (.chunk octets) =>
    let taken := reader.take octets true
    some (readingStep b (readFrames E taken.1) taken.2)
  | .reading reader, .read .done =>
    let taken := reader.take [] false
    some (readingStep b ((readFrames E taken.1).andThen ⟨[], 0, some .endOfInput⟩) taken.2)
  | .reading _, .read (.failed failure) => some ((Segment.of b).emit (.threw (.unread failure)))
  | _, _ => none

def client : Machine Breaker ClientTask ClientEvent ClientOutcome ClientEffect where
  handle := handleClient options
  resume := resumeClient options E

end

/-- The breaker's part of a new client. -/
def createGroqClient : Breaker := createCircuitBreaker.shared

end CodeShare.Groq
