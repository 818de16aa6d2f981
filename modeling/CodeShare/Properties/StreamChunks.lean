import CodeShare.Clients.GroqClient
import CodeShare.Properties.InputRoundTrip

/-! # Streams in chunks

The decoder, the partial line and the loop over the frames carry what a chunk leaves unfinished into the next one.
Reading a body in chunks is reading it whole.
-/

namespace CodeShare.Groq
set_option autoImplicit false

namespace Reading

@[simp] theorem empty_andThen (r : Reading) : empty.andThen r = r := by
  simp [andThen, empty]

theorem andThen_of_ended {r : Reading} (h : r.ending.isSome) (r' : Reading) : r.andThen r' = r := if_pos h

theorem andThen_of_open {r : Reading} (h : r.ending = none) (r' : Reading) :
    r.andThen r' = ⟨r.yielded ++ r'.yielded, r.frames + r'.frames, r'.ending⟩ := by
  have hopen : ¬ r.ending.isSome = true := by simp [h]
  exact if_neg hopen

theorem andThen_assoc (r r' r'' : Reading) : (r.andThen r').andThen r'' = r.andThen (r'.andThen r'') := by
  by_cases h : r.ending.isSome
  · simp only [andThen_of_ended h]
  · have hopen : r.ending = none := by simpa using h
    by_cases h' : r'.ending.isSome
    · rw [andThen_of_ended h', andThen_of_open hopen]
      apply andThen_of_ended
      exact h'
    · have hopen' : r'.ending = none := by simpa using h'
      rw [andThen_of_open hopen' r'', andThen_of_open hopen, andThen_of_open hopen]
      refine (andThen_of_open ?_ r'').trans ?_
      · exact hopen'
      · simp only [List.append_assoc, Nat.add_assoc]

end Reading

section
variable (E : JsEngine)

theorem readFrames_append (frames frames' : List JsString) :
    readFrames E (frames ++ frames') = (readFrames E frames).andThen (readFrames E frames') := by
  induction frames with
  | nil => exact (Reading.empty_andThen _).symm
  | cons frame frames ih => rw [List.cons_append, readFrames, ih, readFrames, Reading.andThen_assoc]

end

namespace StreamReader
variable {reader : StreamReader}

/-- The frames are the lines of the buffer and of what is decoded, and the buffer is the line that has begun. -/
theorem take_eq (h : 10 ∉ reader.buffer) (octets : List ℕ) (stream : Bool) : reader.take octets stream =
    (((lineTransducer 10).feed reader.buffer (reader.decoder.decode octets stream).1).1,
      ⟨(reader.decoder.decode octets stream).2,
        ((lineTransducer 10).feed reader.buffer (reader.decoder.decode octets stream).1).2⟩) := by
  obtain ⟨last, -, hsplit, hlast⟩ := lineTransducer_feed h (reader.decoder.decode octets stream).1
  unfold take
  dsimp only
  rw [hsplit, List.dropLast_concat, List.getLast?_concat, hlast, Option.getD_some]

/-- The line that has begun has no line feed. -/
theorem take_buffer (h : 10 ∉ reader.buffer) (octets : List ℕ) (stream : Bool) :
    10 ∉ (reader.take octets stream).2.buffer := by
  obtain ⟨last, hfree, -, hlast⟩ := lineTransducer_feed h (reader.decoder.decode octets stream).1
  rw [take_eq h]
  dsimp only
  rw [hlast]
  exact hfree

/-- What is taken in two chunks is what is taken in one. -/
theorem take_append (h : 10 ∉ reader.buffer) (octets octets' : List ℕ) (stream : Bool) :
    reader.take (octets ++ octets') stream =
      ((reader.take octets true).1 ++ ((reader.take octets true).2.take octets' stream).1,
        ((reader.take octets true).2.take octets' stream).2) := by
  rw [take_eq h, take_eq (take_buffer h octets true), take_eq h, TextDecoder.decode_append,
    Transducer.feed_append]

end StreamReader

/-- Every cutting of a body is read like the whole of it. -/
theorem readFrom_eq (E : JsEngine) {reader : StreamReader} (h : 10 ∉ reader.buffer) (chunks : List (List ℕ)) :
    readFrom E reader chunks =
      (readFrames E (reader.take chunks.flatten false).1).andThen ⟨[], 0, some .endOfInput⟩ := by
  induction chunks generalizing reader with
  | nil => rfl
  | cons chunk chunks ih =>
    rw [readFrom, ih (StreamReader.take_buffer h chunk true), List.flatten_cons, StreamReader.take_append h,
      readFrames_append, Reading.andThen_assoc]

/-- **Chunk boundaries do not matter**: two cuttings of the same octets yield the same texts in the same order and end
in the same way, at the same frame. -/
theorem chunk_boundaries_irrelevant (E : JsEngine) {chunks chunks' : List (List ℕ)}
    (h : chunks.flatten = chunks'.flatten) : readStreamChunks E chunks = readStreamChunks E chunks' := by
  have hfresh : 10 ∉ StreamReader.new.buffer := List.not_mem_nil
  unfold readStreamChunks
  rw [readFrom_eq E hfresh, readFrom_eq E hfresh, h]

/-- A text with an `é` and the end marker, between `\r\n`s. -/
def exampleBody : List ℕ :=
  js "data: \x7b\"choices\":[\x7b\"delta\":\x7b\"content\":\"caf" ++ [0xC3, 0xA9] ++
    js "\"\x7d\x7d]\x7d\r\ndata: [DONE]\r\n"

/-- The body in chunks of three octets, so that the `é`, a prefix and a `\r\n` are cut. -/
def exampleChunks : List (List ℕ) := (List.range 27).map fun i => (exampleBody.drop (3 * i)).take 3

theorem chunk_boundaries_irrelevant_example :
    readStreamChunks exampleEngine exampleChunks = readStreamChunks exampleEngine [exampleBody] ∧
      (readStreamChunks exampleEngine exampleChunks).yielded.length = 1 ∧
      (readStreamChunks exampleEngine exampleChunks).frames = 2 ∧
      (readStreamChunks exampleEngine exampleChunks).ending = some .doneMarker := by
  have hcut : exampleChunks.flatten = [exampleBody].flatten := by decide +kernel
  have hsame := chunk_boundaries_irrelevant exampleEngine hcut
  exact ⟨hsame, by decide +kernel, by decide +kernel, by decide +kernel⟩

end CodeShare.Groq
