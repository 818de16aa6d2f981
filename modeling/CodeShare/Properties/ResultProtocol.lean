import CodeShare.Server.ExecutionService

/-! # The result protocol

What the harness emits for an outcome is found again in any output around it: the scans take the last
start line and the first end line behind it, and the lines of an emission are its two markers and one
JSON text. The parsers of the other outcomes find nothing in it.
-/

namespace CodeShare
open Lines
open Harness (newline harnessPayloadChars)
set_option autoImplicit false

/-! ## Emissions -/

/-- `_emit_tagged_payload`, with the text that `json.dumps` writes. -/
def emission (outcome : HarnessOutcome) (nonce text : JsString) : JsString :=
  outcome.startTag nonce ++ newline :: (text ++ newline :: (outcome.endTag nonce ++ [newline]))

/-- The payloads are dicts, and `json.dumps` writes them on one line. -/
structure IsObjectText (text : JsString) : Prop where
  oneLine : newline ∉ text
  braces : ∃ body, text = 123 :: (body ++ [125])

/-- `generateNonce` writes bytes in hex. -/
def HexNonce (nonce : JsString) : Prop := ∀ c ∈ nonce, (48 ≤ c ∧ c ≤ 57) ∨ (97 ≤ c ∧ c ≤ 102)

theorem HexNonce.newline_not_mem {nonce : JsString} (h : HexNonce nonce) : newline ∉ nonce := by
  intro hmem
  have hdigit := h newline hmem
  unfold newline at hdigit
  omega

section
variable {nonce text before after : JsString} {outcome other : HarnessOutcome} {p : ℕ}

theorem startTag_not_mem (outcome : HarnessOutcome) (hnonce : HexNonce nonce) : newline ∉ outcome.startTag nonce := by
  have hclosing : newline ∉ js "===" := by decide
  have htag : newline ∉ js "===" ++ outcome.tag := by cases outcome <;> decide
  unfold HarnessOutcome.startTag
  rw [List.mem_append, List.mem_append, not_or, not_or]
  exact ⟨⟨htag, hnonce.newline_not_mem⟩, hclosing⟩

theorem endTag_not_mem (outcome : HarnessOutcome) (hnonce : HexNonce nonce) : newline ∉ outcome.endTag nonce := by
  have hclosing : newline ∉ js "===" := by decide
  have htag : newline ∉ js "===END_" ++ outcome.tag := by cases outcome <;> decide
  unfold HarnessOutcome.endTag
  rw [List.mem_append, List.mem_append, not_or, not_or]
  exact ⟨⟨htag, hnonce.newline_not_mem⟩, hclosing⟩

theorem startTag_head (outcome : HarnessOutcome) (nonce : JsString) :
    (outcome.startTag nonce).head? = some 61 := by cases outcome <;> rfl

theorem endTag_head (outcome : HarnessOutcome) (nonce : JsString) :
    (outcome.endTag nonce).head? = some 61 := by cases outcome <;> rfl

theorem startTag_ne_nil : outcome.startTag nonce ≠ [] := by
  intro h
  have hhead := startTag_head outcome nonce
  rw [h] at hhead
  cases hhead

theorem endTag_ne_nil : outcome.endTag nonce ≠ [] := by
  intro h
  have hhead := endTag_head outcome nonce
  rw [h] at hhead
  cases hhead

/-- The markers differ behind their equals signs. -/
theorem endTag_ne_startTag : outcome.endTag nonce ≠ other.startTag nonce := by
  intro h
  have hend : (outcome.endTag nonce)[3]? = some 69 := by cases outcome <;> rfl
  have hstart : (other.startTag nonce)[3]? = some 72 := by cases other <;> rfl
  rw [h, hstart] at hend
  cases hend

/-- The first letters of a start marker, without the nonce. -/
theorem startTag_take : (outcome.startTag nonce).take 13 = js "===" ++ outcome.tag.take 10 := by
  cases outcome <;> rfl

theorem startTag_injective (h : outcome.startTag nonce = other.startTag nonce) :
    outcome = other := by
  have htake := congrArg (List.take 13) h
  rw [startTag_take, startTag_take, List.append_cancel_left_eq] at htake
  revert htake
  cases outcome <;> cases other <;> decide

theorem text_ne_tag (htext : IsObjectText text) :
    text ≠ outcome.startTag nonce ∧ text ≠ outcome.endTag nonce := by
  obtain ⟨body, rfl⟩ := htext.braces
  refine ⟨fun h => ?_, fun h => ?_⟩
  · have hhead := startTag_head outcome nonce
    rw [← h] at hhead
    cases hhead
  · have hhead := endTag_head outcome nonce
    rw [← h] at hhead
    cases hhead

/-! ## Its lines -/

theorem emission_append (outcome : HarnessOutcome) (nonce text after : JsString) :
    emission outcome nonce text ++ after = outcome.startTag nonce ++ newline ::
      (text ++ newline :: (outcome.endTag nonce ++ newline :: after)) := by
  unfold emission
  simp

/-- A start line in an emission and what follows it is the marker of the emission or lies behind it. -/
theorem startLine_emission (hnonce : HexNonce nonce) (htext : IsObjectText text)
    (h : StartLine (other.startTag nonce) (emission outcome nonce text ++ after) p) :
    (p = 0 ∧ other = outcome) ∨ ∃ q, StartLine (other.startTag nonce) after q := by
  have hmarker := startTag_not_mem other hnonce
  rw [emission_append, startLine_cons_iff hmarker (startTag_not_mem outcome hnonce)] at h
  rcases h with ⟨rfl, heq⟩ | ⟨q, -, h⟩
  · exact Or.inl ⟨rfl, startTag_injective heq⟩
  · rw [startLine_cons_iff hmarker htext.oneLine] at h
    rcases h with ⟨-, heq⟩ | ⟨q, -, h⟩
    · exact absurd heq.symm (text_ne_tag htext).1
    · rw [startLine_cons_iff hmarker (endTag_not_mem outcome hnonce)] at h
      rcases h with ⟨-, heq⟩ | ⟨q, -, h⟩
      · exact absurd heq.symm endTag_ne_startTag
      · exact Or.inr ⟨q, h⟩

theorem startLine_zero (hnonce : HexNonce nonce) (text after : JsString) :
    StartLine (outcome.startTag nonce) (emission outcome nonce text ++ after) 0 := by
  rw [emission_append]
  exact (LineAt.zero_iff endsLine_start (startTag_not_mem outcome hnonce) (startTag_not_mem outcome hnonce)).mpr rfl

/-- Where the end marker of an emission stands. -/
def endPosition (outcome : HarnessOutcome) (nonce text : JsString) : ℕ :=
  (outcome.startTag nonce).length + 1 + (text.length + 1)

theorem endLine_endPosition (hnonce : HexNonce nonce) (htext : IsObjectText text)
    (after : JsString) :
    EndLine (outcome.endTag nonce) (emission outcome nonce text ++ after)
      (endPosition outcome nonce text) := by
  have hmarker := endTag_not_mem outcome hnonce
  rw [emission_append, endLine_cons_iff hmarker (startTag_not_mem outcome hnonce)]
  refine Or.inr ⟨text.length + 1, rfl, ?_⟩
  rw [endLine_cons_iff hmarker htext.oneLine]
  refine Or.inr ⟨0, rfl, ?_⟩
  exact (LineAt.zero_iff endsLine_end hmarker hmarker).mpr rfl

/-- No end line comes between the start marker and the end marker. -/
theorem not_endLine_between (hnonce : HexNonce nonce) (htext : IsObjectText text) (after : JsString)
    (hlow : (outcome.startTag nonce).length ≤ p) (hhigh : p < endPosition outcome nonce text) :
    ¬ EndLine (outcome.endTag nonce) (emission outcome nonce text ++ after) p := by
  intro h
  have hmarker := endTag_not_mem outcome hnonce
  have hpos : 0 < (outcome.startTag nonce).length := List.length_pos_iff.mpr startTag_ne_nil
  unfold endPosition at hhigh
  rw [emission_append, endLine_cons_iff hmarker (startTag_not_mem outcome hnonce)] at h
  rcases h with ⟨rfl, -⟩ | ⟨q, rfl, h⟩
  · omega
  · rw [endLine_cons_iff hmarker htext.oneLine] at h
    rcases h with ⟨-, heq⟩ | ⟨q, rfl, -⟩
    · exact (text_ne_tag htext).2 heq.symm
    · omega

/-! ## Reading it -/

/-- The slice behind the start marker and before the end marker. -/
theorem slice_emission (before after : JsString) (outcome : HarnessOutcome) (nonce text : JsString) :
    ((before ++ (emission outcome nonce text ++ after)).take
      (before.length + endPosition outcome nonce text)).drop
        (before.length + (outcome.startTag nonce).length + 1) = text ++ [newline] := by
  have hsplit : before ++ (emission outcome nonce text ++ after) =
      (before ++ outcome.startTag nonce ++ [newline]) ++
        ((text ++ [newline]) ++ (outcome.endTag nonce ++ newline :: after)) := by
    rw [emission_append]
    simp
  have hfront : before.length + (outcome.startTag nonce).length + 1 =
      (before ++ outcome.startTag nonce ++ [newline]).length := by simp [Nat.add_assoc]
  have hback : before.length + endPosition outcome nonce text =
      (before ++ outcome.startTag nonce ++ [newline]).length + (text ++ [newline]).length := by
    simp [endPosition]
    omega
  rw [hsplit, hfront, hback, List.take_length_add_append, List.drop_left, List.take_left]

theorem jsTrim_text (htext : IsObjectText text) : jsTrim (text ++ [newline]) = text := by
  obtain ⟨body, rfl⟩ := htext.braces
  exact jsTrim_append (by decide) (by decide) (by decide)

section
variable {Data : Type} (parse : JsString → Option Data)

/-- What is to be read from a text: the limit comes before `JSON.parse`. -/
def reading (text : JsString) : Except ParseFailureReason Data :=
  if harnessPayloadChars < text.length then .error .payloadTooLarge
  else
    match parse text with
    | some data => .ok data
    | none => .error .malformedJson

theorem read_emission (outcome : HarnessOutcome) (hnonce : HexNonce nonce)
    (htext : IsObjectText text)
    (hbefore : Complete newline before)
    (hafter : ∀ p, ¬ StartLine (outcome.startTag nonce) after p) :
    outcome.read parse (before ++ (emission outcome nonce text ++ after)) nonce =
      reading parse text := by
  have hstart : StartLine (outcome.startTag nonce)
      (before ++ (emission outcome nonce text ++ after)) before.length :=
    (LineAt.append_iff (q := 0) hbefore).mpr (startLine_zero hnonce text after)
  have hlast : ∀ q, before.length < q → ¬ StartLine (outcome.startTag nonce)
      (before ++ (emission outcome nonce text ++ after)) q := by
    intro q hlt h
    obtain ⟨j, rfl⟩ := Nat.exists_eq_add_of_le hlt.le
    rcases startLine_emission hnonce htext ((LineAt.append_iff hbefore).mp h) with
      ⟨rfl, -⟩ | ⟨j, hj⟩
    · omega
    · exact hafter j hj
  have hend : EndLine (outcome.endTag nonce) (before ++ (emission outcome nonce text ++ after))
      (before.length + endPosition outcome nonce text) :=
    (LineAt.append_iff hbefore).mpr (endLine_endPosition hnonce htext after)
  have hfirst : ∀ q, before.length + (outcome.startTag nonce).length ≤ q →
      q < before.length + endPosition outcome nonce text → ¬ EndLine (outcome.endTag nonce)
        (before ++ (emission outcome nonce text ++ after)) q := by
    intro q hle hlt h
    obtain ⟨j, rfl⟩ := Nat.exists_eq_add_of_le ((Nat.le_add_right _ _).trans hle)
    exact not_endLine_between hnonce htext after (by omega) (by omega)
      ((LineAt.append_iff hbefore).mp h)
  have hle : before.length + (outcome.startTag nonce).length ≤
      before.length + endPosition outcome nonce text := by
    unfold endPosition
    omega
  unfold HarnessOutcome.read parseTaggedJson
  rw [findLastMarkerLine_of_last startTag_ne_nil hstart hlast]
  dsimp only
  rw [findNextMarkerLine_of_first (endTag_not_mem outcome hnonce) endTag_ne_nil hend hle hfirst]
  dsimp only
  rw [slice_emission, jsTrim_text htext]
  rfl

/-- No line of the text is a start marker. -/
def Unmarked (nonce text : JsString) : Prop :=
  ∀ (outcome : HarnessOutcome) (p : ℕ), ¬ StartLine (outcome.startTag nonce) text p

theorem unmarked_nil (nonce : JsString) : Unmarked nonce [] :=
  fun _ _ => LineAt.not_nil startTag_ne_nil

/-- An output in which nothing is marked cannot be parsed. -/
theorem handleAccepted_unmarked (parse : JsString → Option ParsedJson) {stdout : JsString}
    (h : Unmarked nonce stdout) (executionType : ExecutionType) (testCases : List TestCase) :
    handleAcceptedExecutionResult parse executionType stdout nonce testCases =
      .ok (.error .parseError (js "Could not parse execution results.")) := by
  have hmissing : ∀ outcome : HarnessOutcome, outcome.read parse stdout nonce = .error .missingMarkers := by
    intro outcome
    unfold HarnessOutcome.read parseTaggedJson
    rw [findLastMarkerLine_of_none (h outcome)]
  unfold handleAcceptedExecutionResult parseHarnessModuleError
  rw [hmissing, hmissing]
  dsimp only
  rw [parseResult, hmissing]
  rfl

/-- The parsers of the other outcomes find nothing, with nothing marked around it. -/
theorem read_other_within (hnonce : HexNonce nonce) (htext : IsObjectText text) (hother : other ≠ outcome)
    (hbefore : Complete newline before) (hclean : Unmarked nonce before) (hafter : Unmarked nonce after) :
    other.read parse (before ++ (emission outcome nonce text ++ after)) nonce = .error .missingMarkers := by
  have hnone : ∀ q, ¬ StartLine (other.startTag nonce) (before ++ (emission outcome nonce text ++ after)) q := by
    intro q h
    rcases LineAt.append_cases hbefore (startTag_not_mem other hnonce) h with h | ⟨p, h⟩
    · exact hclean other q h
    · rcases startLine_emission hnonce htext h with ⟨-, heq⟩ | ⟨j, hj⟩
      · exact hother heq
      · exact hafter other j hj
  unfold HarnessOutcome.read parseTaggedJson
  rw [findLastMarkerLine_of_none hnone]

theorem read_other (hnonce : HexNonce nonce) (htext : IsObjectText text) (hother : other ≠ outcome) :
    other.read parse (emission outcome nonce text) nonce = .error .missingMarkers := by
  have h := read_other_within parse hnonce htext hother (Or.inl rfl) (unmarked_nil nonce) (unmarked_nil nonce)
  rwa [List.nil_append, List.append_nil] at h

end

/-! ## The branch that is taken -/

def HarnessOutcome.errorType : HarnessOutcome → Option ExecutionErrorType
  | result => none
  | compilationError => some .compilationError
  | runtimeError => some .runtimeError

/-- What the room is told about an outcome: an error that cannot be read is taken for a missing
result. -/
def branch (executionType : ExecutionType) (testCases : List TestCase) (outcome : HarnessOutcome)
    (read : Except ParseFailureReason ParsedJson) : AcceptedReply :=
  match outcome.errorType, read with
  | none, read => .ok (resultReply executionType testCases read)
  | some errorType, .ok data =>
    (errorProperty data).bind fun error => moduleErrorReply ⟨error, errorType⟩
  | some _, .error _ => .ok (resultReply executionType testCases (.error .missingMarkers))

theorem handleAccepted_within (parse : JsString → Option ParsedJson) (outcome : HarnessOutcome)
    (executionType : ExecutionType) (testCases : List TestCase) (hnonce : HexNonce nonce)
    (htext : IsObjectText text) (hbefore : Complete newline before) (hclean : Unmarked nonce before)
    (hafter : Unmarked nonce after) :
    handleAcceptedExecutionResult parse executionType
        (before ++ (emission outcome nonce text ++ after)) nonce testCases =
      branch executionType testCases outcome (reading parse text) := by
  have hother : ∀ other, other ≠ outcome →
      other.read parse (before ++ (emission outcome nonce text ++ after)) nonce = .error .missingMarkers :=
    fun other h => read_other_within parse hnonce htext h hbefore hclean hafter
  have halone := read_emission parse outcome hnonce htext hbefore (hafter outcome)
  unfold handleAcceptedExecutionResult parseHarnessModuleError branch
  cases outcome with
  | result =>
    rw [hother .compilationError (by decide), hother .runtimeError (by decide)]
    dsimp only
    rw [parseResult, halone]
    rfl
  | compilationError =>
    rw [halone]
    cases reading parse text with
    | ok data =>
      simp only [HarnessOutcome.errorType]
      cases errorProperty data <;> rfl
    | error reason =>
      dsimp only
      rw [hother .runtimeError (by decide), parseResult, hother .result (by decide)]
      rfl
  | runtimeError =>
    rw [halone, hother .compilationError (by decide)]
    cases reading parse text with
    | ok data =>
      simp only [HarnessOutcome.errorType]
      cases errorProperty data <;> rfl
    | error reason =>
      dsimp only
      rw [parseResult, hother .result (by decide)]
      rfl

theorem handleAccepted_emission (parse : JsString → Option ParsedJson)
    (executionType : ExecutionType) (testCases : List TestCase) (hnonce : HexNonce nonce)
    (htext : IsObjectText text) :
    handleAcceptedExecutionResult parse executionType (emission outcome nonce text) nonce testCases =
      branch executionType testCases outcome (reading parse text) := by
  have h := handleAccepted_within parse outcome executionType testCases hnonce htext (Or.inl rfl)
    (unmarked_nil nonce) (unmarked_nil nonce)
  rwa [List.nil_append, List.append_nil] at h

/-- **The result protocol.** What was emitted is read back out of any output around it, the other
parsers find nothing in it, and the room is told of the outcome that was written. -/
theorem result_round_trip (parse : JsString → Option ParsedJson) (outcome : HarnessOutcome)
    (hnonce : HexNonce nonce) (htext : IsObjectText text) (hbefore : Complete newline before)
    (hafter : ∀ p, ¬ StartLine (outcome.startTag nonce) after p) :
    outcome.read parse (before ++ (emission outcome nonce text ++ after)) nonce =
        reading parse text ∧
      (∀ other, other ≠ outcome →
        other.read parse (emission outcome nonce text) nonce = .error .missingMarkers) ∧
      ∀ executionType testCases,
        handleAcceptedExecutionResult parse executionType (emission outcome nonce text) nonce
          testCases = branch executionType testCases outcome (reading parse text) :=
  ⟨read_emission parse outcome hnonce htext hbefore hafter,
    fun _ hother => read_other parse hnonce htext hother,
    fun executionType testCases =>
      handleAccepted_emission parse executionType testCases hnonce htext⟩

end

/-! ## Examples -/

def exampleNonce : JsString := js "0a1b2c3d4e5f6071"

/-- The payload of a script without test cases. -/
def emptyText : JsString := 123 :: (js "\"results\": [], \"userStdout\": \"\"" ++ [125])

def emptyData : ParsedJson := .obj [(js "results", .arr []), (js "userStdout", .str [])]

def emptyParse (text : JsString) : Option ParsedJson := if text = emptyText then some emptyData else none

/-- The script has printed markers of its own nonce before. -/
theorem result_round_trip_example :
    HarnessOutcome.result.read emptyParse
        (emission .result exampleNonce (js "printed") ++
          (emission .result exampleNonce emptyText ++ (js "done" ++ [newline]))) exampleNonce =
      .ok emptyData := by
  have hnonce : HexNonce exampleNonce := by
    unfold HexNonce
    decide
  have htext : IsObjectText emptyText := ⟨by decide, _, rfl⟩
  have hbefore : Complete newline (emission .result exampleNonce (js "printed")) :=
    Or.inr ⟨(emission .result exampleNonce (js "printed")).dropLast, by decide⟩
  have hafter : ∀ p, ¬ StartLine (HarnessOutcome.result.startTag exampleNonce)
      (js "done" ++ [newline]) p := by
    intro p h
    rw [startLine_cons_iff (startTag_not_mem _ hnonce) (by decide)] at h
    rcases h with ⟨-, heq⟩ | ⟨q, -, h⟩
    · exact absurd heq (by decide)
    · exact LineAt.not_nil startTag_ne_nil h
  have hread := (result_round_trip emptyParse .result hnonce htext hbefore hafter).1
  rw [hread]
  rfl

/-! ## Errors that exceed the limit -/

/-- What `json.dumps` writes for an error without special characters. -/
def errorText (message : JsString) : JsString :=
  123 :: ((js "\"error\": \"" ++ message ++ js "\"") ++ [125])

def errorData (message : JsString) : ParsedJson := .obj [(js "error", .str message)]

def errorParse (message text : JsString) : Option ParsedJson :=
  if text = errorText message then some (errorData message) else none

theorem errorText_isObjectText {message : JsString} (hmessage : newline ∉ message) :
    IsObjectText (errorText message) := by
  refine ⟨fun hmem => ?_, _, rfl⟩
  have hfront : newline ∉ js "\"error\": \"" := by decide
  have hback : newline ∉ js "\"" := by decide
  simp only [errorText, List.mem_cons, List.mem_append, List.not_mem_nil, or_false] at hmem
  rcases hmem with h | ((h | h) | h) | h
  · exact absurd h (by decide)
  · exact hfront h
  · exact hmessage h
  · exact hback h
  · exact absurd h (by decide)

theorem lt_length_errorText (message : JsString) : message.length < (errorText message).length := by
  simp only [errorText, List.length_cons, List.length_append]
  omega

/-- An error that exceeds the limit is not found, and no result is found either. -/
theorem handleAccepted_oversized {nonce message : JsString} (hnonce : HexNonce nonce)
    (hmessage : newline ∉ message) (hlong : harnessPayloadChars ≤ message.length) :
    handleAcceptedExecutionResult (errorParse message) .run
        (emission .compilationError nonce (errorText message)) nonce [] =
      .ok (.error .parseError (js "Could not parse execution results.")) := by
  rw [handleAccepted_emission (errorParse message) .run [] hnonce (errorText_isObjectText hmessage),
    reading, if_pos (hlong.trans_lt (lt_length_errorText message))]
  rfl

def oversizedMessage : JsString := List.replicate harnessPayloadChars 97

theorem oversized_error_unreported : ¬ ∀ (parse : JsString → Option ParsedJson)
    (outcome : HarnessOutcome) (nonce text message : JsString) (errorType : ExecutionErrorType),
    HexNonce nonce → IsObjectText text → parse text = some (errorData message) →
    outcome.errorType = some errorType →
    ∀ executionType testCases, ∃ told,
      handleAcceptedExecutionResult parse executionType (emission outcome nonce text) nonce
        testCases = .ok (.error errorType told) := by
  intro hclaim
  have hnonce : HexNonce exampleNonce := by
    unfold HexNonce
    decide
  have hmessage : newline ∉ oversizedMessage := fun hmem =>
    absurd (List.eq_of_mem_replicate hmem) (by decide)
  have hlong : harnessPayloadChars ≤ oversizedMessage.length := List.length_replicate.ge
  have hparse : ∀ message, errorParse message (errorText message) = some (errorData message) :=
    fun message => if_pos rfl
  obtain ⟨told, htold⟩ := hclaim (errorParse oversizedMessage) .compilationError exampleNonce
    (errorText oversizedMessage) oversizedMessage .compilationError hnonce
    (errorText_isObjectText hmessage) (hparse oversizedMessage) rfl .run []
  rw [handleAccepted_oversized hnonce hmessage hlong] at htold
  cases htold

end CodeShare
