import CodeShare.Server.ReconnectToken
import Mathlib.Data.Rat.Floor

/-! # Room codes

`generateRoomCode` with both of its sources of randomness: what `Math.random` returns at each call, and
one value of `crypto.randomUUID`. `roomCodeSchema` is what the server accepts for a code. The alphabet
has 32 letters, so the product that `Math.floor` rounds is exact in floating point.
-/

namespace CodeShare.RoomCode
set_option autoImplicit false

/-! ## Constants of ROOM_CODE -/

def alphabet : JsString := js "abcdefghijklmnopqrstuvwxyz234567"

def segmentLength : ℕ := 3

def segmentCount : ℕ := 2

def maxRetries : ℕ := 5

/-- `-`. -/
def dash : ℕ := 45

/-! ## Randomness -/

/-- A value of `Math.random()`. -/
structure RandomNumber where
  value : ℚ
  nonneg : 0 ≤ value
  lt_one : value < 1

/-- A value of `crypto.randomUUID()`, by its bytes. -/
structure Uuid where
  bytes : List ℕ
  length_eq : bytes.length = 16
  byte : ∀ b ∈ bytes, b < 256
  version : (bytes.getD 6 0) / 16 = 4
  variant : (bytes.getD 8 0) / 64 = 2

/-- Groups of 8, 4, 4, 4 and 12 hex digits. -/
def Uuid.text (uuid : Uuid) : JsString :=
  joinTexts [dash] [toHex (uuid.bytes.take 4), toHex ((uuid.bytes.drop 4).take 2),
    toHex ((uuid.bytes.drop 6).take 2), toHex ((uuid.bytes.drop 8).take 2), toHex (uuid.bytes.drop 10)]

/-! ## The generator -/

/-- What `s += alphabet[index]` adds; an index that is `NaN` is `none`. -/
def letter (index : Option ℕ) : JsString :=
  match index.bind fun i => alphabet[i]? with
  | some c => [c]
  | none => js "undefined"

/-- `Math.floor(Math.random() * alphabet.length)`. -/
def randomIndex (r : RandomNumber) : ℕ := ⌊r.value * alphabet.length⌋₊

/-- The segment whose first letter is drawn at a call of `Math.random`. -/
def segment (random : ℕ → RandomNumber) (call : ℕ) : JsString :=
  (List.range segmentLength).flatMap fun i => letter (some (randomIndex (random (call + i))))

def randomSegments (random : ℕ → RandomNumber) (call : ℕ) : JsString :=
  segment random call ++ [dash] ++ segment random (call + segmentLength)

/-- `parseInt(text, 16)` of a text without white space, sign and `0x`; `none` is `NaN`. -/
def parseHex (text : JsString) : Option ℕ :=
  match (text.map hexValue).takeWhile Option.isSome with
  | [] => none
  | digits => some (digits.reduceOption.foldl (fun value digit => 16 * value + digit) 0)

/-- The loop of `uuidFallbackSegments` over what is left of the source. -/
def uuidLetters (letters : JsString) : JsString → JsString
  | a :: b :: rest =>
    if letters.length < segmentLength * segmentCount then
      uuidLetters (letters ++ letter ((parseHex [a, b]).map (· % alphabet.length))) rest
    else letters
  | [a] =>
    if letters.length < segmentLength * segmentCount then
      letters ++ letter ((parseHex [a]).map (· % alphabet.length))
    else letters
  | [] => letters

def uuidFallbackSegments (uuid : Uuid) : JsString :=
  let letters := uuidLetters [] (uuid.text.filter (· ≠ dash))
  letters.take segmentLength ++ [dash] ++
    (letters.take (segmentLength * segmentCount)).drop segmentLength

/-- The loop over the attempts that are left; every attempt draws one number for each letter. -/
def attemptCodes (activeRoomCodes : List JsString) (random : ℕ → RandomNumber) (uuid : Uuid) :
    ℕ → ℕ → JsString
  | 0, _ => uuidFallbackSegments uuid
  | retries + 1, call =>
    let code := randomSegments random call
    if code ∉ activeRoomCodes then code
    else attemptCodes activeRoomCodes random uuid retries (call + segmentLength * segmentCount)

def generateRoomCode (activeRoomCodes : List JsString) (random : ℕ → RandomNumber) (uuid : Uuid) :
    JsString :=
  attemptCodes activeRoomCodes random uuid maxRetries 0

def normalizeRoomCode (toLowerCase : JsString → JsString) (roomCode : JsString) : JsString :=
  toLowerCase (jsTrim roomCode)

/-! ## The schema -/

def roomCodePattern (text : JsString) : Bool :=
  text.length = 2 * segmentLength + 1 && (text.take segmentLength).all (alphabet.contains ·) &&
    text[segmentLength]? = some dash && (text.drop (segmentLength + 1)).all (alphabet.contains ·)

/-- What `roomCodeSchema` makes of a text; `none` is a rejection. -/
def roomCodeSchema (toLowerCase : JsString → JsString) (text : JsString) : Option JsString :=
  let value := toLowerCase (jsTrim text)
  if roomCodePattern value then some value else none

/-- `String.prototype.toLowerCase` of an ASCII text. -/
def LowersAscii (toLowerCase : JsString → JsString) : Prop :=
  ∀ text : JsString, (∀ c ∈ text, c < 128) → toLowerCase text = text.map asciiLower

/-! ## Every code has the format -/

theorem letter_of_lt {i : ℕ} (h : i < alphabet.length) : letter (some i) = [alphabet[i]] := by
  unfold letter
  rw [Option.bind_some, List.getElem?_eq_getElem h]

theorem randomIndex_lt (r : RandomNumber) : randomIndex r < alphabet.length := by
  have hlength : (0 : ℚ) < alphabet.length := by
    rw [Nat.cast_pos]
    decide
  have hproduct : r.value * alphabet.length < alphabet.length := by
    apply (mul_lt_iff_lt_one_left hlength).mpr
    exact r.lt_one
  unfold randomIndex
  rw [Nat.floor_lt (mul_nonneg r.nonneg hlength.le)]
  exact hproduct

/-- Six letters of the alphabet in two segments. -/
def Formatted (code : JsString) : Prop :=
  ∃ first second : JsString, code = first ++ [dash] ++ second ∧ first.length = segmentLength ∧
    second.length = segmentLength ∧ ∀ c ∈ first ++ second, c ∈ alphabet

theorem letter_mem {i : ℕ} (h : i < alphabet.length) {c : ℕ} (hc : c ∈ letter (some i)) :
    c ∈ alphabet := by
  rw [letter_of_lt h, List.mem_singleton] at hc
  rw [hc]
  exact List.getElem_mem h

theorem segment_length (random : ℕ → RandomNumber) (call : ℕ) :
    (segment random call).length = segmentLength := by
  have hone : ∀ i, (letter (some (randomIndex (random (call + i))))).length = 1 := by
    intro i
    rw [letter_of_lt (randomIndex_lt _)]
    exact List.length_singleton
  unfold segment
  rw [List.length_flatMap]
  simp [hone]

theorem segment_mem {random : ℕ → RandomNumber} {call c : ℕ} (hc : c ∈ segment random call) :
    c ∈ alphabet := by
  unfold segment at hc
  obtain ⟨i, -, hi⟩ := List.mem_flatMap.mp hc
  exact letter_mem (randomIndex_lt _) hi

theorem randomSegments_formatted (random : ℕ → RandomNumber) (call : ℕ) :
    Formatted (randomSegments random call) := by
  refine ⟨_, _, rfl, segment_length _ _, segment_length _ _, ?_⟩
  intro c hc
  rcases List.mem_append.mp hc with hfirst | hsecond
  · exact segment_mem hfirst
  · exact segment_mem hsecond

/-! ## The fallback -/

theorem hexDigit_ne_dash (n : ℕ) : hexDigit n ≠ dash := by
  unfold hexDigit dash
  split_ifs <;> omega

theorem filter_toHex (bytes : List ℕ) : (toHex bytes).filter (· ≠ dash) = toHex bytes := by
  rw [List.filter_eq_self]
  intro c hc
  obtain ⟨b, -, hb⟩ := List.mem_flatMap.mp hc
  simp only [List.mem_cons, List.not_mem_nil, or_false] at hb
  rcases hb with rfl | rfl <;> simp [hexDigit_ne_dash]

theorem toHex_append (bytes bytes' : List ℕ) : toHex (bytes ++ bytes') = toHex bytes ++ toHex bytes' := by
  unfold toHex
  exact List.flatMap_append

/-- Without its dashes the text is that of the sixteen bytes. -/
theorem Uuid.filter_text (uuid : Uuid) : uuid.text.filter (· ≠ dash) = toHex uuid.bytes := by
  have hdash : [dash].filter (· ≠ dash) = [] := by decide
  have hsplit : uuid.bytes = uuid.bytes.take 4 ++ ((uuid.bytes.drop 4).take 2 ++
      ((uuid.bytes.drop 6).take 2 ++ ((uuid.bytes.drop 8).take 2 ++ uuid.bytes.drop 10))) := by
    have h8 : uuid.bytes.drop 8 = (uuid.bytes.drop 8).take 2 ++ uuid.bytes.drop 10 := by
      rw [← List.drop_drop (i := 2) (j := 8)]
      exact (List.take_append_drop 2 _).symm
    have h6 : uuid.bytes.drop 6 = (uuid.bytes.drop 6).take 2 ++ uuid.bytes.drop 8 := by
      rw [← List.drop_drop (i := 2) (j := 6)]
      exact (List.take_append_drop 2 _).symm
    have h4 : uuid.bytes.drop 4 = (uuid.bytes.drop 4).take 2 ++ uuid.bytes.drop 6 := by
      rw [← List.drop_drop (i := 2) (j := 4)]
      exact (List.take_append_drop 2 _).symm
    rw [← h8, ← h6, ← h4, List.take_append_drop]
  conv_rhs => rw [hsplit]
  unfold Uuid.text joinTexts
  simp only [List.intersperse, List.flatten_cons, List.flatten_nil, List.append_nil,
    List.filter_append, filter_toHex, hdash, List.nil_append, toHex_append]

theorem parseHex_pair {b : ℕ} (hb : b < 256) :
    parseHex [hexDigit (b / 16), hexDigit (b % 16)] = some b := by
  have hhigh : hexValue (hexDigit (b / 16)) = some (b / 16) := hexValue_hexDigit _ (by omega)
  have hlow : hexValue (hexDigit (b % 16)) = some (b % 16) := hexValue_hexDigit _ (by omega)
  unfold parseHex
  simp only [List.map_cons, List.map_nil, hhigh, hlow, List.takeWhile, Option.isSome_some]
  show some (16 * (16 * 0 + b / 16) + b % 16) = some b
  rw [Nat.mul_zero, Nat.zero_add, Nat.div_add_mod]

/-- The letter of a byte. -/
def byteLetter (b : ℕ) : JsString := letter (some (b % alphabet.length))

theorem byteLetter_length (b : ℕ) : (byteLetter b).length = 1 := by
  unfold byteLetter
  rw [letter_of_lt (Nat.mod_lt b (by decide))]
  exact List.length_singleton

theorem byteLetter_mem {b c : ℕ} (hc : c ∈ byteLetter b) : c ∈ alphabet :=
  letter_mem (Nat.mod_lt b (by decide)) hc

/-- The loop reads one byte for each letter that is missing. -/
theorem uuidLetters_toHex {bytes : List ℕ} (h : ∀ b ∈ bytes, b < 256) (letters : JsString) :
    uuidLetters letters (toHex bytes) =
      letters ++ (bytes.take (segmentLength * segmentCount - letters.length)).flatMap byteLetter := by
  induction bytes generalizing letters with
  | nil =>
    rw [List.take_nil, List.flatMap_nil, List.append_nil]
    rfl
  | cons b bytes ih =>
    have hcons : toHex (b :: bytes) = hexDigit (b / 16) :: hexDigit (b % 16) :: toHex bytes := rfl
    have hrest : ∀ b' ∈ bytes, b' < 256 := fun b' hb' => h b' (List.mem_cons_of_mem _ hb')
    rw [hcons, uuidLetters, parseHex_pair (h b List.mem_cons_self), Option.map_some]
    by_cases hlength : letters.length < segmentLength * segmentCount
    · have hmissing : segmentLength * segmentCount - letters.length =
          (segmentLength * segmentCount - (letters ++ byteLetter b).length) + 1 := by
        rw [List.length_append, byteLetter_length]
        omega
      rw [if_pos hlength, hmissing, List.take_succ_cons, List.flatMap_cons, ← List.append_assoc]
      exact ih hrest _
    · have hmissing : segmentLength * segmentCount - letters.length = 0 := by omega
      rw [if_neg hlength, hmissing, List.take_zero, List.flatMap_nil, List.append_nil]

theorem flatMap_byteLetter_length (bytes : List ℕ) : (bytes.flatMap byteLetter).length = bytes.length := by
  rw [List.length_flatMap]
  simp [byteLetter_length]

/-- The fallback takes the first six bytes, whatever they are. -/
theorem uuidFallbackSegments_eq (uuid : Uuid) : uuidFallbackSegments uuid =
    (uuid.bytes.take 3).flatMap byteLetter ++ [dash] ++
      ((uuid.bytes.drop 3).take 3).flatMap byteLetter := by
  have hsix : uuid.bytes.take 6 = uuid.bytes.take 3 ++ (uuid.bytes.drop 3).take 3 := by
    exact List.take_add (i := 3) (j := 3)
  have hletters : uuidLetters [] (uuid.text.filter (· ≠ dash)) =
      (uuid.bytes.take 3).flatMap byteLetter ++ ((uuid.bytes.drop 3).take 3).flatMap byteLetter := by
    rw [uuid.filter_text, uuidLetters_toHex uuid.byte, List.nil_append, ← List.flatMap_append, ← hsix]
    rfl
  have hfirst : ((uuid.bytes.take 3).flatMap byteLetter).length = 3 := by
    rw [flatMap_byteLetter_length, List.length_take, uuid.length_eq]
    rfl
  have hsecond : (((uuid.bytes.drop 3).take 3).flatMap byteLetter).length = 3 := by
    rw [flatMap_byteLetter_length, List.length_take, List.length_drop, uuid.length_eq]
    rfl
  have htake : ∀ first second : JsString, first.length = 3 → second.length = 3 →
      (first ++ second).take 3 ++ [dash] ++ ((first ++ second).take 6).drop 3 =
        first ++ [dash] ++ second := by
    intro first second h h'
    rw [List.take_left' h, List.take_of_length_le (by rw [List.length_append, h, h']),
      List.drop_left' h]
  unfold uuidFallbackSegments
  rw [hletters]
  exact htake _ _ hfirst hsecond

theorem uuidFallbackSegments_formatted (uuid : Uuid) : Formatted (uuidFallbackSegments uuid) := by
  refine ⟨_, _, uuidFallbackSegments_eq uuid, ?_, ?_, ?_⟩
  · rw [flatMap_byteLetter_length, List.length_take, uuid.length_eq]
    rfl
  · rw [flatMap_byteLetter_length, List.length_take, List.length_drop, uuid.length_eq]
    rfl
  · intro c hc
    rw [← List.flatMap_append] at hc
    obtain ⟨b, -, hb⟩ := List.mem_flatMap.mp hc
    exact byteLetter_mem hb

/-! ## What the loop returns -/

section
variable (activeRoomCodes : List JsString) (random : ℕ → RandomNumber) (uuid : Uuid)

theorem attemptCodes_formatted (retries call : ℕ) :
    Formatted (attemptCodes activeRoomCodes random uuid retries call) := by
  induction retries generalizing call with
  | zero => exact uuidFallbackSegments_formatted uuid
  | succ retries ih =>
    rw [attemptCodes]
    by_cases hcode : randomSegments random call ∉ activeRoomCodes
    · rw [if_pos hcode]
      exact randomSegments_formatted random call
    · rw [if_neg hcode]
      exact ih _

/-- A code in use is returned exactly when every attempt collides and the fallback does. -/
theorem attemptCodes_mem_iff (retries call : ℕ) :
    attemptCodes activeRoomCodes random uuid retries call ∈ activeRoomCodes ↔
      (∀ attempt < retries, randomSegments random (call + attempt * (segmentLength * segmentCount)) ∈
        activeRoomCodes) ∧ uuidFallbackSegments uuid ∈ activeRoomCodes := by
  induction retries generalizing call with
  | zero =>
    rw [attemptCodes]
    constructor
    · intro h
      exact ⟨fun attempt hattempt => absurd hattempt (Nat.not_lt_zero _), h⟩
    · intro h
      exact h.2
  | succ retries ih =>
    have hshift : ∀ attempt, call + (attempt + 1) * (segmentLength * segmentCount) =
        call + segmentLength * segmentCount + attempt * (segmentLength * segmentCount) := by
      intro attempt
      rw [Nat.succ_mul]
      omega
    rw [attemptCodes]
    by_cases hcode : randomSegments random call ∈ activeRoomCodes
    · rw [if_neg (not_not_intro hcode), ih]
      constructor
      · rintro ⟨hattempts, hfallback⟩
        refine ⟨fun attempt hattempt => ?_, hfallback⟩
        cases attempt with
        | zero => simpa using hcode
        | succ attempt =>
          rw [hshift]
          exact hattempts attempt (by omega)
      · rintro ⟨hattempts, hfallback⟩
        refine ⟨fun attempt hattempt => ?_, hfallback⟩
        rw [← hshift]
        exact hattempts (attempt + 1) (by omega)
    · rw [if_pos hcode]
      constructor
      · intro h
        exact absurd h hcode
      · rintro ⟨hattempts, -⟩
        have hfirst := hattempts 0 (by omega)
        rw [Nat.zero_mul, Nat.add_zero] at hfirst
        exact absurd hfirst hcode

end

/-! ## Formatted codes are accepted as they are -/

theorem alphabet_lower : ∀ c ∈ alphabet, c < 128 ∧ asciiLower c = c ∧ isRegexSpace c = false := by
  decide

theorem jsTrim_of_no_space {text : JsString} (h : ∀ c ∈ text, isRegexSpace c = false) :
    jsTrim text = text := by
  have hdrop : ∀ part : JsString, (∀ c ∈ part, c ∈ text) → part.dropWhile isRegexSpace = part := by
    intro part hpart
    refine List.dropWhile_eq_self_iff.mpr fun hlength => ?_
    rw [h _ (hpart _ (List.getElem_mem hlength))]
    exact Bool.false_ne_true
  unfold jsTrim
  rw [hdrop text fun c hc => hc, hdrop _ fun c hc => List.mem_reverse.mp hc, List.reverse_reverse]

theorem Formatted.units {code : JsString} (h : Formatted code) {c : ℕ} (hc : c ∈ code) :
    c < 128 ∧ asciiLower c = c ∧ isRegexSpace c = false := by
  obtain ⟨first, second, rfl, -, -, hletters⟩ := h
  by_cases hdash : c = dash
  · subst hdash
    decide
  · apply alphabet_lower
    apply hletters
    simp only [List.mem_append, List.mem_singleton, hdash, or_false] at hc
    exact List.mem_append.mpr hc

theorem Formatted.length_eq {code : JsString} (h : Formatted code) : code.length = 7 := by
  obtain ⟨first, second, rfl, hfirst, hsecond, -⟩ := h
  rw [List.length_append, List.length_append, hfirst, hsecond]
  rfl

/-- Neither trimming nor lowering changes it. -/
theorem Formatted.normalized {toLowerCase : JsString → JsString} (hlower : LowersAscii toLowerCase)
    {code : JsString} (h : Formatted code) : normalizeRoomCode toLowerCase code = code := by
  have htrim : jsTrim code = code := jsTrim_of_no_space fun c hc => (h.units hc).2.2
  unfold normalizeRoomCode
  rw [htrim, hlower code fun c hc => (h.units hc).1]
  calc code.map asciiLower = code.map id := List.map_congr_left fun c hc => (h.units hc).2.1
    _ = code := List.map_id code

theorem Formatted.pattern {code : JsString} (h : Formatted code) : roomCodePattern code = true := by
  have hlength := h.length_eq
  obtain ⟨first, second, rfl, hfirst, hsecond, hletters⟩ := h
  have hall : ∀ part : JsString, (∀ c ∈ part, c ∈ alphabet) → part.all (alphabet.contains ·) = true := by
    intro part hpart
    rw [List.all_eq_true]
    intro c hc
    simpa using hpart c hc
  have htake : (first ++ [dash] ++ second).take segmentLength = first := by
    rw [List.append_assoc]
    exact List.take_left' hfirst
  have hmiddle : (first ++ [dash] ++ second)[segmentLength]? = some dash := by
    rw [List.append_assoc, ← hfirst]
    simp
  have hdrop : (first ++ [dash] ++ second).drop (segmentLength + 1) = second := by
    apply List.drop_left'
    rw [List.length_append, hfirst]
    rfl
  unfold roomCodePattern
  rw [htake, hmiddle, hdrop, hall first fun c hc => hletters c (List.mem_append_left _ hc),
    hall second fun c hc => hletters c (List.mem_append_right _ hc), hlength]
  rfl

theorem Formatted.accepted {toLowerCase : JsString → JsString} (hlower : LowersAscii toLowerCase)
    {code : JsString} (h : Formatted code) : roomCodeSchema toLowerCase code = some code := by
  have hvalue : toLowerCase (jsTrim code) = code := h.normalized hlower
  unfold roomCodeSchema
  simp only [hvalue, h.pattern, if_true]

end CodeShare.RoomCode
