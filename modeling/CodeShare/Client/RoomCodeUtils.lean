import CodeShare.Lib.RoomCode
import CodeShare.Text.Uri

/-! # The room code input of the client

`roomCodeUtils.ts`. Lowering is the language's: a code point's lower-case form may depend on the text around it,
that of an ASCII character does not.
-/

namespace CodeShare.RoomCode
set_option autoImplicit false

def totalLength : ℕ := segmentLength * segmentCount

section
variable (toLowerCase : JsString → JsString)

def stripRoomCodeInput (raw : JsString) : JsString :=
  ((toLowerCase raw).filter (alphabet.contains ·)).take totalLength

def formatRoomCode (stripped : JsString) : JsString :=
  if stripped.length ≤ segmentLength then stripped
  else stripped.take segmentLength ++ [dash] ++ stripped.drop segmentLength

def isRoomCodeComplete (stripped : JsString) : Bool := stripped.length = totalLength

/-- `none` is the `null` of an input that is not complete. -/
def normalizeRoomCodeInput (raw : JsString) : Option JsString :=
  let stripped := stripRoomCodeInput toLowerCase raw
  if isRoomCodeComplete stripped then some (formatRoomCode stripped) else none

end

/-! ## Lower case -/

/-- What a code point becomes between the code points before and behind it. -/
structure Lowercasing where
  lower : List ℕ → ℕ → List ℕ → JsString
  ascii : ∀ (before after : List ℕ) (c : ℕ), c < 128 → lower before c after = [asciiLower c]

variable (lowering : Lowercasing)

def Lowercasing.lowerFrom : List ℕ → List ℕ → JsString
  | _, [] => []
  | before, c :: after => lowering.lower before c after ++ lowerFrom (before ++ [c]) after

/-- `String.prototype.toLowerCase`. -/
def Lowercasing.toLowerCase (text : JsString) : JsString := lowering.lowerFrom [] (codePoints text)

theorem Lowercasing.lowerFrom_ascii {points : List ℕ} (h : ∀ c ∈ points, c < 128) (before : List ℕ) :
    lowering.lowerFrom before points = points.map asciiLower := by
  induction points generalizing before with
  | nil => rfl
  | cons c points ih =>
    rw [lowerFrom, lowering.ascii before points c (h c List.mem_cons_self),
      ih (fun b hb => h b (List.mem_cons_of_mem _ hb)), List.map_cons, List.singleton_append]

theorem Lowercasing.lowersAscii : LowersAscii lowering.toLowerCase := by
  intro text h
  have hplain : codePoints text = text := by
    apply codePoints_of_plain
    intro c hc
    have hlt := h c hc
    unfold isHighSurrogate
    simp
    omega
  unfold toLowerCase
  rw [hplain, lowering.lowerFrom_ascii h]

/-! ## Noise -/

/-- No lower-case form of the code point has a letter of the alphabet. -/
def Noise (point : ℕ) : Prop := ∀ before after : List ℕ, ∀ c ∈ lowering.lower before point after, c ∉ alphabet

/-- The code points are those of the code, some in the other ASCII case, and noise between them. -/
inductive Retyped : JsString → List ℕ → Prop
  | nil : Retyped [] []
  | letter {c typed : ℕ} {code : JsString} {points : List ℕ} (hcase : asciiLower typed = asciiLower c)
      (h : Retyped code points) : Retyped (c :: code) (typed :: points)
  | noise {point : ℕ} {code : JsString} {points : List ℕ} (hnoise : Noise lowering point)
      (h : Retyped code points) : Retyped code (point :: points)

variable {lowering}

theorem lt_of_asciiLower_eq {c typed : ℕ} (hc : c < 128) (h : asciiLower typed = asciiLower c) : typed < 128 := by
  unfold asciiLower at h
  split_ifs at h <;> omega

/-- Noise leaves nothing behind the filter. -/
theorem Retyped.filter_lowerFrom {code : JsString} {points : List ℕ} (h : Retyped lowering code points)
    (hcode : ∀ c ∈ code, c < 128 ∧ asciiLower c = c) (before : List ℕ) :
    (lowering.lowerFrom before points).filter (alphabet.contains ·) = code.filter (alphabet.contains ·) := by
  induction h generalizing before with
  | nil => rfl
  | @letter c typed code points hcase _ ih =>
    obtain ⟨hlt, hlower⟩ := hcode c List.mem_cons_self
    have htyped := lt_of_asciiLower_eq hlt hcase
    rw [Lowercasing.lowerFrom, lowering.ascii before points typed htyped, hcase, hlower, List.singleton_append,
      List.filter_cons, List.filter_cons, ih fun b hb => hcode b (List.mem_cons_of_mem _ hb)]
  | @noise point code points hnoise _ ih =>
    have hnone : (lowering.lower before point points).filter (alphabet.contains ·) = [] := by
      apply List.filter_eq_nil_iff.mpr
      intro c hc
      simpa using hnoise before points c hc
    rw [Lowercasing.lowerFrom, List.filter_append, hnone, List.nil_append, ih hcode]

/-! ## Codes in and out -/

variable {toLowerCase : JsString → JsString}

/-- The six letters, in two segments again. -/
theorem Formatted.normalizeRoomCodeInput_of_filter {code raw : JsString} (h : Formatted code)
    (hfilter : (toLowerCase raw).filter (alphabet.contains ·) = code.filter (alphabet.contains ·)) :
    normalizeRoomCodeInput toLowerCase raw = some code := by
  obtain ⟨first, second, rfl, hfirst, hsecond, hletters⟩ := h
  have hdash : [dash].filter (alphabet.contains ·) = [] := by decide
  have hall : (first ++ second).filter (alphabet.contains ·) = first ++ second := by
    rw [List.filter_eq_self]
    intro c hc
    simpa using hletters c hc
  have hlength : (first ++ second).length = totalLength := by
    rw [List.length_append, hfirst, hsecond]
    rfl
  have hstripped : stripRoomCodeInput toLowerCase raw = first ++ second := by
    rw [stripRoomCodeInput, hfilter, List.filter_append, List.filter_append, hdash, List.append_nil,
      ← List.filter_append, hall, List.take_of_length_le hlength.le]
  have hlong : ¬ (first ++ second).length ≤ segmentLength := by
    rw [hlength]
    decide
  unfold normalizeRoomCodeInput
  dsimp only
  rw [hstripped, isRoomCodeComplete, if_pos (decide_eq_true hlength), formatRoomCode, if_neg hlong,
    List.take_left' hfirst, List.drop_left' hfirst]

/-- What is returned has the format. -/
theorem normalizeRoomCodeInput_formatted {raw code : JsString}
    (h : normalizeRoomCodeInput toLowerCase raw = some code) : Formatted code := by
  unfold normalizeRoomCodeInput at h
  dsimp only at h
  split_ifs at h with hcomplete
  obtain rfl := Option.some.inj h
  have hlength : (stripRoomCodeInput toLowerCase raw).length = totalLength := of_decide_eq_true hcomplete
  have hlong : ¬ (stripRoomCodeInput toLowerCase raw).length ≤ segmentLength := by
    rw [hlength]
    decide
  rw [formatRoomCode, if_neg hlong]
  refine ⟨_, _, rfl, ?_, ?_, ?_⟩
  · rw [List.length_take, hlength]
    rfl
  · rw [List.length_drop, hlength]
    rfl
  · rw [List.take_append_drop]
    intro c hc
    have hfiltered := List.mem_filter.mp (List.mem_of_mem_take hc)
    simpa using hfiltered.2

end CodeShare.RoomCode
