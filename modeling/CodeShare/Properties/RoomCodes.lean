import CodeShare.Client.RoomCodeUtils

/-! # Room codes between client and server

The generator, the input of the client, the schema and the server's normalisation are written apart. They agree on
the format.
-/

namespace CodeShare.RoomCode
set_option autoImplicit false

/-- Every generated code has the format, whatever is in use and whatever is drawn. -/
theorem generateRoomCode_formatted (activeRoomCodes : List JsString) (random : ℕ → RandomNumber) (uuid : Uuid) :
    Formatted (generateRoomCode activeRoomCodes random uuid) :=
  attemptCodes_formatted activeRoomCodes random uuid maxRetries 0

/-- **Client and server agree on room codes**: the client reads a generated code out of any retyping of it, and
what the client reads out of any text is accepted by the schema and left as it is by the server. -/
theorem room_codes_agree (client server : Lowercasing) :
    (∀ (activeRoomCodes : List JsString) (random : ℕ → RandomNumber) (uuid : Uuid) (text : JsString),
        Retyped client (generateRoomCode activeRoomCodes random uuid) (codePoints text) →
        normalizeRoomCodeInput client.toLowerCase text = some (generateRoomCode activeRoomCodes random uuid)) ∧
      ∀ text code : JsString, normalizeRoomCodeInput client.toLowerCase text = some code →
        roomCodeSchema server.toLowerCase code = some code ∧ normalizeRoomCode server.toLowerCase code = code := by
  constructor
  · intro activeRoomCodes random uuid text hretyped
    have hformatted := generateRoomCode_formatted activeRoomCodes random uuid
    apply hformatted.normalizeRoomCodeInput_of_filter
    apply hretyped.filter_lowerFrom
    intro c hc
    obtain ⟨hlt, hlower, -⟩ := hformatted.units hc
    exact ⟨hlt, hlower⟩
  · intro text code hread
    have hformatted := normalizeRoomCodeInput_formatted hread
    exact ⟨hformatted.accepted server.lowersAscii, hformatted.normalized server.lowersAscii⟩

/-- Lower case of ASCII, of the Kelvin sign and of the capital I with a dot; all else as it is. -/
def exampleLowercasing : Lowercasing where
  lower _ point _ :=
    if point < 128 then [asciiLower point]
    else if point = 0x130 then [105, 0x307]
    else if point = 0x212A then [107]
    else utf16Units point
  ascii _ _ _ hc := if_pos hc

theorem exampleRandom_nonneg : (0 : ℚ) ≤ 0 := le_refl 0

theorem exampleRandom_lt_one : (0 : ℚ) < 1 := zero_lt_one

/-- The same number at every call. -/
def exampleRandom (_ : ℕ) : RandomNumber := ⟨0, exampleRandom_nonneg, exampleRandom_lt_one⟩

def exampleUuid : Uuid where
  bytes := [0x9b, 0x2d, 0x7c, 0x1e, 0, 0, 0x40, 0, 0x80, 0, 0, 0, 0, 0, 0, 1]
  length_eq := rfl
  byte := by decide
  version := by decide
  variant := by decide

/-- The code of the fallback, with a space, a digit that is not in the alphabet, a second hyphen and an `é`. -/
def exampleTyped : JsString := js " 3N04--6A" ++ 233 :: js "a"

theorem noise_of_lower {point : ℕ} (h : ∀ c ∈ exampleLowercasing.lower [] point [], c ∉ alphabet) :
    Noise exampleLowercasing point :=
  fun _ _ => h

theorem room_codes_agree_example :
    generateRoomCode [js "aaa-aaa"] exampleRandom exampleUuid = js "3n4-6aa" ∧
      normalizeRoomCodeInput exampleLowercasing.toLowerCase exampleTyped = some (js "3n4-6aa") ∧
      roomCodeSchema exampleLowercasing.toLowerCase (js "3n4-6aa") = some (js "3n4-6aa") := by
  have hindex : randomIndex ⟨0, le_refl 0, zero_lt_one⟩ = 0 := by
    unfold randomIndex
    simp
  have hcode : generateRoomCode [js "aaa-aaa"] exampleRandom exampleUuid = js "3n4-6aa" := by
    have hdrawn : ∀ call, randomSegments exampleRandom call = js "aaa-aaa" := by
      intro call
      unfold randomSegments segment exampleRandom
      simp only [hindex]
      decide
    have hfallback : uuidFallbackSegments exampleUuid = js "3n4-6aa" := by decide +kernel
    unfold generateRoomCode maxRetries
    simp [attemptCodes, hdrawn, hfallback]
  have hretyped : Retyped exampleLowercasing (js "3n4-6aa") (codePoints exampleTyped) := by
    have hpoints : codePoints exampleTyped = [32, 51, 78, 48, 52, 45, 45, 54, 65, 233, 97] := by decide +kernel
    rw [hpoints]
    refine .noise (noise_of_lower (by decide)) (.letter rfl (.letter rfl ?_))
    refine .noise (noise_of_lower (by decide)) (.letter rfl (.letter rfl ?_))
    refine .noise (noise_of_lower (by decide)) (.letter rfl (.letter rfl ?_))
    exact .noise (noise_of_lower (by decide)) (.letter rfl .nil)
  obtain ⟨hout, hin⟩ := room_codes_agree exampleLowercasing exampleLowercasing
  have hread := hout [js "aaa-aaa"] exampleRandom exampleUuid exampleTyped (by rw [hcode]; exact hretyped)
  rw [hcode] at hread
  exact ⟨hcode, hread, (hin exampleTyped _ hread).1⟩

end CodeShare.RoomCode
