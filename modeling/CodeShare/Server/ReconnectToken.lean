import CodeShare.Server.RoomHandler
import Mathlib.Data.Fintype.EquivFin
import Mathlib.Data.List.Find

/-! # Reconnect tokens as text

The server issues a token as sixteen random bytes in hex, tests what is presented against a pattern and
compares the decoded bytes. The model numbers the tokens; `Presents` says which number a presented text
stands for, and `reconnectingUser_text` that the lookup of the text is that of the number.
-/

namespace CodeShare
set_option autoImplicit false

/-! ## Hex -/

/-- The digits of `toString("hex")`. -/
def hexDigit (n : ℕ) : ℕ := if n < 10 then 48 + n else 87 + n

/-- What `Buffer.from` takes for a hex digit. -/
def hexValue (c : ℕ) : Option ℕ :=
  if 48 ≤ c ∧ c ≤ 57 then some (c - 48)
  else if 97 ≤ c ∧ c ≤ 102 then some (c - 87)
  else if 65 ≤ c ∧ c ≤ 70 then some (c - 55)
  else none

def toHex (bytes : List ℕ) : JsString := bytes.flatMap fun b => [hexDigit (b / 16), hexDigit (b % 16)]

/-- `Buffer.from(text, "hex")` ends at the first pair that is not hex. -/
def fromHex : JsString → List ℕ
  | high :: low :: rest =>
    match hexValue high, hexValue low with
    | some h, some l => (16 * h + l) :: fromHex rest
    | _, _ => []
  | _short => []

/-- The digits of RECONNECT_TOKEN_PATTERN. -/
def isTokenDigit (c : ℕ) : Bool := (48 ≤ c && c ≤ 57) || (97 ≤ c && c ≤ 102)

def reconnectTokenPattern (text : JsString) : Bool := text.length = 32 && text.all isTokenDigit

/-- Buffers of different lengths make it throw. -/
def timingSafeEqual (a b : List ℕ) : Option Bool :=
  if a.length = b.length then some (decide (a = b)) else none

/-! ## The lookup of a text -/

/-- `findByReconnectToken`, with the text of every issued token. -/
def Room.findByReconnectTokenText (room : Room) (text : Token → JsString) (token : JsString) :
    Option RoomUserInternal :=
  room.users.find? fun u =>
    !u.connected && (timingSafeEqual (fromHex (text u.reconnectToken)) (fromHex token)).getD false

/-- The lookup in `handleUserJoin` and `tryReconnectUser`. -/
def reconnectingUserText (room : Room) (text : Token → JsString) : Option JsString → Option RoomUserInternal
  | some token =>
    if token ≠ [] ∧ reconnectTokenPattern token = true then room.findByReconnectTokenText text token
    else none
  | none => none

/-- What a presented text is to the model. -/
inductive Presents (users : List RoomUserInternal) (text : Token → JsString) (token : JsString) :
    PresentedToken → Prop where
  | wellFormed (τ : Token) (hpattern : reconnectTokenPattern token = true)
      (hτ : ∀ u ∈ users, text u.reconnectToken = token ↔ u.reconnectToken = τ) :
      Presents users text token (.wellFormed τ)
  | malformed (hpattern : reconnectTokenPattern token = false) : Presents users text token .malformed

/-- A token is issued as sixteen bytes. -/
def IssuedText (token : JsString) : Prop :=
  ∃ bytes : List ℕ, bytes.length = 16 ∧ (∀ b ∈ bytes, b < 256) ∧ token = toHex bytes

/-! ## Decoding undoes encoding -/

theorem hexValue_hexDigit : ∀ n < 16, hexValue (hexDigit n) = some n := by
  decide

theorem hexDigit_of_hexValue {c v : ℕ} (hc : isTokenDigit c = true) (h : hexValue c = some v) :
    hexDigit v = c ∧ v < 16 := by
  simp only [isTokenDigit, Bool.or_eq_true, Bool.and_eq_true, decide_eq_true_eq] at hc
  unfold hexValue at h
  unfold hexDigit
  split_ifs at h with hdecimal hlower hupper
  · obtain rfl := Option.some.inj h
    split_ifs <;> omega
  · obtain rfl := Option.some.inj h
    split_ifs <;> omega
  · omega

theorem hexValue_of_isTokenDigit {c : ℕ} (hc : isTokenDigit c = true) : ∃ v, hexValue c = some v := by
  simp only [isTokenDigit, Bool.or_eq_true, Bool.and_eq_true, decide_eq_true_eq] at hc
  unfold hexValue
  rcases hc with hdecimal | hlower
  · exact ⟨_, if_pos hdecimal⟩
  · rw [if_neg (by omega), if_pos hlower]
    exact ⟨_, rfl⟩

theorem fromHex_toHex {bytes : List ℕ} (h : ∀ b ∈ bytes, b < 256) : fromHex (toHex bytes) = bytes := by
  induction bytes with
  | nil => rfl
  | cons b bytes ih =>
    have hb : b < 256 := h b List.mem_cons_self
    have hhigh : hexValue (hexDigit (b / 16)) = some (b / 16) := hexValue_hexDigit _ (by omega)
    have hlow : hexValue (hexDigit (b % 16)) = some (b % 16) := hexValue_hexDigit _ (by omega)
    have hrest := ih fun b' hb' => h b' (List.mem_cons_of_mem _ hb')
    have hcons : toHex (b :: bytes) = hexDigit (b / 16) :: hexDigit (b % 16) :: toHex bytes := rfl
    rw [hcons, fromHex, hhigh, hlow]
    dsimp only
    rw [hrest]
    congr 1
    omega

theorem toHex_fromHex {text : JsString} (h : ∀ c ∈ text, isTokenDigit c = true)
    (heven : text.length % 2 = 0) : toHex (fromHex text) = text := by
  induction text using fromHex.induct with
  | case1 high low rest v w hw hv ih =>
    obtain ⟨hhigh, hv'⟩ := hexDigit_of_hexValue (h high List.mem_cons_self) hv
    obtain ⟨hlow, hw'⟩ :=
      hexDigit_of_hexValue (h low (List.mem_cons_of_mem _ List.mem_cons_self)) hw
    have hlength : rest.length % 2 = 0 := by
      simp only [List.length_cons] at heven
      omega
    have hrest := ih (fun c hc => h c (List.mem_cons_of_mem _ (List.mem_cons_of_mem _ hc))) hlength
    have hdiv : (16 * v + w) / 16 = v := by omega
    have hmod : (16 * v + w) % 16 = w := by omega
    rw [fromHex, hv, hw]
    change hexDigit ((16 * v + w) / 16) :: hexDigit ((16 * v + w) % 16) :: toHex (fromHex rest) = _
    rw [hdiv, hmod, hhigh, hlow, hrest]
  | case2 high low rest hnone =>
    obtain ⟨v, hv⟩ := hexValue_of_isTokenDigit (h high List.mem_cons_self)
    obtain ⟨w, hw⟩ :=
      hexValue_of_isTokenDigit (h low (List.mem_cons_of_mem _ List.mem_cons_self))
    exact absurd hw (hnone v w hv)
  | case3 short hshort =>
    rcases short with _ | ⟨high, _ | ⟨low, rest⟩⟩
    · rfl
    · simp at heven
    · exact absurd rfl (hshort high low rest)

theorem toHex_length (bytes : List ℕ) : (toHex bytes).length = 2 * bytes.length := by
  induction bytes with
  | nil => rfl
  | cons b bytes ih =>
    have hcons : toHex (b :: bytes) = hexDigit (b / 16) :: hexDigit (b % 16) :: toHex bytes := rfl
    rw [hcons, List.length_cons, List.length_cons, ih, List.length_cons]
    omega

/-- The bytes are compared exactly when the texts are. -/
theorem timingSafeEqual_text {issued token : JsString} (hissued : IssuedText issued)
    (hpattern : reconnectTokenPattern token = true) :
    timingSafeEqual (fromHex issued) (fromHex token) = some (decide (issued = token)) := by
  obtain ⟨bytes, hlength, hbytes, rfl⟩ := hissued
  simp only [reconnectTokenPattern, Bool.and_eq_true, decide_eq_true_eq, List.all_eq_true] at hpattern
  have hroundtrip : toHex (fromHex token) = token := toHex_fromHex hpattern.2 (by omega)
  have hsixteen : (fromHex token).length = 16 := by
    have htwice := toHex_length (fromHex token)
    rw [hroundtrip] at htwice
    omega
  rw [fromHex_toHex hbytes, timingSafeEqual, if_pos (by omega)]
  congr 1
  refine decide_eq_decide.mpr ⟨?_, ?_⟩
  · rintro rfl
    exact hroundtrip
  · rintro rfl
    rw [fromHex_toHex hbytes]

/-- **The lookup.** The user found for a presented text is the one found for the token it stands for. -/
theorem reconnectingUser_text {room : Room} {text : Token → JsString} {token : JsString}
    {presented : PresentedToken} (hissued : ∀ u ∈ room.users, IssuedText (text u.reconnectToken))
    (h : Presents room.users text token presented) :
    reconnectingUserText room text (some token) = reconnectingUser room (some presented) := by
  cases h with
  | wellFormed τ hpattern hτ =>
    have hne : token ≠ [] := by
      rintro rfl
      cases hpattern
    change ite _ _ _ = room.findByReconnectToken τ
    rw [if_pos ⟨hne, hpattern⟩]
    refine List.find?_congr fun u hu => ?_
    rw [timingSafeEqual_text (hissued u hu) hpattern, Option.getD_some]
    congr 1
    exact decide_eq_decide.mpr (hτ u hu)
  | malformed hpattern =>
    change ite _ _ _ = none
    rw [if_neg fun hboth => by rw [hpattern] at hboth; cases hboth.2]

/-- Every text stands for some token, as long as the users' tokens have texts of their own. -/
theorem exists_presents (users : List RoomUserInternal) (text : Token → JsString)
    (hdistinct : ∀ u ∈ users, ∀ w ∈ users, text u.reconnectToken = text w.reconnectToken →
      u.reconnectToken = w.reconnectToken) (token : JsString) :
    ∃ presented, Presents users text token presented := by
  cases hpattern : reconnectTokenPattern token with
  | false => exact ⟨_, .malformed hpattern⟩
  | true =>
    by_cases hfound : ∃ w ∈ users, text w.reconnectToken = token
    · obtain ⟨w, hw, rfl⟩ := hfound
      refine ⟨_, .wellFormed w.reconnectToken hpattern fun u hu => ⟨hdistinct u hu w hw, ?_⟩⟩
      intro heq
      rw [heq]
    · obtain ⟨τ, hτ⟩ := Infinite.exists_notMem_finset (users.map (·.reconnectToken)).toFinset
      refine ⟨_, .wellFormed τ hpattern fun u hu => ⟨fun heq => absurd ⟨u, hu, heq⟩ hfound, ?_⟩⟩
      rintro rfl
      exact absurd (List.mem_toFinset.mpr (List.mem_map_of_mem hu)) hτ

end CodeShare
