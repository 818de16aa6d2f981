import CodeShare.Foundations.Enumeration
import CodeShare.Text.Json
import Mathlib.Algebra.Order.Field.Rat
import Mathlib.Data.List.Sort

/-! # What `JSON.parse` returns

`JSON.parse` reads a number as a double: one that is out of range becomes an infinity, which is no JSON
value. Integers are rounded to the nearest double here; the text of a double is its shortest decimal.
-/

namespace CodeShare
set_option autoImplicit false

/-! ## Numbers -/

namespace JsNumber

def value (x : JsNumber) : ℚ :=
  let magnitude : ℚ := x.significand * 10 ^ (x.exponent - (digitUnits x.significand).length : ℤ)
  if x.negative then -magnitude else magnitude

/-- The number when it is an integer. -/
def toInt (x : JsNumber) : Option ℤ :=
  let k : ℤ := (digitUnits x.significand).length
  if x.significand = 0 then some 0
  else if k ≤ x.exponent then
    let magnitude : ℤ := x.significand * 10 ^ (x.exponent - k).toNat
    some (if x.negative then -magnitude else magnitude)
  else none

/-- `Object.is`: the two zeros differ. -/
def sameValue (x y : JsNumber) : Bool :=
  x.negative = y.negative && x.significand = y.significand &&
    (x.significand = 0 || x.exponent = y.exponent)

/-- The number without its trailing zeros; the fuel bounds their count. -/
def stripZeros : ℕ → ℕ → ℕ
  | 0, n => n
  | fuel + 1, n => if n % 10 = 0 then stripZeros fuel (n / 10) else n

theorem stripZeros_shortest {fuel n : ℕ} (hn : n < 10 ^ fuel) :
    stripZeros fuel n = 0 ∨ stripZeros fuel n % 10 ≠ 0 := by
  induction fuel generalizing n with
  | zero =>
    rw [pow_zero, Nat.lt_one_iff] at hn
    exact Or.inl hn
  | succ fuel ih =>
    rw [stripZeros]
    split_ifs with hzero
    · exact ih (Nat.div_lt_of_lt_mul (by rw [pow_succ] at hn; omega))
    · exact Or.inr hzero

theorem lt_pow_digits (n : ℕ) : n < 10 ^ (digitUnits n).length := by
  rw [digitUnits, List.length_map, List.length_reverse]
  exact Nat.lt_base_pow_length_digits (by decide)

/-- The decimal number `± n`. -/
def ofDecimal (negative : Bool) (n : ℕ) : JsNumber where
  negative := negative
  significand := stripZeros (digitUnits n).length n
  exponent := (digitUnits n).length
  shortest := stripZeros_shortest (lt_pow_digits n)

theorem exists_stripZeros (fuel n : ℕ) : ∃ z, n = 10 ^ z * stripZeros fuel n := by
  induction fuel generalizing n with
  | zero => exact ⟨0, by rw [stripZeros, pow_zero, one_mul]⟩
  | succ fuel ih =>
    rw [stripZeros]
    split_ifs with hzero
    · obtain ⟨z, hz⟩ := ih (n / 10)
      refine ⟨z + 1, ?_⟩
      rw [pow_succ, Nat.mul_right_comm, ← hz]
      omega
    · exact ⟨0, by rw [pow_zero, one_mul]⟩

theorem length_digitUnits_mul {m : ℕ} (z : ℕ) (hm : 0 < m) :
    (digitUnits (10 ^ z * m)).length = z + (digitUnits m).length := by
  simp only [digitUnits, List.length_map, List.length_reverse]
  rw [Nat.digits_base_pow_mul (by decide) hm, List.length_append, List.length_replicate]

theorem toInt_eq {x : JsNumber} {n z : ℕ} (hn : n = 10 ^ z * x.significand)
    (hexponent : x.exponent = (digitUnits n).length) :
    x.toInt = some (if x.negative then -(n : ℤ) else n) := by
  unfold toInt
  dsimp only
  by_cases hzero : x.significand = 0
  · rw [hzero, mul_zero] at hn
    simp [hzero, hn]
  · have hlength : (digitUnits n).length = z + (digitUnits x.significand).length := by
      rw [hn, length_digitUnits_mul z (Nat.pos_of_ne_zero hzero)]
    have hle : ((digitUnits x.significand).length : ℤ) ≤ x.exponent := by omega
    have hdiff : (x.exponent - (digitUnits x.significand).length : ℤ).toNat = z := by omega
    have hmul : (x.significand : ℤ) * 10 ^ z = n := by
      rw [hn]
      push_cast
      ring
    rw [if_neg hzero, if_pos hle, hdiff, hmul]

theorem toInt_ofDecimal (negative : Bool) (n : ℕ) :
    (ofDecimal negative n).toInt = some (if negative then -(n : ℤ) else n) := by
  obtain ⟨z, hz⟩ := exists_stripZeros (digitUnits n).length n
  exact toInt_eq (x := ofDecimal negative n) hz rfl

/-! ### Numerical equality -/

/-- The decimals of one rational without trailing zeros. -/
theorem significand_unique {s t : ℕ} {a b : ℤ} (hs : s % 10 ≠ 0) (ht : t % 10 ≠ 0)
    (h : (s : ℚ) * 10 ^ a = t * 10 ^ b) : s = t ∧ a = b := by
  wlog hle : a ≤ b generalizing s t a b
  · obtain ⟨hts, hba⟩ := this ht hs h.symm (by omega)
    exact ⟨hts.symm, hba.symm⟩
  obtain ⟨z, rfl⟩ := Int.le.dest hle
  have hten : (10 : ℚ) ^ a ≠ 0 := zpow_ne_zero a (by norm_num)
  have hmul : (s : ℚ) = t * 10 ^ z := by
    rw [zpow_add₀ (by norm_num), zpow_natCast, mul_comm ((10 : ℚ) ^ a), ← mul_assoc] at h
    exact mul_right_cancel₀ hten h
  have hnat : s = t * 10 ^ z := by exact_mod_cast hmul
  cases z with
  | zero => exact ⟨by rw [hnat, pow_zero, mul_one], by simp⟩
  | succ z =>
    rw [hnat, pow_succ, ← mul_assoc] at hs
    omega

theorem value_eq_zero_iff (x : JsNumber) : x.value = 0 ↔ x.significand = 0 := by
  have hten : (10 : ℚ) ^ (x.exponent - (digitUnits x.significand).length : ℤ) ≠ 0 :=
    zpow_ne_zero _ (by norm_num)
  unfold value
  dsimp only
  split_ifs <;> simp [hten]

/-- The value without the sign. -/
def magnitude (x : JsNumber) : ℚ := x.significand * 10 ^ (x.exponent - (digitUnits x.significand).length : ℤ)

theorem value_eq (x : JsNumber) : x.value = if x.negative then -x.magnitude else x.magnitude := rfl

theorem magnitude_pos {x : JsNumber} (hx : x.significand ≠ 0) : 0 < x.magnitude :=
  mul_pos (Nat.cast_pos.mpr (Nat.pos_of_ne_zero hx)) (zpow_pos (by norm_num) _)

/-- Numbers are numerically equal when they are the same, or both are zeros. -/
theorem value_eq_iff (x y : JsNumber) : x.value = y.value ↔
    (x.significand = 0 ∧ y.significand = 0) ∨
      (x.negative = y.negative ∧ x.significand = y.significand ∧ x.exponent = y.exponent) := by
  by_cases hx : x.significand = 0
  · rw [(value_eq_zero_iff x).mpr hx, eq_comm, value_eq_zero_iff]
    constructor
    · exact fun hy => Or.inl ⟨hx, hy⟩
    · rintro (⟨-, hy⟩ | ⟨-, hy, -⟩)
      · exact hy
      · exact hy.symm.trans hx
  · by_cases hy : y.significand = 0
    · rw [(value_eq_zero_iff y).mpr hy, value_eq_zero_iff]
      constructor
      · exact fun h => absurd h hx
      · rintro (⟨h, -⟩ | ⟨-, h, -⟩)
        · exact absurd h hx
        · exact h.trans hy
    · have hsame : x.value = y.value ↔ x.negative = y.negative ∧ magnitude x = magnitude y := by
        have hpos := magnitude_pos hx
        have hpos' := magnitude_pos hy
        rw [value_eq, value_eq]
        cases x.negative <;> cases y.negative <;> simp
        · intro h
          linarith
        · intro h
          linarith
      rw [hsame, or_iff_right fun h => hx h.1]
      refine and_congr_right fun _ => ⟨fun h => ?_, fun h => ?_⟩
      · obtain ⟨hsignificand, hexponent⟩ :=
          significand_unique (x.shortest.resolve_left hx) (y.shortest.resolve_left hy) h
        rw [hsignificand] at hexponent
        exact ⟨hsignificand, by omega⟩
      · rw [magnitude, magnitude, h.1, h.2]
theorem sameValue_iff (x y : JsNumber) : x.sameValue y = true ↔
    x.value = y.value ∧ (x.significand = 0 → y.significand = 0 → x.negative = y.negative) := by
  rw [value_eq_iff]
  unfold sameValue
  simp only [Bool.and_eq_true, Bool.or_eq_true, decide_eq_true_eq]
  constructor
  · rintro ⟨⟨hnegative, hsignificand⟩, hzero | hexponent⟩
    · exact ⟨Or.inl ⟨hzero, hsignificand ▸ hzero⟩, fun _ _ => hnegative⟩
    · exact ⟨Or.inr ⟨hnegative, hsignificand, hexponent⟩, fun _ _ => hnegative⟩
  · rintro ⟨⟨hx, hy⟩ | ⟨hnegative, hsignificand, hexponent⟩, hsign⟩
    · exact ⟨⟨hsign hx hy, hx.trans hy.symm⟩, Or.inl hx⟩
    · exact ⟨⟨hnegative, hsignificand⟩, Or.inr hexponent⟩

end JsNumber

/-! ## Doubles -/

/-- The double nearest to a natural number, ties to even; it is a natural number again. -/
def nearestDouble (n : ℕ) : ℕ :=
  let unit := 2 ^ (n.log2 + 1 - 53)
  let quotient := n / unit
  let remainder := n % unit
  if unit < 2 * remainder ∨ (unit = 2 * remainder ∧ quotient % 2 = 1) then (quotient + 1) * unit
  else quotient * unit

/-- The nearest decimal of `k` digits. -/
def roundDecimal (n k : ℕ) : ℕ :=
  let unit := 10 ^ ((digitUnits n).length - k)
  (n + unit / 2) / unit * unit

/-- The decimal of fewest digits that is read as the double; seventeen always suffice. -/
def shortestDecimal (double : ℕ) : ℕ :=
  (((List.range 18).map (roundDecimal double)).find? fun n => nearestDouble n = double).getD double

/-- What is rounded to this or more is an infinity. -/
def doubleLimit : ℕ := 2 ^ 1024

/-- The number that an integer literal denotes; `none` is an infinity. -/
def numberOfInt (n : ℤ) : Option JsNumber :=
  let double := nearestDouble n.natAbs
  if double < doubleLimit then some (.ofDecimal (n < 0) (shortestDecimal double)) else none

theorem nearestDouble_of_lt {n : ℕ} (hn : n < 2 ^ 53) : nearestDouble n = n := by
  have hlog : n.log2 + 1 - 53 = 0 := by
    by_cases hzero : n = 0
    · subst hzero
      rfl
    · have := (Nat.log2_lt hzero).mpr hn
      omega
  unfold nearestDouble
  rw [hlog]
  simp [Nat.mod_one]

theorem le_nearestDouble {n : ℕ} (hn : 2 ^ 53 ≤ n) : 2 ^ 53 ≤ nearestDouble n := by
  have hpos : n ≠ 0 := by
    rintro rfl
    simp at hn
  have hlog : 53 ≤ n.log2 := (Nat.le_log2 hpos).mpr hn
  have hunit : 2 ^ 52 * 2 ^ (n.log2 + 1 - 53) = 2 ^ n.log2 := by
    rw [← pow_add]
    congr 1
    omega
  have hquotient : 2 ^ 52 ≤ n / 2 ^ (n.log2 + 1 - 53) := by
    rw [Nat.le_div_iff_mul_le (Nat.two_pow_pos _), hunit]
    exact Nat.log2_self_le hpos
  have hbound : 2 ^ 53 ≤ n / 2 ^ (n.log2 + 1 - 53) * 2 ^ (n.log2 + 1 - 53) :=
    calc 2 ^ 53 ≤ 2 ^ n.log2 := Nat.pow_le_pow_right (by decide) hlog
      _ = 2 ^ 52 * 2 ^ (n.log2 + 1 - 53) := hunit.symm
      _ ≤ _ := Nat.mul_le_mul_right _ hquotient
  unfold nearestDouble
  dsimp only
  split_ifs
  · exact hbound.trans (Nat.mul_le_mul_right _ (Nat.le_succ _))
  · exact hbound

theorem shortestDecimal_spec (double : ℕ) :
    nearestDouble (shortestDecimal double) = double ∨ shortestDecimal double = double := by
  unfold shortestDecimal
  cases hfind : ((List.range 18).map (roundDecimal double)).find? fun n => nearestDouble n = double with
  | none => exact Or.inr rfl
  | some n => exact Or.inl (by simpa using List.find?_some hfind)

/-- Natural numbers up to 2^53 are read exactly. -/
theorem shortestDecimal_of_lt {n : ℕ} (hn : n < 2 ^ 53) : shortestDecimal n = n := by
  rcases shortestDecimal_spec n with hread | heq
  · have hlt : shortestDecimal n < 2 ^ 53 := by
      by_contra hle
      have := le_nearestDouble (not_lt.mp hle)
      omega
    rwa [nearestDouble_of_lt hlt] at hread
  · exact heq

theorem le_shortestDecimal {n : ℕ} (hn : 2 ^ 53 ≤ n) : 2 ^ 53 ≤ shortestDecimal n := by
  rcases shortestDecimal_spec n with hread | heq
  · by_contra hlt
    rw [nearestDouble_of_lt (not_le.mp hlt)] at hread
    omega
  · omega

theorem numberOfInt_of_lt {n : ℕ} (hn : n < 2 ^ 53) :
    numberOfInt n = some (.ofDecimal false n) := by
  have hlimit : n < doubleLimit := by
    unfold doubleLimit
    exact hn.trans (Nat.pow_lt_pow_right (by decide) (by decide))
  have hsign : decide ((n : ℤ) < 0) = false := by simp
  unfold numberOfInt
  rw [Int.natAbs_natCast, nearestDouble_of_lt hn]
  dsimp only
  rw [shortestDecimal_of_lt hn, if_pos hlimit, hsign]

/-- From 2^53 on a number may be rounded, but not below. -/
theorem numberOfInt_of_le {n : ℕ} (hn : 2 ^ 53 ≤ n) {x : JsNumber} (h : numberOfInt n = some x) :
    ∃ m : ℕ, 2 ^ 53 ≤ m ∧ x.toInt = some (m : ℤ) := by
  have hsign : decide ((n : ℤ) < 0) = false := by simp
  unfold numberOfInt at h
  rw [Int.natAbs_natCast, hsign] at h
  dsimp only at h
  split_ifs at h
  obtain rfl := Option.some.inj h
  exact ⟨_, le_shortestDecimal (le_nearestDouble hn), JsNumber.toInt_ofDecimal false _⟩

/-! ## Values -/

inductive ParsedJson where
  | null
  | bool (value : Bool)
  | finite (value : JsNumber)
  | infinite (negative : Bool)
  | str (text : JsString)
  | arr (items : List ParsedJson)
  | obj (members : List (JsString × ParsedJson))

/-- What `JSON.stringify` makes of a parsed value: an infinite number becomes `null`. -/
def ParsedJson.toJson : ParsedJson → Json
  | .null | .infinite _ => .null
  | .bool b => .bool b
  | .finite x => .num x
  | .str text => .str text
  | .arr items => .arr (itemsToJson items)
  | .obj members => .obj (membersToJson members)
where
  itemsToJson : List ParsedJson → List Json
    | [] => []
    | v :: rest => v.toJson :: itemsToJson rest
  membersToJson : List (JsString × ParsedJson) → List (JsString × Json)
    | [] => []
    | (k, v) :: rest => (k, v.toJson) :: membersToJson rest

def ParsedJson.stringify (v : ParsedJson) : JsString := v.toJson.stringify

def ParsedJson.ofInt (n : ℤ) : ParsedJson :=
  match numberOfInt n with
  | some x => .finite x
  | none => .infinite (n < 0)

/-- The value of a key that is an array index. -/
def arrayIndex (key : JsString) : Option ℕ :=
  let n := key.foldl (fun n c => 10 * n + (c - 48)) 0
  if key = decimalUnits n ∧ n < 2 ^ 32 - 1 then some n else none

/-- The order of an object's properties: array indexes first, the others as they came. -/
def propertyOrder {β : Type} (members : List (JsString × β)) : List (JsString × β) :=
  ((members.filter fun m => (arrayIndex m.1).isSome).insertionSort fun a b =>
    (arrayIndex a.1).getD 0 ≤ (arrayIndex b.1).getD 0) ++
      members.filter fun m => !(arrayIndex m.1).isSome

theorem propertyOrder_perm {β : Type} (members : List (JsString × β)) :
    (propertyOrder members).Perm members :=
  ((List.perm_insertionSort _ _).append_right _).trans (List.filter_append_perm _ members)

namespace ParsedJson

/-- A property of an object. -/
def get (key : JsString) : ParsedJson → Option ParsedJson
  | obj members => (members.find? fun member => member.1 = key).map Prod.snd
  | _ => none

/-- Reordering the properties changes none of them. -/
theorem get_propertyOrder {members : List (JsString × ParsedJson)} (key : JsString)
    (hnodup : (members.map Prod.fst).Nodup) :
    (obj (propertyOrder members)).get key =
      (members.find? fun member => member.1 = key).map Prod.snd := by
  have hperm := propertyOrder_perm members
  have hnodup' : ((propertyOrder members).map Prod.fst).Nodup :=
    ((hperm.map Prod.fst).nodup_iff).mpr hnodup
  rw [get]
  apply Option.ext
  intro v
  rw [Enumeration.find_value_iff hnodup', Enumeration.find_value_iff hnodup, hperm.mem_iff]

end ParsedJson
end CodeShare
