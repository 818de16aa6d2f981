import CodeShare.Text.JsString

/-! # Percent-encoded text

`decodeURIComponent`, `encodeURIComponent` and `URLSearchParams` of JavaScript, and UTF-8 under them. The
first throws on text that is not percent-encoded UTF-8; `PercentEncoded` says which text that is. The second
throws on lone surrogates, and what it makes the first reads back. The third never throws.
-/

namespace CodeShare
set_option autoImplicit false

/-! ## UTF-8 and UTF-16 -/

def IsScalar (v : ℕ) : Prop := v < 0x110000 ∧ isSurrogate v = false

instance (v : ℕ) : Decidable (IsScalar v) := by
  unfold IsScalar
  infer_instance

/-- The octets of a code point. -/
def utf8Units (v : ℕ) : List ℕ :=
  if v < 0x80 then [v]
  else if v < 0x800 then [0xC0 + v / 0x40, 0x80 + v % 0x40]
  else if v < 0x10000 then [0xE0 + v / 0x1000, 0x80 + v / 0x40 % 0x40, 0x80 + v % 0x40]
  else [0xF0 + v / 0x40000, 0x80 + v / 0x1000 % 0x40, 0x80 + v / 0x40 % 0x40, 0x80 + v % 0x40]

/-- UTF16EncodeCodePoint. -/
def utf16Units (v : ℕ) : JsString :=
  if v < 0x10000 then [v] else [0xD800 + (v - 0x10000) / 0x400, 0xDC00 + (v - 0x10000) % 0x400]

/-- The number of octets that start with this one, by its leading ones; zero when none do. -/
def octetCount (b : ℕ) : ℕ :=
  if b < 0x80 then 1 else if b < 0xC0 then 0 else if b < 0xE0 then 2 else if b < 0xF0 then 3
  else if b < 0xF8 then 4 else 0

/-- What the first octet adds to its bits of the code point when others follow. -/
def leadMark (others : ℕ) : ℕ :=
  if others = 0 then 0 else if others = 1 then 0xC0 else if others = 2 then 0xE0 else 0xF0

/-- The bits of the octets that carry the code point. -/
def octetsValue : List ℕ → ℕ
  | [] => 0
  | first :: others => others.foldl (fun v b => v * 0x40 + (b - 0x80)) (first - leadMark others.length)

/-- The code point of which these are the octets. -/
def codePointOf (octets : List ℕ) : Option ℕ :=
  if IsScalar (octetsValue octets) ∧ utf8Units (octetsValue octets) = octets then
    some (octetsValue octets)
  else none

theorem octetsValue_utf8Units (v : ℕ) : octetsValue (utf8Units v) = v := by
  by_cases h1 : v < 0x80
  · rw [utf8Units, if_pos h1]
    rfl
  by_cases h2 : v < 0x800
  · rw [utf8Units, if_neg h1, if_pos h2]
    change (0xC0 + v / 0x40 - 0xC0) * 0x40 + (0x80 + v % 0x40 - 0x80) = v
    omega
  by_cases h3 : v < 0x10000
  · rw [utf8Units, if_neg h1, if_neg h2, if_pos h3]
    change ((0xE0 + v / 0x1000 - 0xE0) * 0x40 + (0x80 + v / 0x40 % 0x40 - 0x80)) * 0x40 +
      (0x80 + v % 0x40 - 0x80) = v
    omega
  · rw [utf8Units, if_neg h1, if_neg h2, if_neg h3]
    change (((0xF0 + v / 0x40000 - 0xF0) * 0x40 + (0x80 + v / 0x1000 % 0x40 - 0x80)) * 0x40 +
      (0x80 + v / 0x40 % 0x40 - 0x80)) * 0x40 + (0x80 + v % 0x40 - 0x80) = v
    omega

theorem codePointOf_utf8Units {v : ℕ} (h : IsScalar v) : codePointOf (utf8Units v) = some v := by
  unfold codePointOf
  rw [octetsValue_utf8Units, if_pos ⟨h, rfl⟩]

theorem codePointOf_eq_some {octets : List ℕ} {v : ℕ} (h : codePointOf octets = some v) :
    IsScalar v ∧ utf8Units v = octets := by
  unfold codePointOf at h
  split_ifs at h with hvalid
  obtain rfl := Option.some.inj h
  exact hvalid

/-- The first octet tells how many there are. -/
theorem utf8Units_count {v : ℕ} (h : v < 0x110000) :
    ∃ first others, utf8Units v = first :: others ∧ octetCount first = (utf8Units v).length := by
  by_cases h1 : v < 0x80
  · rw [utf8Units, if_pos h1]
    refine ⟨v, [], rfl, ?_⟩
    rw [octetCount, if_pos h1, List.length_singleton]
  by_cases h2 : v < 0x800
  · rw [utf8Units, if_neg h1, if_pos h2]
    refine ⟨_, _, rfl, ?_⟩
    rw [octetCount, if_neg (by omega), if_neg (by omega), if_pos (by omega)]
    rfl
  by_cases h3 : v < 0x10000
  · rw [utf8Units, if_neg h1, if_neg h2, if_pos h3]
    refine ⟨_, _, rfl, ?_⟩
    rw [octetCount, if_neg (by omega), if_neg (by omega), if_neg (by omega), if_pos (by omega)]
    rfl
  · rw [utf8Units, if_neg h1, if_neg h2, if_neg h3]
    refine ⟨_, _, rfl, ?_⟩
    rw [octetCount, if_neg (by omega), if_neg (by omega), if_neg (by omega), if_neg (by omega),
      if_pos (by omega)]
    rfl

/-! ## decodeURIComponent -/

def percent : ℕ := 37

def hexDigitValue (c : ℕ) : Option ℕ :=
  if 48 ≤ c ∧ c ≤ 57 then some (c - 48)
  else if 65 ≤ c ∧ c ≤ 70 then some (c - 55)
  else if 97 ≤ c ∧ c ≤ 102 then some (c - 87)
  else none

/-- ParseHexOctet. -/
def hexOctet (a b : ℕ) : Option ℕ :=
  match hexDigitValue a, hexDigitValue b with
  | some high, some low => some (high * 16 + low)
  | _, _ => none

/-- Decode, behind the octets of a code point that has begun. -/
def decodeFrom : List ℕ → JsString → Option JsString
  | pending, [] => if pending = [] then some [] else none
  | pending, c :: rest =>
    if c = percent then
      match rest with
      | a :: b :: rest =>
        match hexOctet a b with
        | none => none
        | some octet =>
          let octets := pending ++ [octet]
          let count := octetCount (octets.headD 0)
          if octets.length < count then decodeFrom octets rest
          else if octets.length = count then
            match codePointOf octets with
            | none => none
            | some v => (decodeFrom [] rest).map (utf16Units v ++ ·)
          else none
      | _ => none
    else if pending = [] then (decodeFrom [] rest).map (c :: ·)
    else none

/-- `none` is the `URIError`. -/
def decodeURIComponent (text : JsString) : Option JsString := decodeFrom [] text

/-- The octets, each written as a percent sign and two hexadecimal digits. -/
def Escapes : List ℕ → JsString → Prop
  | [], text => text = []
  | octet :: octets, text =>
    ∃ a b rest, text = percent :: a :: b :: rest ∧ hexOctet a b = some octet ∧ Escapes octets rest

/-- Code units other than the percent sign, and escaped code points. -/
inductive PercentEncoded : JsString → Prop where
  | nil : PercentEncoded []
  | unit {c : ℕ} {rest : JsString} (hc : c ≠ percent) (hrest : PercentEncoded rest) :
      PercentEncoded (c :: rest)
  | scalar {v : ℕ} {escapes rest : JsString} (hv : IsScalar v) (hescapes : Escapes (utf8Units v) escapes)
      (hrest : PercentEncoded rest) : PercentEncoded (escapes ++ rest)

/-- What has to come behind the octets of a code point that has begun. -/
def Completes (pending : List ℕ) (text : JsString) : Prop :=
  ∃ v octets escapes rest, IsScalar v ∧ utf8Units v = pending ++ octets ∧ Escapes octets escapes ∧
    PercentEncoded rest ∧ text = escapes ++ rest

theorem Completes.octet {pending : List ℕ} {octet a b : ℕ} {rest : JsString}
    (hoctet : hexOctet a b = some octet) (h : Completes (pending ++ [octet]) rest) :
    Completes pending (percent :: a :: b :: rest) := by
  obtain ⟨v, octets, escapes, others, hv, hunits, hescapes, hothers, rfl⟩ := h
  refine ⟨v, octet :: octets, percent :: a :: b :: escapes, others, hv, ?_, ?_, hothers, rfl⟩
  · rw [hunits, List.append_assoc, List.singleton_append]
  · exact ⟨a, b, escapes, rfl, hoctet, hescapes⟩

theorem Completes.percentEncoded {text : JsString} (h : Completes [] text) : PercentEncoded text := by
  obtain ⟨v, octets, escapes, rest, hv, hunits, hescapes, hrest, rfl⟩ := h
  rw [List.nil_append] at hunits
  rw [← hunits] at hescapes
  exact .scalar hv hescapes hrest

theorem completes_of_decodeFrom {pending : List ℕ} {text decoded : JsString}
    (h : decodeFrom pending text = some decoded) :
    (pending = [] → PercentEncoded text) ∧ (pending ≠ [] → Completes pending text) := by
  fun_induction decodeFrom pending text generalizing decoded with
  | case1 => exact ⟨fun _ => .nil, fun hne => absurd rfl hne⟩
  | case2 pending hne => cases h
  | case3 => cases h
  | case4 pending a b rest octet hoctet octets count hlt =>
    rename_i ih
    have hne : octets ≠ [] := List.append_ne_nil_of_right_ne_nil _ (List.cons_ne_nil _ _)
    have hcompletes := ((ih h).2 hne).octet hoctet
    refine ⟨fun hpending => ?_, fun _ => hcompletes⟩
    subst hpending
    exact hcompletes.percentEncoded
  | case5 => cases h
  | case6 pending a b rest octet hoctet octets count hlt hlength v hv =>
    rename_i ih
    obtain ⟨tail, htail, rfl⟩ := Option.map_eq_some_iff.mp h
    obtain ⟨hscalar, hunits⟩ := codePointOf_eq_some hv
    have hcompletes : Completes pending (percent :: a :: b :: rest) :=
      ⟨v, [octet], [percent, a, b], rest, hscalar, hunits, ⟨a, b, [], rfl, hoctet, rfl⟩,
        (ih htail).1 rfl, rfl⟩
    refine ⟨fun hpending => ?_, fun _ => hcompletes⟩
    subst hpending
    exact hcompletes.percentEncoded
  | case7 => cases h
  | case8 => cases h
  | case9 c rest hc ih =>
    obtain ⟨tail, htail, rfl⟩ := Option.map_eq_some_iff.mp h
    exact ⟨fun _ => .unit hc ((ih htail).1 rfl), fun hne => absurd rfl hne⟩
  | case10 => cases h

theorem decodeFrom_escapes {v : ℕ} (hv : IsScalar v) (rest : JsString) {octets pending : List ℕ}
    {escapes : JsString} (hunits : utf8Units v = pending ++ octets) (hne : octets ≠ [])
    (hescapes : Escapes octets escapes) :
    decodeFrom pending (escapes ++ rest) = (decodeFrom [] rest).map (utf16Units v ++ ·) := by
  induction octets generalizing pending escapes with
  | nil => exact absurd rfl hne
  | cons octet octets ih =>
    obtain ⟨a, b, others, rfl, hoctet, hothers⟩ := hescapes
    have hsplit : utf8Units v = (pending ++ [octet]) ++ octets := by
      rw [hunits, List.append_assoc, List.singleton_append]
    obtain ⟨first, tail, hfirst, hcount⟩ := utf8Units_count hv.1
    have hhead : (pending ++ [octet]).headD 0 = first := by
      cases pending with
      | nil => exact (List.cons.inj (hsplit.symm.trans hfirst)).1
      | cons c pending => exact (List.cons.inj (hsplit.symm.trans hfirst)).1
    simp only [List.cons_append, decodeFrom, if_true, hoctet, hhead, hcount]
    cases octets with
    | nil =>
      rw [List.append_nil] at hsplit
      rw [hsplit, if_neg (Nat.lt_irrefl _), if_pos rfl, ← hsplit, codePointOf_utf8Units hv, hothers]
      rfl
    | cons next octets =>
      have hlt : (pending ++ [octet]).length < (utf8Units v).length := by
        rw [hsplit]
        simp only [List.length_append, List.length_cons, List.length_nil]
        omega
      rw [if_pos hlt]
      exact ih hsplit (List.cons_ne_nil _ _) hothers

theorem decodeFrom_unit {c : ℕ} (hc : c ≠ percent) (rest : JsString) :
    decodeFrom [] (c :: rest) = (decodeFrom [] rest).map (c :: ·) := by
  conv_lhs => unfold decodeFrom
  rw [if_neg hc, if_pos rfl]

/-- What can be decoded: the `URIError` is for all other text. -/
theorem decodeURIComponent_isSome_iff (text : JsString) :
    (decodeURIComponent text).isSome ↔ PercentEncoded text := by
  constructor
  · intro h
    obtain ⟨decoded, hdecoded⟩ := Option.isSome_iff_exists.mp h
    exact (completes_of_decodeFrom hdecoded).1 rfl
  · intro h
    induction h with
    | nil => rfl
    | @unit c rest hc hrest ih =>
      rw [decodeURIComponent, decodeFrom_unit hc, Option.isSome_map]
      exact ih
    | @scalar v escapes rest hv hescapes hrest ih =>
      obtain ⟨first, tail, hunits, -⟩ := utf8Units_count hv.1
      have hne : utf8Units v ≠ [] := by
        rw [hunits]
        exact List.cons_ne_nil _ _
      rw [decodeURIComponent, decodeFrom_escapes hv rest (List.nil_append _).symm hne hescapes,
        Option.isSome_map]
      exact ih

example : decodeURIComponent (js "caf%C3%a9") = some (js "caf" ++ [233]) := by decide +kernel

example : decodeURIComponent (js "%C0%80") = none := by decide +kernel

/-! ## encodeURIComponent -/

/-- Letters, digits and the marks that stand for themselves. -/
def isUnescaped (c : ℕ) : Bool :=
  (65 ≤ c && c ≤ 90) || (97 ≤ c && c ≤ 122) || (48 ≤ c && c ≤ 57) || c ∈ js "-_.!~*'()"

def hexUpper (n : ℕ) : ℕ := if n < 10 then 48 + n else 55 + n

def escapeOctet (octet : ℕ) : JsString := [percent, hexUpper (octet / 16), hexUpper (octet % 16)]

def encodeCodePoint (v : ℕ) : JsString :=
  if isUnescaped v then [v] else (utf8Units v).flatMap escapeOctet

/-- `none` is the `URIError`, for a lone surrogate. -/
def encodeURIComponent (text : JsString) : Option JsString :=
  if (codePoints text).any isSurrogate then none
  else some ((codePoints text).flatMap encodeCodePoint)

theorem hexDigitValue_hexUpper {n : ℕ} (h : n < 16) : hexDigitValue (hexUpper n) = some n := by
  unfold hexUpper hexDigitValue
  split_ifs <;> first | omega | exact congrArg some (by omega)

theorem hexOctet_hexUpper {octet : ℕ} (h : octet < 256) :
    hexOctet (hexUpper (octet / 16)) (hexUpper (octet % 16)) = some octet := by
  unfold hexOctet
  rw [hexDigitValue_hexUpper (by omega), hexDigitValue_hexUpper (by omega)]
  exact congrArg some (by omega)

theorem escapes_flatMap {octets : List ℕ} (h : ∀ octet ∈ octets, octet < 256) :
    Escapes octets (octets.flatMap escapeOctet) := by
  induction octets with
  | nil => rfl
  | cons octet octets ih =>
    exact ⟨_, _, _, rfl, hexOctet_hexUpper (h octet List.mem_cons_self),
      ih fun o ho => h o (List.mem_cons_of_mem _ ho)⟩

theorem utf8Units_lt {v octet : ℕ} (hv : v < 0x110000) (h : octet ∈ utf8Units v) : octet < 256 := by
  unfold utf8Units at h
  split_ifs at h <;> simp only [List.mem_cons, List.not_mem_nil, or_false] at h <;> omega

/-- A unit that stands for itself is a code point of its own. -/
theorem isUnescaped_lt {c : ℕ} (h : isUnescaped c = true) : c < 0x80 ∧ c ≠ percent := by
  have hmarks : ∀ m ∈ js "-_.!~*'()", m < 0x80 ∧ m ≠ percent := by decide
  simp only [isUnescaped, Bool.or_eq_true, Bool.and_eq_true, decide_eq_true_eq] at h
  rcases h with ((h | h) | h) | h
  · exact ⟨by omega, fun hc => by rw [hc, percent] at h; omega⟩
  · exact ⟨by omega, fun hc => by rw [hc, percent] at h; omega⟩
  · exact ⟨by omega, fun hc => by rw [hc, percent] at h; omega⟩
  · exact hmarks c h

theorem decodeFrom_encodeCodePoint {v : ℕ} (hv : IsScalar v) (rest : JsString) :
    decodeFrom [] (encodeCodePoint v ++ rest) = (decodeFrom [] rest).map (utf16Units v ++ ·) := by
  unfold encodeCodePoint
  split_ifs with hunescaped
  · obtain ⟨hsmall, hpercent⟩ := isUnescaped_lt hunescaped
    have hunits : utf16Units v = [v] := if_pos (by omega)
    rw [hunits]
    exact decodeFrom_unit hpercent rest
  · obtain ⟨first, others, hunits, -⟩ := utf8Units_count hv.1
    have hne : utf8Units v ≠ [] := by
      rw [hunits]
      exact List.cons_ne_nil _ _
    exact decodeFrom_escapes hv rest (List.nil_append _).symm hne
      (escapes_flatMap fun octet ho => utf8Units_lt hv.1 ho)

theorem surrogatePair_lt {high low : ℕ} (hhigh : isHighSurrogate high = true)
    (hlow : isLowSurrogate low = true) :
    0x10000 ≤ surrogatePair high low ∧ surrogatePair high low < 0x110000 := by
  obtain ⟨hh, hh'⟩ := Bool.and_eq_true_iff.mp hhigh
  obtain ⟨hl, hl'⟩ := Bool.and_eq_true_iff.mp hlow
  have hh' := of_decide_eq_true hh'
  have hl' := of_decide_eq_true hl'
  unfold surrogatePair
  omega

theorem utf16Units_surrogatePair {high low : ℕ} (hhigh : isHighSurrogate high = true)
    (hlow : isLowSurrogate low = true) : utf16Units (surrogatePair high low) = [high, low] := by
  obtain ⟨hh, hh'⟩ := Bool.and_eq_true_iff.mp hhigh
  obtain ⟨hl, hl'⟩ := Bool.and_eq_true_iff.mp hlow
  have hh := of_decide_eq_true hh
  have hl := of_decide_eq_true hl
  have hl' := of_decide_eq_true hl'
  have hfirst : 0xD800 + (surrogatePair high low - 0x10000) / 0x400 = high := by
    unfold surrogatePair
    omega
  have hsecond : 0xDC00 + (surrogatePair high low - 0x10000) % 0x400 = low := by
    unfold surrogatePair
    omega
  rw [utf16Units, if_neg (not_lt.mpr (surrogatePair_lt hhigh hlow).1), hfirst, hsecond]

/-- A string is what its code points are in UTF-16. -/
theorem flatMap_codePoints {text : JsString} (h : ∀ c ∈ text, c < 0x10000) :
    (codePoints text).flatMap utf16Units = text ∧ ∀ v ∈ codePoints text, v < 0x110000 := by
  induction text using codePoints.induct with
  | case1 high low rest hpair ih =>
    obtain ⟨hhigh, hlow⟩ := Bool.and_eq_true_iff.mp hpair
    obtain ⟨hrest, hpoints⟩ := ih fun c hc => h c (by simp [hc])
    rw [codePoints, if_pos hpair, List.flatMap_cons, hrest, utf16Units_surrogatePair hhigh hlow]
    refine ⟨rfl, fun v hv => ?_⟩
    rcases List.mem_cons.mp hv with hv | hv
    · rw [hv]
      exact (surrogatePair_lt hhigh hlow).2
    · exact hpoints v hv
  | case2 high low rest hpair ih =>
    obtain ⟨hrest, hpoints⟩ := ih fun c hc => h c (List.mem_cons_of_mem _ hc)
    have hhigh := h high List.mem_cons_self
    rw [codePoints, if_neg hpair, List.flatMap_cons, hrest, utf16Units, if_pos hhigh]
    refine ⟨rfl, fun v hv => ?_⟩
    rcases List.mem_cons.mp hv with rfl | hv
    · omega
    · exact hpoints v hv
  | case3 short hshort =>
    rcases short with _ | ⟨c, _ | ⟨b, rest⟩⟩
    · exact ⟨rfl, fun v hv => absurd hv List.not_mem_nil⟩
    · have hc := h c List.mem_cons_self
      refine ⟨by simp [codePoints, utf16Units, hc], fun v hv => ?_⟩
      rw [List.mem_singleton.mp hv]
      omega
    · exact absurd rfl (hshort c b rest)

/-- **What has been encoded can be decoded.** -/
theorem decodeURIComponent_encodeURIComponent {text encoded : JsString} (hunits : ∀ c ∈ text, c < 0x10000)
    (h : encodeURIComponent text = some encoded) : decodeURIComponent encoded = some text := by
  obtain ⟨htext, hpoints⟩ := flatMap_codePoints hunits
  unfold encodeURIComponent at h
  split_ifs at h with hsurrogates
  obtain rfl := Option.some.inj h
  rw [List.any_eq_true, not_exists] at hsurrogates
  have hscalars : ∀ v ∈ codePoints text, IsScalar v := fun v hv =>
    ⟨hpoints v hv, Bool.eq_false_iff.mpr fun hs => hsurrogates v ⟨hv, hs⟩⟩
  have hdecoded : ∀ points : List ℕ, (∀ v ∈ points, IsScalar v) →
      decodeFrom [] (points.flatMap encodeCodePoint) = some (points.flatMap utf16Units) := by
    intro points
    induction points with
    | nil => exact fun _ => rfl
    | cons v points ih =>
      intro hscalars
      rw [List.flatMap_cons, List.flatMap_cons,
        decodeFrom_encodeCodePoint (hscalars v List.mem_cons_self),
        ih fun u hu => hscalars u (List.mem_cons_of_mem _ hu)]
      rfl
  rw [decodeURIComponent, hdecoded _ hscalars, htext]

/-- The encoded text has only unescaped units, percent signs and hexadecimal digits. -/
theorem encodeURIComponent_plain {text encoded : JsString} (hunits : ∀ c ∈ text, c < 0x10000)
    (h : encodeURIComponent text = some encoded) {c : ℕ} (hc : c ∈ encoded) :
    isUnescaped c = true ∨ c = percent := by
  have hhex : ∀ n < 16, isUnescaped (hexUpper n) = true := by decide
  obtain ⟨-, hpoints⟩ := flatMap_codePoints hunits
  unfold encodeURIComponent at h
  split_ifs at h
  obtain rfl := Option.some.inj h
  obtain ⟨v, hv, hc⟩ := List.mem_flatMap.mp hc
  unfold encodeCodePoint at hc
  split_ifs at hc with hunescaped
  · rw [List.mem_singleton.mp hc]
    exact .inl hunescaped
  · obtain ⟨octet, ho, hc⟩ := List.mem_flatMap.mp hc
    have hlt := utf8Units_lt (hpoints v hv) ho
    simp only [escapeOctet, List.mem_cons, List.not_mem_nil, or_false] at hc
    rcases hc with rfl | rfl | rfl
    · exact .inr rfl
    · exact .inl (hhex _ (by omega))
    · exact .inl (hhex _ (by omega))

/-! ## URLSearchParams -/

/-- A code point of which octets are missing, and the bounds of the next one. -/
structure Utf8Pending where
  value : ℕ
  needed : ℕ
  lower : ℕ
  upper : ℕ

/-- The first octet of several. -/
def utf8Lead (b : ℕ) : Option Utf8Pending :=
  if 0xC2 ≤ b ∧ b ≤ 0xDF then some ⟨b - 0xC0, 1, 0x80, 0xBF⟩
  else if 0xE0 ≤ b ∧ b ≤ 0xEF then
    some ⟨b - 0xE0, 2, if b = 0xE0 then 0xA0 else 0x80, if b = 0xED then 0x9F else 0xBF⟩
  else if 0xF0 ≤ b ∧ b ≤ 0xF4 then
    some ⟨b - 0xF0, 3, if b = 0xF0 then 0x90 else 0x80, if b = 0xF4 then 0x8F else 0xBF⟩
  else none

def replacementCharacter : ℕ := 0xFFFD

def utf8Begin (b : ℕ) : List ℕ × Option Utf8Pending :=
  if b < 0x80 then ([b], none)
  else
    match utf8Lead b with
    | some pending => ([], some pending)
    | none => ([replacementCharacter], none)

/-- One octet: an octet that does not continue a code point is read again as the first of another. -/
def utf8Step (pending : Option Utf8Pending) (b : ℕ) : List ℕ × Option Utf8Pending :=
  match pending with
  | none => utf8Begin b
  | some p =>
    if p.lower ≤ b ∧ b ≤ p.upper then
      let value := p.value * 0x40 + (b - 0x80)
      if p.needed = 1 then ([value], none) else ([], some ⟨value, p.needed - 1, 0x80, 0xBF⟩)
    else
      let (points, next) := utf8Begin b
      (replacementCharacter :: points, next)

/-- UTF-8 decode without BOM: the code points, with U+FFFD for what is malformed. -/
def utf8Decode : Option Utf8Pending → List ℕ → List ℕ
  | none, [] => []
  | some _, [] => [replacementCharacter]
  | pending, b :: rest =>
    let (points, next) := utf8Step pending b
    points ++ utf8Decode next rest

/-- A percent sign without two hexadecimal digits stands for itself. -/
def percentDecode : List ℕ → List ℕ
  | c :: a :: b :: rest =>
    match if c = percent then hexOctet a b else none with
    | some octet => octet :: percentDecode rest
    | none => c :: percentDecode (a :: b :: rest)
  | short => short

/-- The octets of a string whose lone surrogates are replaced. -/
def utf8Encode (text : JsString) : List ℕ :=
  (codePoints text).flatMap fun c => utf8Units (if isSurrogate c then replacementCharacter else c)

/-- A name or a value. -/
def formDecode (octets : List ℕ) : JsString :=
  (utf8Decode none (percentDecode (octets.map fun c => if c = 43 then 32 else c))).flatMap utf16Units

/-- The application/x-www-form-urlencoded parser. -/
def parseForm (query : JsString) : List (JsString × JsString) :=
  ((utf8Encode query).splitOn 38).filterMap fun octets =>
    if octets = [] then none
    else some (formDecode (octets.takeWhile (· ≠ 61)), formDecode ((octets.dropWhile (· ≠ 61)).drop 1))

/-- `new URLSearchParams(query).get(name)`. A leading question mark is dropped. -/
def searchParam (query name : JsString) : Option JsString :=
  ((parseForm (if query.head? = some 63 then query.tail else query)).find? (·.1 = name)).map (·.2)

example : searchParam (js "?a=%&t%6Fken=x+%FF&token=y") (js "token") = some [120, 32, 0xFFFD] := by
  decide +kernel

end CodeShare
