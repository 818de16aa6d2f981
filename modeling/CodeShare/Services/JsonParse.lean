import CodeShare.Harness.LiteralCompatibility
import CodeShare.Services.Parsers

/-! # `JSON.parse`

The parser of the language on code units. A number's grammar is the one that the `json` module reads; what its text
denotes, and what the engine says of a text that is no JSON, come from the engine.
-/

namespace CodeShare
open Harness
set_option autoImplicit false

/-- A zero loses its sign when it is written. -/
def JsNumber.unsignedZero (x : JsNumber) : JsNumber := { x with negative := x.negative && decide (x.significand ≠ 0) }

/-- The doubles of the engine, its `Number` on decimal texts, and its words for a syntax error and for a value used as
what it is not. A double is read back from the text that `Number::toString` writes for it. -/
structure JsEngine where
  IsDouble : JsNumber → Prop
  number : JsString → ParsedJson
  complaint : JsString → JsString
  typeError : JsString
  number_toUnits : ∀ x, IsDouble x → number x.toUnits = .finite x.unsignedZero

def isJsonBlank (c : ℕ) : Bool := c = 32 || c = 9 || c = 10 || c = 13

def skipBlanks (text : JsString) : JsString := text.dropWhile isJsonBlank

def jsonWord (word : JsString) : Option ParsedJson :=
  if word = js "null" then some .null
  else if word = js "true" then some (.bool true)
  else if word = js "false" then some (.bool false)
  else none

section
variable (E : JsEngine)

def parseNumber (text : JsString) : Option (ParsedJson × JsString) :=
  (jsonNumber (fun _ => ()) text).map fun (_, rest) => (E.number (text.take (text.length - rest.length)), rest)

/-- The rest of a string; a `\uXXXX` is one unit. -/
def parseString (text : JsString) : Option (JsString × JsString) :=
  (jsonUnits text).map fun (units, rest) => (units.map Prod.fst, rest)

def parseScalar (text : JsString) : Option (ParsedJson × JsString) :=
  match text with
  | [] => none
  | c :: rest =>
    if c = 34 then (parseString rest).map fun (s, rest) => (.str s, rest)
    else if isNameUnit c then
      (jsonWord (text.takeWhile isNameUnit)).map fun v => (v, text.dropWhile isNameUnit)
    else parseNumber E text

/-- `item, ..., item]`; the fuel bounds the number of items. -/
def parseItems (value : JsString → Option (ParsedJson × JsString)) : ℕ → JsString → Option (List ParsedJson × JsString)
  | 0, _ => none
  | fuel + 1, text => do
    let (v, text) ← value (skipBlanks text)
    match skipBlanks text with
    | 44 :: rest => do
      let (items, rest) ← parseItems value fuel rest
      some (v :: items, rest)
    | 93 :: rest => some ([v], rest)
    | _ => none

/-- `"key": item, ..., "key": item}`. -/
def parseMembers (value : JsString → Option (ParsedJson × JsString)) :
    ℕ → JsString → Option (List (JsString × ParsedJson) × JsString)
  | 0, _ => none
  | fuel + 1, text =>
    match skipBlanks text with
    | 34 :: rest => do
      let (key, rest) ← parseString rest
      match skipBlanks rest with
      | 58 :: rest => do
        let (v, rest) ← value (skipBlanks rest)
        match skipBlanks rest with
        | 44 :: rest => do
          let (members, rest) ← parseMembers value fuel rest
          some ((key, v) :: members, rest)
        | 125 :: rest => some ([(key, v)], rest)
        | _ => none
      | _ => none
    | _ => none

/-- A value; the first number bounds the levels of brackets. -/
def parseValue : ℕ → JsString → Option (ParsedJson × JsString)
  | 0, _ => none
  | levels + 1, text =>
    match text with
    | 91 :: rest =>
      match skipBlanks rest with
      | 93 :: rest => some (.arr [], rest)
      | rest => (parseItems (parseValue levels) rest.length rest).map fun (items, rest) => (.arr items, rest)
    | 123 :: rest =>
      match skipBlanks rest with
      | 125 :: rest => some (.obj [], rest)
      | rest =>
        (parseMembers (parseValue levels) rest.length rest).map fun (members, rest) => (.obj (fromEntries members), rest)
    | _ => parseScalar E text

/-- `JSON.parse`; every level of brackets takes a unit of the text. -/
def jsonParse (text : JsString) : Except JsString ParsedJson :=
  match parseValue E text.length (skipBlanks text) with
  | some (v, rest) => if skipBlanks rest = [] then .ok v else .error (E.complaint text)
  | none => .error (E.complaint text)

/-! ## Reading a written value -/

/-- A value written and read. -/
def rereadJson : Json → ParsedJson
  | .null => .null
  | .bool b => .bool b
  | .num x => E.number x.toUnits
  | .str text => .str text
  | .arr items => .arr (rereadItems items)
  | .obj members => .obj (fromEntries (rereadMembers members))
where
  rereadItems : List Json → List ParsedJson
    | [] => []
    | v :: rest => rereadJson v :: rereadItems rest
  rereadMembers : List (JsString × Json) → List (JsString × ParsedJson)
    | [] => []
    | (k, v) :: rest => (k, rereadJson v) :: rereadMembers rest

end

variable {E : JsEngine}

theorem rereadItems_eq_map (items : List Json) : rereadJson.rereadItems E items = items.map (rereadJson E) := by
  induction items with
  | nil => rfl
  | cons v items ih => rw [rereadJson.rereadItems, ih, List.map_cons]

theorem rereadMembers_eq_map (members : List (JsString × Json)) :
    rereadJson.rereadMembers E members = members.map fun m => (m.1, rereadJson E m.2) := by
  induction members with
  | nil => rfl
  | cons m members ih => rw [rereadJson.rereadMembers, ih, List.map_cons]

/-! ### Strings -/

/-- One code point, whatever follows it. -/
theorem jsonUnits_written {c : ℕ} {w text rest : JsString} {units : List (ℕ × Bool)} (hwritten : Written c w)
    (hread : jsonUnits text = some (units, rest)) :
    ∃ flag, jsonUnits (w ++ text) = some ((c, flag) :: units, rest) := by
  cases hwritten with
  | plain hlow hquote hback =>
    refine ⟨false, ?_⟩
    rw [List.singleton_append, jsonUnits]
    · simp [hread, hback, hlow]
    · exact fun h => hquote h
    · exact fun _ _ _ _ _ h => absurd h hback
    · exact fun _ _ h => absurd h hback
  | short letter hu hpython hjson =>
    refine ⟨false, ?_⟩
    rw [List.cons_append, List.singleton_append, jsonUnits]
    · simp [hjson, hread]
    · exact fun _ _ _ _ _ h => absurd h hu
  | unicode hrange =>
    refine ⟨true, ?_⟩
    simp only [unicodeEscape, List.cons_append, List.nil_append]
    rw [jsonUnits, hexQuad_unicodeEscape hrange]
    simp [hread]

/-- A surrogate stands for itself. -/
theorem written_surrogate {c : ℕ} (hc : 0xD800 ≤ c) : Written c [c] :=
  .plain (by omega) (by omega) (by omega)

theorem jsonUnits_escapeUnits (s rest : JsString) :
    ∃ units, jsonUnits (escapeUnits s ++ 34 :: rest) = some (units, rest) ∧ units.map Prod.fst = s := by
  induction s using escapeUnits.induct with
  | case1 high low tail hpair ih =>
    obtain ⟨units, hread, hfst⟩ := ih
    rw [escapeUnits, if_pos hpair, List.cons_append, List.cons_append]
    simp only [isHighSurrogate, isLowSurrogate, Bool.and_eq_true, decide_eq_true_eq] at hpair
    obtain ⟨flag, hlow⟩ := jsonUnits_written (written_surrogate (c := low) (by omega)) hread
    obtain ⟨flag', hhigh⟩ := jsonUnits_written (written_surrogate (c := high) (by omega)) hlow
    refine ⟨_, hhigh, ?_⟩
    rw [List.map_cons, List.map_cons, hfst]
  | case2 high low tail hpair ih =>
    obtain ⟨units, hread, hfst⟩ := ih
    obtain ⟨flag, hhigh⟩ := jsonUnits_written (written_escapeCodePoint high) hread
    rw [escapeUnits, if_neg hpair, List.append_assoc]
    refine ⟨_, hhigh, ?_⟩
    rw [List.map_cons, hfst]
  | case3 c =>
    have hend : jsonUnits (34 :: rest) = some ([], rest) := by simp [jsonUnits]
    obtain ⟨flag, hc⟩ := jsonUnits_written (written_escapeCodePoint c) hend
    rw [escapeUnits]
    exact ⟨_, hc, rfl⟩
  | case4 => exact ⟨[], by simp [escapeUnits, jsonUnits], rfl⟩

theorem parseString_escapeUnits (s rest : JsString) : parseString (escapeUnits s ++ 34 :: rest) = some (s, rest) := by
  obtain ⟨units, hread, hfst⟩ := jsonUnits_escapeUnits s rest
  rw [parseString, hread]
  show some (units.map Prod.fst, rest) = _
  rw [hfst]

/-! ### Scalars -/

theorem parseNumber_toUnits (x : JsNumber) {rest : JsString} (hrest : Closed rest) :
    parseNumber E (x.toUnits ++ rest) = some (E.number x.toUnits, rest) := by
  have htake : (x.toUnits ++ rest).take ((x.toUnits ++ rest).length - rest.length) = x.toUnits := by
    rw [List.length_append, Nat.add_sub_cancel, List.take_left]
  rw [parseNumber, jsonNumber_number _ x hrest]
  show some (E.number ((x.toUnits ++ rest).take ((x.toUnits ++ rest).length - rest.length)), rest) = _
  rw [htake]

/-- How a value's text starts. -/
theorem stringify_head (v : Json) :
    ∃ c r, v.stringify = c :: r ∧ isJsonBlank c = false ∧ isRegexSpace c = false ∧ c ≠ 93 ∧ c ≠ 125 := by
  match v with
  | .null => exact ⟨_, _, rfl, by decide⟩
  | .bool true => exact ⟨_, _, rfl, by decide⟩
  | .bool false => exact ⟨_, _, rfl, by decide⟩
  | .str _ => exact ⟨_, _, rfl, by decide⟩
  | .arr _ => exact ⟨_, _, rfl, by decide⟩
  | .obj _ => exact ⟨_, _, rfl, by decide⟩
  | .num x =>
    obtain ⟨c, r, htext, hc⟩ := toUnits_head x
    have hrange := number_head_range hc
    refine ⟨c, r, htext, ?_, ?_, by omega, by omega⟩
    · simp [isJsonBlank]
      omega
    · simp [isRegexSpace]
      omega

theorem skipBlanks_cons {c : ℕ} (hc : isJsonBlank c = false) (rest : JsString) : skipBlanks (c :: rest) = c :: rest :=
  List.dropWhile_cons_of_neg (by rw [hc]; exact Bool.false_ne_true)

theorem skipBlanks_stringify (v : Json) (rest : JsString) :
    skipBlanks (v.stringify ++ rest) = v.stringify ++ rest := by
  obtain ⟨c, r, htext, hc, -⟩ := stringify_head v
  rw [htext, List.cons_append, skipBlanks_cons hc]

/-- A reader of values undoes the writing of one. -/
def ReadsJson (E : JsEngine) (value : JsString → Option (ParsedJson × JsString)) (v : Json) : Prop :=
  ∀ rest, Closed rest → value (v.stringify ++ rest) = some (rereadJson E v, rest)

theorem parseScalar_word (word : JsString) {v : ParsedJson} (hword : ∀ c ∈ word, isNameUnit c = true) (hne : word ≠ [])
    (hv : jsonWord word = some v) {rest : JsString} (hrest : Closed rest) :
    parseScalar E (word ++ rest) = some (v, rest) := by
  have htake := takeWhile_front hword hrest.not_name
  have hdrop := dropWhile_front hword hrest.not_name
  obtain ⟨c, w, rfl⟩ := List.exists_cons_of_ne_nil hne
  have hc := hword c (by simp)
  have hquote : c ≠ 34 := by
    rintro rfl
    cases hc
  rw [List.cons_append] at htake hdrop ⊢
  simp only [parseScalar, if_neg hquote, if_pos hc, htake, hdrop, hv, Option.map_some]

/-- Values without brackets. -/
theorem readsJson_scalar {v : Json} (hv : (∀ items, v ≠ .arr items) ∧ ∀ members, v ≠ .obj members) :
    ReadsJson E (parseScalar E) v := by
  intro rest hrest
  match v, hv with
  | .null, _ => exact parseScalar_word (js "null") (by decide) (by decide) rfl hrest
  | .bool true, _ => exact parseScalar_word (js "true") (by decide) (by decide) rfl hrest
  | .bool false, _ => exact parseScalar_word (js "false") (by decide) (by decide) rfl hrest
  | .num x, _ =>
    obtain ⟨c, r, htext, hc⟩ := toUnits_head x
    have hrange := number_head_range hc
    have hread := parseNumber_toUnits (E := E) x hrest
    have hname : ¬ isNameUnit c = true := by
      simp only [isNameUnit, Bool.or_eq_true, Bool.and_eq_true, decide_eq_true_eq]
      omega
    show parseScalar E (x.toUnits ++ rest) = some (E.number x.toUnits, rest)
    rw [htext, List.cons_append] at hread ⊢
    simp only [parseScalar, if_neg (show c ≠ 34 by omega), if_neg hname, hread]
  | .str s, _ =>
    have htext : (Json.str s).stringify ++ rest = 34 :: (escapeUnits s ++ 34 :: rest) := by
      simp [Json.stringify, Json.layout, quoteUnits]
    rw [htext, parseScalar, if_pos rfl, parseString_escapeUnits]
    rfl
  | .arr items, hv => exact absurd rfl (hv.1 items)
  | .obj members, hv => exact absurd rfl (hv.2 members)

/-! ### Brackets -/

theorem parseItems_layout {value : JsString → Option (ParsedJson × JsString)} {items : List Json}
    (hread : ∀ v ∈ items, ReadsJson E value v) (hne : items ≠ []) (fuel : ℕ) (hfuel : items.length ≤ fuel)
    (rest : JsString) :
    parseItems value fuel (Json.layout.layoutItems quoteUnits items ++ rest) =
      some (items.map (rereadJson E), rest) := by
  induction items generalizing fuel with
  | nil => exact absurd rfl hne
  | cons v items ih =>
    obtain ⟨fuel, rfl⟩ : ∃ f, fuel = f + 1 := ⟨fuel - 1, by simp at hfuel; omega⟩
    rw [List.forall_mem_cons] at hread
    cases items with
    | nil =>
      have hclosed : Closed (93 :: rest) := Or.inr ⟨93, rest, rfl, by simp⟩
      have htext : Json.layout.layoutItems quoteUnits [v] ++ rest = v.stringify ++ 93 :: rest := by
        simp [Json.layout.layoutItems, Json.stringify]
      have hstop : skipBlanks (93 :: rest) = 93 :: rest := skipBlanks_cons (by decide) rest
      simp only [htext, parseItems, skipBlanks_stringify, hread.1 _ hclosed, Option.bind_eq_bind, Option.bind_some,
        hstop, List.map_cons, List.map_nil]
    | cons w items =>
      have htext : Json.layout.layoutItems quoteUnits (v :: w :: items) ++ rest =
          v.stringify ++ 44 :: (Json.layout.layoutItems quoteUnits (w :: items) ++ rest) := by
        simp [Json.layoutItems_cons_cons, Json.stringify]
      have hclosed : ∀ r, Closed (44 :: r) := fun r => Or.inr ⟨44, r, rfl, by simp⟩
      have hstop : ∀ r, skipBlanks (44 :: r) = 44 :: r := skipBlanks_cons (by decide)
      have ih := ih hread.2 (List.cons_ne_nil _ _) fuel (by simp at hfuel ⊢; omega)
      simp only [htext, parseItems, skipBlanks_stringify, hread.1 _ (hclosed _), Option.bind_eq_bind,
        Option.bind_some, hstop, ih, List.map_cons]

theorem parseMembers_layout {value : JsString → Option (ParsedJson × JsString)} {members : List (JsString × Json)}
    (hread : ∀ m ∈ members, ReadsJson E value m.2) (hne : members ≠ []) (fuel : ℕ) (hfuel : members.length ≤ fuel)
    (rest : JsString) :
    parseMembers value fuel (Json.layout.layoutMembers quoteUnits members ++ rest) =
      some (members.map fun m => (m.1, rereadJson E m.2), rest) := by
  have hquote : ∀ r, skipBlanks (34 :: r) = 34 :: r := skipBlanks_cons (by decide)
  have hcolon : ∀ r, skipBlanks (58 :: r) = 58 :: r := skipBlanks_cons (by decide)
  induction members generalizing fuel with
  | nil => exact absurd rfl hne
  | cons m members ih =>
    obtain ⟨fuel, rfl⟩ : ∃ f, fuel = f + 1 := ⟨fuel - 1, by simp at hfuel; omega⟩
    obtain ⟨k, v⟩ := m
    rw [List.forall_mem_cons] at hread
    cases members with
    | nil =>
      have hclosed : Closed (125 :: rest) := Or.inr ⟨125, rest, rfl, by simp⟩
      have htext : Json.layout.layoutMembers quoteUnits [(k, v)] ++ rest =
          34 :: (escapeUnits k ++ 34 :: (58 :: (v.stringify ++ 125 :: rest))) := by
        simp [Json.layout.layoutMembers, Json.stringify, quoteUnits]
      have hstop : skipBlanks (125 :: rest) = 125 :: rest := skipBlanks_cons (by decide) rest
      simp only [htext, parseMembers, hquote, parseString_escapeUnits, Option.bind_eq_bind, Option.bind_some, hcolon,
        skipBlanks_stringify, hread.1 _ hclosed, hstop, List.map_cons, List.map_nil]
    | cons m members =>
      have htext : Json.layout.layoutMembers quoteUnits ((k, v) :: m :: members) ++ rest =
          34 :: (escapeUnits k ++ 34 :: (58 :: (v.stringify ++
            44 :: (Json.layout.layoutMembers quoteUnits (m :: members) ++ rest)))) := by
        simp [Json.layoutMembers_cons_cons, Json.stringify, quoteUnits]
      have hclosed : ∀ r, Closed (44 :: r) := fun r => Or.inr ⟨44, r, rfl, by simp⟩
      have hstop : ∀ r, skipBlanks (44 :: r) = 44 :: r := skipBlanks_cons (by decide)
      have ih := ih hread.2 (List.cons_ne_nil _ _) fuel (by simp at hfuel ⊢; omega)
      simp only [htext, parseMembers, hquote, parseString_escapeUnits, Option.bind_eq_bind, Option.bind_some, hcolon,
        skipBlanks_stringify, hread.1 _ (hclosed _), hstop, ih, List.map_cons]

/-- A value's text is longer than the texts inside. -/
theorem length_item_lt {v : Json} {items : List Json} (hv : v ∈ items) :
    v.stringify.length < (Json.layout.layoutItems quoteUnits items).length := by
  induction items with
  | nil => cases hv
  | cons w items ih =>
    cases items with
    | nil =>
      obtain rfl := List.mem_singleton.mp hv
      simp [Json.layout.layoutItems, Json.stringify]
    | cons u items =>
      rw [Json.layoutItems_cons_cons, List.length_append, List.length_cons]
      rcases List.mem_cons.mp hv with rfl | hv
      · simp only [Json.stringify]
        omega
      · have := ih hv
        omega

theorem length_member_lt {m : JsString × Json} {members : List (JsString × Json)} (hm : m ∈ members) :
    m.2.stringify.length < (Json.layout.layoutMembers quoteUnits members).length := by
  induction members with
  | nil => cases hm
  | cons n members ih =>
    obtain ⟨k, w⟩ := n
    cases members with
    | nil =>
      obtain rfl := List.mem_singleton.mp hm
      simp only [Json.layout.layoutMembers, Json.stringify, List.length_append, List.length_cons]
      omega
    | cons u members =>
      rw [Json.layoutMembers_cons_cons]
      simp only [List.length_append, List.length_cons]
      rcases List.mem_cons.mp hm with rfl | hm
      · simp only [Json.stringify]
        omega
      · have := ih hm
        omega

/-- A text that opens no bracket. -/
theorem parseValue_scalar {levels c : ℕ} {r : JsString} (harr : c ≠ 91) (hobj : c ≠ 123) :
    parseValue E (levels + 1) (c :: r) = parseScalar E (c :: r) := by
  rw [parseValue]
  · exact fun _ h => harr (List.cons.inj h).1
  · exact fun _ h => hobj (List.cons.inj h).1

theorem readsJson_parseValue_scalar (levels : ℕ) {v : Json}
    (hv : (∀ items, v ≠ .arr items) ∧ ∀ members, v ≠ .obj members) : ReadsJson E (parseValue E (levels + 1)) v := by
  intro rest hrest
  have hread := readsJson_scalar (E := E) hv rest hrest
  have hhead : ∃ c r, v.stringify = c :: r ∧ c ≠ 91 ∧ c ≠ 123 := by
    match v, hv with
    | .null, _ => exact ⟨_, _, rfl, by decide⟩
    | .bool true, _ => exact ⟨_, _, rfl, by decide⟩
    | .bool false, _ => exact ⟨_, _, rfl, by decide⟩
    | .str _, _ => exact ⟨_, _, rfl, by decide⟩
    | .num x, _ =>
      obtain ⟨c, r, htext, hc⟩ := toUnits_head x
      have hrange := number_head_range hc
      exact ⟨c, r, htext, by omega, by omega⟩
    | .arr items, hv => exact absurd rfl (hv.1 items)
    | .obj members, hv => exact absurd rfl (hv.2 members)
  obtain ⟨c, r, htext, harr, hobj⟩ := hhead
  rw [htext, List.cons_append] at hread ⊢
  rw [parseValue_scalar harr hobj, hread]

theorem layoutItems_text {items : List Json} (hne : items ≠ []) (rest : JsString) :
    ∃ c r, Json.layout.layoutItems quoteUnits items ++ rest = c :: r ∧ isJsonBlank c = false ∧ c ≠ 93 := by
  match items, hne with
  | [v], _ =>
    obtain ⟨c, r, htext, hblank, -, hclose, -⟩ := stringify_head v
    refine ⟨c, r ++ 93 :: rest, ?_, hblank, hclose⟩
    have hlayout : v.layout quoteUnits = c :: r := htext
    simp [Json.layout.layoutItems, hlayout]
  | v :: w :: items, _ =>
    obtain ⟨c, r, htext, hblank, -, hclose, -⟩ := stringify_head v
    refine ⟨c, r ++ 44 :: (Json.layout.layoutItems quoteUnits (w :: items) ++ rest), ?_, hblank, hclose⟩
    have hlayout : v.layout quoteUnits = c :: r := htext
    simp [Json.layoutItems_cons_cons, hlayout]

theorem layoutMembers_text {members : List (JsString × Json)} (hne : members ≠ []) (rest : JsString) :
    ∃ r, Json.layout.layoutMembers quoteUnits members ++ rest = 34 :: r := by
  match members, hne with
  | [(k, v)], _ => exact ⟨_, rfl⟩
  | (k, v) :: m :: members, _ => exact ⟨_, by rw [Json.layoutMembers_cons_cons]; rfl⟩

/-- The parser undoes `JSON.stringify`. -/
theorem readsJson_parseValue {levels : ℕ} {v : Json} (hlevels : v.stringify.length ≤ levels) :
    ReadsJson E (parseValue E levels) v := by
  induction levels generalizing v with
  | zero =>
    obtain ⟨c, r, htext, -⟩ := stringify_head v
    rw [htext] at hlevels
    exact absurd hlevels (Nat.not_succ_le_zero _)
  | succ levels ih =>
    intro rest hrest
    match v with
    | .arr [] => exact rfl
    | .arr (v :: items) =>
      have hne : v :: items ≠ [] := List.cons_ne_nil v items
      have hinner : ∀ w ∈ v :: items, ReadsJson E (parseValue E levels) w := by
        intro w hw
        apply ih
        have hlt := length_item_lt hw
        have htext : (Json.arr (v :: items)).stringify = 91 :: Json.layout.layoutItems quoteUnits (v :: items) := rfl
        rw [htext, List.length_cons] at hlevels
        omega
      have hlength : (v :: items).length ≤ (Json.layout.layoutItems quoteUnits (v :: items) ++ rest).length := by
        have hle := length_le_layoutItems quoteUnits (v :: items)
        rw [List.length_append]
        omega
      have hread := parseItems_layout hinner hne _ hlength rest
      obtain ⟨c, r, htext, hblank, hclose⟩ := layoutItems_text hne rest
      rw [rereadJson, rereadItems_eq_map]
      show parseValue E (levels + 1) (91 :: (Json.layout.layoutItems quoteUnits (v :: items) ++ rest)) = _
      rw [htext] at hread ⊢
      rw [parseValue]
      rw [skipBlanks_cons hblank]
      split
      · rename_i heq
        exact absurd (List.cons.inj heq).1 hclose
      · rw [hread]
        rfl
    | .obj [] => exact rfl
    | .obj (m :: members) =>
      have hne : m :: members ≠ [] := List.cons_ne_nil m members
      have hinner : ∀ n ∈ m :: members, ReadsJson E (parseValue E levels) n.2 := by
        intro n hn
        apply ih
        have hlt := length_member_lt hn
        have htext : (Json.obj (m :: members)).stringify = 123 :: Json.layout.layoutMembers quoteUnits (m :: members) :=
          rfl
        rw [htext, List.length_cons] at hlevels
        omega
      have hlength : (m :: members).length ≤ (Json.layout.layoutMembers quoteUnits (m :: members) ++ rest).length := by
        have hle := length_le_layoutMembers quoteUnits (m :: members)
        rw [List.length_append]
        omega
      have hread := parseMembers_layout hinner hne _ hlength rest
      obtain ⟨r, htext⟩ := layoutMembers_text hne rest
      rw [rereadJson, rereadMembers_eq_map]
      show parseValue E (levels + 1) (123 :: (Json.layout.layoutMembers quoteUnits (m :: members) ++ rest)) = _
      rw [htext] at hread ⊢
      rw [parseValue]
      simp only [skipBlanks_cons (show isJsonBlank 34 = false by decide), hread]
      rfl
    | .null | .bool _ | .num _ | .str _ => exact readsJson_parseValue_scalar levels (by simp) rest hrest

/-- `JSON.parse` of what `JSON.stringify` wrote. -/
theorem jsonParse_stringify (v : Json) : jsonParse E v.stringify = .ok (rereadJson E v) := by
  have hread := readsJson_parseValue (E := E) (le_refl v.stringify.length) [] (Or.inl rfl)
  have hskip := skipBlanks_stringify v []
  rw [List.append_nil] at hread hskip
  rw [jsonParse, hskip, hread]
  rfl

end CodeShare
