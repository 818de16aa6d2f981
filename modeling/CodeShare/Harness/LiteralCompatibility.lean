import CodeShare.Harness.StringReading
import CodeShare.Harness.NumberReading

/-! # JSON texts as Python literals

Both languages read displays, strings and numbers of a JSON text alike, and `Dialect.Lawful` collects
what that takes. They differ in the three JSON names: `null`, `true` and `false` are not defined in
the script. `literalCompatible_iff` says that nothing else goes wrong, apart from the interpreter's
own limit on nested brackets.
-/

namespace CodeShare.Harness
set_option autoImplicit false
set_option maxRecDepth 100000

/-! ## Values -/

/-- A dialect that reads the strings and numbers of JSON texts as what they stand for, and the three
JSON names either all or not at all. -/
structure Dialect.Lawful {Double : Type} (d : Dialect Double) (round : ℚ → Double)
    (knowsNames : Bool) : Prop where
  null : d.name (js "null") = if knowsNames then some .none else none
  true : d.name (js "true") = if knowsNames then some (.bool true) else none
  false : d.name (js "false") = if knowsNames then some (.bool false) else none
  string : ∀ (s : JsString) rest,
    d.string ((codePoints s).flatMap escapeCodePoint ++ 34 :: rest) = some (codePoints s, rest)
  number : ∀ (x : JsNumber) rest, Closed rest →
    d.number (x.toUnits ++ rest) = some (numberToPython round x, rest)

theorem python_lawful (I : Interpreter) : (python I).Lawful I.round false where
  null := by rfl
  true := by rfl
  false := by rfl
  string s rest := pythonString_flatMap (codePoints s) rest
  number x _ hrest := pythonSigned_number I.round x hrest

theorem json_lawful (I : Interpreter) : (json I).Lawful I.round true where
  null := by rfl
  true := by rfl
  false := by rfl
  string := jsonString_flatMap
  number x _ hrest := jsonNumber_number I.round x hrest

/-- No `null`, `true` or `false` at any depth. -/
def NameFree : Json → Prop
  | .null => False
  | .bool _ => False
  | .num _ => True
  | .str _ => True
  | .arr items => itemsNameFree items
  | .obj members => membersNameFree members
where
  itemsNameFree : List Json → Prop
    | [] => True
    | v :: rest => NameFree v ∧ itemsNameFree rest
  membersNameFree : List (JsString × Json) → Prop
    | [] => True
    | (_, v) :: rest => NameFree v ∧ membersNameFree rest

/-- Levels of brackets. -/
def nesting : Json → ℕ
  | .arr items => itemsNesting items + 1
  | .obj members => membersNesting members + 1
  | _ => 0
where
  itemsNesting : List Json → ℕ
    | [] => 0
    | v :: rest => max (nesting v) (itemsNesting rest)
  membersNesting : List (JsString × Json) → ℕ
    | [] => 0
    | (_, v) :: rest => max (nesting v) (membersNesting rest)

theorem itemsNameFree_iff (items : List Json) :
    NameFree.itemsNameFree items ↔ ∀ v ∈ items, NameFree v := by
  induction items with
  | nil => simp [NameFree.itemsNameFree]
  | cons v rest ih => simp [NameFree.itemsNameFree, ih]

theorem membersNameFree_iff (members : List (JsString × Json)) :
    NameFree.membersNameFree members ↔ ∀ m ∈ members, NameFree m.2 := by
  induction members with
  | nil => simp [NameFree.membersNameFree]
  | cons m rest ih =>
    obtain ⟨k, v⟩ := m
    simp [NameFree.membersNameFree, ih]

theorem itemsToPython_eq {Double : Type} (round : ℚ → Double) (items : List Json) :
    toPython.itemsToPython round items = items.map (toPython round) := by
  induction items with
  | nil => rfl
  | cons v rest ih => rw [toPython.itemsToPython, ih, List.map_cons]

theorem membersToPython_eq {Double : Type} (round : ℚ → Double) (members : List (JsString × Json)) :
    toPython.membersToPython round members =
      members.map fun m => (codePoints m.1, toPython round m.2) := by
  induction members with
  | nil => rfl
  | cons m rest ih => rw [toPython.membersToPython, ih, List.map_cons]

theorem itemsNesting_le (items : List Json) (n : ℕ) :
    nesting.itemsNesting items ≤ n ↔ ∀ v ∈ items, nesting v ≤ n := by
  induction items with
  | nil => simp [nesting.itemsNesting]
  | cons v rest ih => simp [nesting.itemsNesting, ih]

theorem membersNesting_le (members : List (JsString × Json)) (n : ℕ) :
    nesting.membersNesting members ≤ n ↔ ∀ m ∈ members, nesting m.2 ≤ n := by
  induction members with
  | nil => simp [nesting.membersNesting]
  | cons m rest ih =>
    obtain ⟨k, v⟩ := m
    simp [nesting.membersNesting, ih]

/-! ## Reading a laid-out value -/

section Values
variable {Double : Type} (d : Dialect Double) (round : ℚ → Double)

def memberValue (value : Json → Option (PyVal Double)) (m : JsString × Json) :
    Option (List ℕ × PyVal Double) :=
  (value m.2).map fun v => (codePoints m.1, v)

/-- What the reader makes of a value: a recursion on the levels of brackets. -/
def Dialect.value : ℕ → Json → Option (PyVal Double)
  | _, .null => d.name (js "null")
  | _, .bool true => d.name (js "true")
  | _, .bool false => d.name (js "false")
  | _, .num x => some (numberToPython round x)
  | _, .str text => some (.str (codePoints text))
  | 0, .arr _ => none
  | 0, .obj _ => none
  | n + 1, .arr items => (items.mapM (value n)).map .list
  | n + 1, .obj members => (members.mapM (memberValue (value n))).map dictOf

variable {d round} {knowsNames : Bool}

theorem Closed.not_name {rest : List ℕ} (h : Closed rest) : ∀ c ∈ rest.head?, isNameUnit c = false := by
  intro c hc
  rcases h.head hc with rfl | rfl | rfl <;> decide

theorem readScalar_name (word : List ℕ) {rest : List ℕ}
    (hword : ∀ c ∈ word, isNameUnit c = true) (hne : word ≠ []) (hrest : Closed rest) :
    readScalar d (word ++ rest) = (d.name word).map fun v => (v, rest) := by
  have htake := takeWhile_front hword hrest.not_name
  have hdrop := dropWhile_front hword hrest.not_name
  obtain ⟨c, w, rfl⟩ := List.exists_cons_of_ne_nil hne
  have hc := hword c (by simp)
  have hquote : c ≠ 34 := by
    rintro rfl
    cases hc
  rw [List.cons_append] at htake hdrop ⊢
  simp only [readScalar, if_neg hquote, if_pos hc, htake, hdrop]

theorem readScalar_string (hd : d.Lawful round knowsNames) (s : JsString) (rest : List ℕ) :
    readScalar d (quotePoints s ++ rest) = some (.str (codePoints s), rest) := by
  rw [quotePoints, List.cons_append, List.append_assoc, List.singleton_append]
  simp only [readScalar, if_true, hd.string, Option.map_some]

theorem toUnits_head (x : JsNumber) :
    ∃ c r, x.toUnits = c :: r ∧ (isDigit c = true ∨ c = 45) := by
  unfold JsNumber.toUnits
  split_ifs with hx hneg
  · exact ⟨48, [], rfl, Or.inl rfl⟩
  · exact ⟨45, _, rfl, Or.inr rfl⟩
  · obtain ⟨t⟩ := exists_numberText hx x.exponent
    obtain ⟨c, r, htext, -, hdigit⟩ := magnitudeUnits_head t
    exact ⟨c, r, htext, Or.inl hdigit⟩

theorem number_head_range {c : ℕ} (h : isDigit c = true ∨ c = 45) : 45 ≤ c ∧ c ≤ 57 := by
  simp only [isDigit, Bool.and_eq_true, decide_eq_true_eq] at h
  omega

theorem readScalar_number (hd : d.Lawful round knowsNames) (x : JsNumber) {rest : List ℕ}
    (hrest : Closed rest) :
    readScalar d (x.toUnits ++ rest) = some (numberToPython round x, rest) := by
  obtain ⟨c, r, htext, hc⟩ := toUnits_head x
  have hrange := number_head_range hc
  have hread := hd.number x rest hrest
  have hname : ¬ isNameUnit c = true := by
    simp only [isNameUnit, Bool.or_eq_true, Bool.and_eq_true, decide_eq_true_eq]
    omega
  rw [htext, List.cons_append] at hread ⊢
  simp only [readScalar, if_neg (show c ≠ 34 by omega), if_neg hname, hread]

/-- A text that opens no bracket is a scalar at every level. -/
theorem readValue_scalar (n : ℕ) {c : ℕ} {r : List ℕ} (hlist : c ≠ 91) (hdict : c ≠ 123) :
    readValue d n (c :: r) = readScalar d (c :: r) := by
  have hne : ∀ {b : ℕ} {w : List ℕ}, c :: r = b :: w → c = b := fun h => (List.cons.inj h).1
  cases n with
  | zero =>
    rw [readValue]
    · exact fun _ _ h => hlist (hne h)
    · exact fun _ _ h => hdict (hne h)
    · simp
    · simp
    · simp
    · simp
  | succ n =>
    rw [readValue]
    · simp
    · simp
    · exact fun _ _ _ h => hlist (hne h)
    · exact fun _ _ _ h => hlist (hne h)
    · exact fun _ _ _ h => hdict (hne h)
    · exact fun _ _ _ h => hdict (hne h)

/-- A reader of values, specified by what it makes of each value's text. -/
def Reads (read : Reader (PyVal Double)) (value : Json → Option (PyVal Double)) (v : Json) : Prop :=
  ∀ rest, Closed rest → read (v.layout quotePoints ++ rest) = (value v).map fun x => (x, rest)

theorem readItems_layout {read : Reader (PyVal Double)} {value : Json → Option (PyVal Double)}
    {items : List Json} (hread : ∀ v ∈ items, Reads read value v) (hne : items ≠ []) (fuel : ℕ)
    (hfuel : items.length ≤ fuel) (rest : List ℕ) :
    readItems read fuel (Json.layout.layoutItems quotePoints items ++ rest) =
      (items.mapM value).map fun xs => (xs, rest) := by
  induction items generalizing fuel with
  | nil => exact absurd rfl hne
  | cons v items ih =>
    obtain ⟨fuel, rfl⟩ : ∃ f, fuel = f + 1 := ⟨fuel - 1, by simp at hfuel; omega⟩
    have hv := hread v (by simp)
    cases items with
    | nil =>
      have hclosed : Closed (93 :: rest) := Or.inr ⟨93, rest, rfl, by simp⟩
      rw [Json.layout.layoutItems, List.append_assoc, List.singleton_append, readItems, hv _ hclosed,
        List.mapM_cons]
      cases value v <;> simp
    | cons w items =>
      have hclosed : ∀ r, Closed (44 :: r) := fun r => Or.inr ⟨44, r, rfl, by simp⟩
      have ih := ih (fun u hu => hread u (by simp [hu])) (by simp) fuel
        (by simp at hfuel ⊢; omega)
      rw [Json.layoutItems_cons_cons, List.append_assoc, List.cons_append, readItems,
        hv _ (hclosed _), List.mapM_cons]
      cases value v with
      | none => simp
      | some x =>
        simp only [Option.map_some, Option.bind_eq_bind, Option.bind_some, ih]
        cases (w :: items).mapM value <;> simp

theorem readMembers_layout (hd : d.Lawful round knowsNames) {read : Reader (PyVal Double)}
    {value : Json → Option (PyVal Double)} {members : List (JsString × Json)}
    (hread : ∀ m ∈ members, Reads read value m.2) (hne : members ≠ []) (fuel : ℕ)
    (hfuel : members.length ≤ fuel) (rest : List ℕ) :
    readMembers d read fuel (Json.layout.layoutMembers quotePoints members ++ rest) =
      (members.mapM (memberValue value)).map fun pairs => (pairs, rest) := by
  induction members generalizing fuel with
  | nil => exact absurd rfl hne
  | cons m members ih =>
    obtain ⟨fuel, rfl⟩ : ∃ f, fuel = f + 1 := ⟨fuel - 1, by simp at hfuel; omega⟩
    obtain ⟨k, v⟩ := m
    have hv : Reads read value v := hread (k, v) (by simp)
    cases members with
    | nil =>
      have hclosed : Closed (125 :: rest) := Or.inr ⟨125, rest, rfl, by simp⟩
      simp only [Json.layout.layoutMembers, quotePoints, List.append_assoc, List.cons_append,
        List.nil_append, readMembers, hd.string, Option.bind_eq_bind, Option.bind_some,
        hv _ hclosed, List.mapM_cons, memberValue]
      cases value v <;> simp
    | cons m members =>
      have hclosed : ∀ r, Closed (44 :: r) := fun r => Or.inr ⟨44, r, rfl, by simp⟩
      have ih := ih (fun u hu => hread u (by simp [hu])) (by simp) fuel
        (by simp at hfuel ⊢; omega)
      simp only [Json.layoutMembers_cons_cons, quotePoints, List.append_assoc, List.cons_append,
        List.nil_append, readMembers, hd.string, Option.bind_eq_bind, Option.bind_some,
        hv _ (hclosed _)]
      rw [List.mapM_cons, memberValue]
      cases value v with
      | none => simp
      | some x =>
        simp only [Option.map_some, Option.bind_eq_bind, Option.bind_some, ih]
        cases (m :: members).mapM (memberValue value) <;> simp

/-- No value starts with a closing bracket. -/
theorem layout_head (v : Json) :
    ∃ c r, v.layout quotePoints = c :: r ∧ c ≠ 93 ∧ c ≠ 125 := by
  match v with
  | .null => exact ⟨_, _, rfl, by decide, by decide⟩
  | .bool true => exact ⟨_, _, rfl, by decide, by decide⟩
  | .bool false => exact ⟨_, _, rfl, by decide, by decide⟩
  | .str _ => exact ⟨_, _, rfl, by decide, by decide⟩
  | .arr _ => exact ⟨_, _, rfl, by decide, by decide⟩
  | .obj _ => exact ⟨_, _, rfl, by decide, by decide⟩
  | .num x =>
    obtain ⟨c, r, htext, hc⟩ := toUnits_head x
    have hrange := number_head_range hc
    exact ⟨c, r, htext, by omega, by omega⟩

theorem layoutItems_head {items : List Json} (hne : items ≠ []) :
    ∃ c r, Json.layout.layoutItems quotePoints items = c :: r ∧ c ≠ 93 := by
  match items, hne with
  | [v], _ =>
    obtain ⟨c, r, h, hc, -⟩ := layout_head v
    exact ⟨c, r ++ [93], by rw [Json.layout.layoutItems, h, List.cons_append], hc⟩
  | v :: w :: items, _ =>
    obtain ⟨c, r, h, hc, -⟩ := layout_head v
    exact ⟨c, _, by rw [Json.layoutItems_cons_cons, h, List.cons_append], hc⟩

theorem layoutMembers_head {members : List (JsString × Json)} (hne : members ≠ []) :
    ∃ r, Json.layout.layoutMembers quotePoints members = 34 :: r := by
  match members, hne with
  | [(k, v)], _ => exact ⟨_, rfl⟩
  | (k, v) :: m :: members, _ => exact ⟨_, by rw [Json.layoutMembers_cons_cons]; rfl⟩

theorem length_le_layoutItems (quote : JsString → List ℕ) (items : List Json) :
    items.length ≤ (Json.layout.layoutItems quote items).length := by
  induction items with
  | nil => simp
  | cons v items ih =>
    cases items with
    | nil => simp [Json.layout.layoutItems]
    | cons w items =>
      simp only [Json.layoutItems_cons_cons, List.length_append, List.length_cons] at ih ⊢
      omega

theorem length_le_layoutMembers (quote : JsString → List ℕ) (members : List (JsString × Json)) :
    members.length ≤ (Json.layout.layoutMembers quote members).length := by
  induction members with
  | nil => simp
  | cons m members ih =>
    obtain ⟨k, v⟩ := m
    cases members with
    | nil =>
      simp only [Json.layout.layoutMembers, List.length_append, List.length_cons, List.length_nil]
      omega
    | cons w members =>
      simp only [Json.layoutMembers_cons_cons, List.length_append, List.length_cons] at ih ⊢
      omega

theorem readValue_of_head (n : ℕ) {v : Json} {c : ℕ} {r rest : List ℕ}
    {x : Option (PyVal Double)} (htext : v.layout quotePoints = c :: r) (hlist : c ≠ 91)
    (hdict : c ≠ 123)
    (hread : readScalar d (v.layout quotePoints ++ rest) = x.map fun y => (y, rest)) :
    readValue d n (v.layout quotePoints ++ rest) = x.map fun y => (y, rest) := by
  rw [← hread, htext, List.cons_append, readValue_scalar n hlist hdict]

/-- Values without brackets are read alike at every level. -/
theorem readValue_scalar_layout (hd : d.Lawful round knowsNames) (n : ℕ) {v : Json}
    (hv : (∀ items, v ≠ .arr items) ∧ ∀ members, v ≠ .obj members) :
    Reads (readValue d n) (d.value round n) v := by
  intro rest hrest
  match v, hv with
  | .null, _ =>
    rw [Dialect.value]
    exact readValue_of_head n rfl (by decide) (by decide)
      (readScalar_name (js "null") (by decide) (by decide) hrest)
  | .bool true, _ =>
    rw [Dialect.value]
    exact readValue_of_head n rfl (by decide) (by decide)
      (readScalar_name (js "true") (by decide) (by decide) hrest)
  | .bool false, _ =>
    rw [Dialect.value]
    exact readValue_of_head n rfl (by decide) (by decide)
      (readScalar_name (js "false") (by decide) (by decide) hrest)
  | .num x, _ =>
    obtain ⟨c, r, htext, hc⟩ := toUnits_head x
    have hrange := number_head_range hc
    rw [Dialect.value]
    exact readValue_of_head n htext (by omega) (by omega) (readScalar_number hd x hrest)
  | .str s, _ =>
    rw [Dialect.value]
    exact readValue_of_head n rfl (by decide) (by decide) (readScalar_string hd s rest)
  | .arr items, hv => exact absurd rfl (hv.1 items)
  | .obj members, hv => exact absurd rfl (hv.2 members)

/-- The reader undoes the layout. -/
theorem readValue_layout (hd : d.Lawful round knowsNames) (n : ℕ) (v : Json) :
    Reads (readValue d n) (d.value round n) v := by
  induction n generalizing v with
  | zero =>
    match v with
    | .arr items => exact fun rest _ => by simp [Json.layout, readValue, Dialect.value]
    | .obj members => exact fun rest _ => by simp [Json.layout, readValue, Dialect.value]
    | .null | .bool _ | .num _ | .str _ => exact readValue_scalar_layout hd 0 (by simp)
  | succ n ih =>
    match v with
    | .arr [] => exact fun rest _ => by simp [Json.layout, Json.layout.layoutItems, readValue, Dialect.value]
    | .arr (v :: items) =>
      intro rest _
      obtain ⟨c, r, htext, hc⟩ := layoutItems_head (List.cons_ne_nil v items)
      have hlen := length_le_layoutItems quotePoints (v :: items)
      have hread := readItems_layout (fun u _ => ih u) (List.cons_ne_nil v items)
        (Json.layout.layoutItems quotePoints (v :: items) ++ rest).length
        (by rw [List.length_append]; omega) rest
      rw [Dialect.value, Json.layout, List.cons_append, readValue, hread]
      · cases (v :: items).mapM (d.value round n) <;> rfl
      · rw [htext]
        exact fun _ h => hc (List.cons.inj h).1
    | .obj [] => exact fun rest _ => by simp [Json.layout, Json.layout.layoutMembers, readValue, Dialect.value]
    | .obj (m :: members) =>
      intro rest _
      obtain ⟨r, htext⟩ := layoutMembers_head (List.cons_ne_nil m members)
      have hlen := length_le_layoutMembers quotePoints (m :: members)
      have hread := readMembers_layout hd (fun u _ => ih u.2) (List.cons_ne_nil m members)
        (Json.layout.layoutMembers quotePoints (m :: members) ++ rest).length
        (by rw [List.length_append]; omega) rest
      rw [Dialect.value, Json.layout, List.cons_append, readValue, hread]
      · cases (m :: members).mapM (memberValue (d.value round n)) <;> rfl
      · rw [htext]
        exact fun _ h => absurd (List.cons.inj h).1 (by decide)
    | .null | .bool _ | .num _ | .str _ => exact readValue_scalar_layout hd (n + 1) (by simp)

theorem mapM_ite {α β : Type} {f : α → Option β} {p : α → Prop} [DecidablePred p] {g : α → β}
    {xs : List α} (h : ∀ x ∈ xs, f x = if p x then some (g x) else none) :
    xs.mapM f = if ∀ x ∈ xs, p x then some (xs.map g) else none := by
  induction xs with
  | nil => simp
  | cons x xs ih =>
    rw [List.mapM_cons, h x (by simp), ih fun y hy => h y (by simp [hy])]
    by_cases hx : p x
    · by_cases hxs : ∀ y ∈ xs, p y
      · rw [if_pos hx, if_pos hxs, if_pos (List.forall_mem_cons.mpr ⟨hx, hxs⟩)]
        rfl
      · rw [if_pos hx, if_neg hxs, if_neg fun h => hxs (List.forall_mem_cons.mp h).2]
        rfl
    · rw [if_neg hx, if_neg fun h => hx (List.forall_mem_cons.mp h).1]
      rfl

open Classical in
/-- A value is read as its Python counterpart, or not at all. -/
theorem value_eq (hd : d.Lawful round knowsNames) (n : ℕ) (v : Json) :
    d.value round n v =
      if (knowsNames = true ∨ NameFree v) ∧ nesting v ≤ n then some (toPython round v) else none := by
  induction n generalizing v with
  | zero =>
    cases v with
    | null => simp [Dialect.value, hd.null, NameFree, nesting, toPython]
    | bool b => cases b <;> simp [Dialect.value, hd.true, hd.false, NameFree, nesting, toPython]
    | num x => simp [Dialect.value, NameFree, nesting, toPython]
    | str s => simp [Dialect.value, NameFree, nesting, toPython]
    | arr items => simp [Dialect.value, nesting]
    | obj members => simp [Dialect.value, nesting]
  | succ n ih =>
    cases v with
    | null => simp [Dialect.value, hd.null, NameFree, nesting, toPython]
    | bool b => cases b <;> simp [Dialect.value, hd.true, hd.false, NameFree, nesting, toPython]
    | num x => simp [Dialect.value, NameFree, nesting, toPython]
    | str s => simp [Dialect.value, NameFree, nesting, toPython]
    | arr items =>
      have hiff : (∀ v ∈ items, (knowsNames = true ∨ NameFree v) ∧ nesting v ≤ n) ↔
          (knowsNames = true ∨ NameFree (.arr items)) ∧ nesting (.arr items) ≤ n + 1 := by
        rw [NameFree, nesting, itemsNameFree_iff, Nat.add_le_add_iff_right, itemsNesting_le]
        cases knowsNames <;> simp [forall_and]
      rw [Dialect.value, mapM_ite (fun v _ => ih v), toPython, itemsToPython_eq]
      by_cases h : (knowsNames = true ∨ NameFree (.arr items)) ∧ nesting (.arr items) ≤ n + 1
      · rw [if_pos (hiff.mpr h), if_pos h, Option.map_some]
      · rw [if_neg (fun hall => h (hiff.mp hall)), if_neg h, Option.map_none]
    | obj members =>
      have hiff : (∀ m ∈ members, (knowsNames = true ∨ NameFree m.2) ∧ nesting m.2 ≤ n) ↔
          (knowsNames = true ∨ NameFree (.obj members)) ∧ nesting (.obj members) ≤ n + 1 := by
        rw [NameFree, nesting, membersNameFree_iff, Nat.add_le_add_iff_right, membersNesting_le]
        cases knowsNames <;> simp [forall_and]
      have hmember : ∀ m ∈ members, memberValue (d.value round n) m =
          if (knowsNames = true ∨ NameFree m.2) ∧ nesting m.2 ≤ n then
            some (codePoints m.1, toPython round m.2) else none := by
        intro m _
        rw [memberValue, ih]
        split_ifs <;> rfl
      rw [Dialect.value, mapM_ite hmember, toPython, membersToPython_eq]
      by_cases h : (knowsNames = true ∨ NameFree (.obj members)) ∧ nesting (.obj members) ≤ n + 1
      · rw [if_pos (hiff.mpr h), if_pos h, Option.map_some]
      · rw [if_neg (fun hall => h (hiff.mp hall)), if_neg h, Option.map_none]

theorem readAll_stringify (hd : d.Lawful round knowsNames) (n : ℕ) (v : Json) :
    readAll d n v.stringify = d.value round n v := by
  have hread := readValue_layout hd n v [] (Or.inl rfl)
  rw [List.append_nil] at hread
  rw [readAll, codePoints_stringify, hread]
  cases d.value round n v <;> rfl

end Values

/-! ## The script's test cases -/

theorem pyEval_stringify_iff (I : Interpreter) (v : Json) (x : PyVal I.Double) :
    pyEval I v.stringify = some x ↔
      (NameFree v ∧ nesting v ≤ I.literalNesting) ∧ toPython I.round v = x := by
  classical
  rw [pyEval, readAll_stringify (python_lawful I), value_eq (python_lawful I), Option.ite_none_right_eq_some,
    Option.some.injEq, or_iff_right Bool.false_ne_true]

theorem jsonLoads_stringify_iff (I : Interpreter) (v : Json) (x : PyVal I.Double) :
    jsonLoads I v.stringify = some x ↔ nesting v ≤ I.jsonNesting ∧ toPython I.round v = x := by
  classical
  rw [jsonLoads, readAll_stringify (json_lawful I), value_eq (json_lawful I),
    Option.ite_none_right_eq_some, Option.some.injEq, or_iff_left_of_imp (fun _ => rfl), eq_self_iff_true,
    true_and]

/-- The text of the value evaluates in Python to what `json.loads` makes of it. -/
def LiteralCompatible (I : Interpreter) (v : Json) : Prop :=
  ∃ x, pyEval I v.stringify = some x ∧ jsonLoads I v.stringify = some x

/-- The script's `_TEST_CASES` are the stored inputs. -/
def ReceivesInputs (I : Interpreter) (testCaseInputs : List TestCaseInput) : Prop :=
  pyEval I (testCasesJson testCaseInputs).stringify =
    some (toPython I.round (testCasesJson testCaseInputs))

/-- **Literal compatibility.** A JSON value is a Python literal of the same value exactly when it has
no `null`, `true` or `false`, within the interpreter's bracket limits; and a list of test cases
reaches the script exactly when this holds of its inputs. -/
theorem literalCompatible_iff (I : Interpreter) :
    (∀ v, LiteralCompatible I v ↔
      NameFree v ∧ nesting v ≤ I.literalNesting ∧ nesting v ≤ I.jsonNesting) ∧
    ∀ testCaseInputs, ReceivesInputs I testCaseInputs ↔
      1 ≤ I.literalNesting ∧ ∀ testCase ∈ testCaseInputs,
        NameFree (.obj testCase.input) ∧ nesting (.obj testCase.input) + 2 ≤ I.literalNesting := by
  constructor
  · intro v
    unfold LiteralCompatible
    simp only [pyEval_stringify_iff, jsonLoads_stringify_iff]
    constructor
    · rintro ⟨x, ⟨⟨hname, hpy⟩, -⟩, hjson, -⟩
      exact ⟨hname, hpy, hjson⟩
    · rintro ⟨hname, hpy, hjson⟩
      exact ⟨_, ⟨⟨hname, hpy⟩, rfl⟩, hjson, rfl⟩
  · intro testCaseInputs
    unfold ReceivesInputs
    rw [pyEval_stringify_iff, testCasesJson, NameFree, nesting, itemsNameFree_iff, eq_self_iff_true,
      and_true]
    have hname : ∀ testCase : TestCaseInput,
        NameFree testCase.toJson ↔ NameFree (.obj testCase.input) := by
      intro testCase
      simp [TestCaseInput.toJson, NameFree, NameFree.membersNameFree]
    have hnesting : ∀ testCase : TestCaseInput,
        nesting testCase.toJson = nesting (.obj testCase.input) + 1 := by
      intro testCase
      simp [TestCaseInput.toJson, nesting, nesting.membersNesting]
    simp only [List.forall_mem_map, hname]
    constructor
    · rintro ⟨hnames, hle⟩
      have hitems := (itemsNesting_le (testCaseInputs.map TestCaseInput.toJson)
        (I.literalNesting - 1)).mp (by omega)
      simp only [List.forall_mem_map, hnesting] at hitems
      exact ⟨by omega, fun t ht => ⟨hnames t ht, by have := hitems t ht; omega⟩⟩
    · rintro ⟨hone, hall⟩
      refine ⟨fun t ht => (hall t ht).1, ?_⟩
      have hitems := (itemsNesting_le (testCaseInputs.map TestCaseInput.toJson)
        (I.literalNesting - 1)).mpr
      simp only [List.forall_mem_map, hnesting] at hitems
      have := hitems fun t ht => by have := (hall t ht).2; omega
      omega

/-- An interpreter with the limits of CPython and exact decimals. -/
def exactInterpreter : Interpreter where
  Double := ℚ
  round := id
  literalNesting := 200
  jsonNesting := 1000

/-- A tree with a missing child, as in the seed data, does not reach the script. -/
theorem null_not_literalCompatible :
    ¬ LiteralCompatible exactInterpreter .null ∧
      ¬ ReceivesInputs exactInterpreter
        [⟨[(js "root", .arr [.num ⟨false, 1, 1, by decide⟩, .null, .num ⟨false, 2, 1, by decide⟩])]⟩] := by
  constructor
  · rintro ⟨x, hx, -⟩
    exact ((pyEval_stringify_iff _ _ _).mp hx).1.1
  · intro h
    have hname := ((pyEval_stringify_iff _ _ _).mp h).1.1
    simp [testCasesJson, TestCaseInput.toJson, NameFree, NameFree.itemsNameFree,
      NameFree.membersNameFree] at hname

end CodeShare.Harness
