import CodeShare.Harness.ParentMain
import CodeShare.Server.ExecutionService

/-! # From the script to the server

What `JSON.parse` makes of a Python value that `json.dumps` has written, and when the schemas accept it:
a returned value must hold only numbers that a double can hold, and an index must be a safe integer.
-/

namespace CodeShare.Harness
set_option autoImplicit false

/-- The code units of a Python text. -/
def utf16 (text : PyText) : JsString :=
  text.flatMap fun c =>
    if c < 0x10000 then [c] else [0xD800 + (c - 0x10000) / 0x400, 0xDC00 + (c - 0x10000) % 0x400]

section
variable (R : Runtime)

/-- `JSON.parse` of `json.dumps`. The keys of a dict that `json.loads` has returned stay distinct. -/
def parsed : PyVal R.Double → ParsedJson
  | .none => .null
  | .bool b => .bool b
  | .int n => .ofInt n
  | .float negative magnitude => .finite (R.decimal negative magnitude)
  | .str text => .str (utf16 text)
  | .list items => .arr (parsedItems items)
  | .dict entries => .obj (propertyOrder (parsedEntries entries))
where
  parsedItems : List (PyVal R.Double) → List ParsedJson
    | [] => []
    | v :: rest => parsed v :: parsedItems rest
  parsedEntries : List (List ℕ × PyVal R.Double) → List (JsString × ParsedJson)
    | [] => []
    | (k, v) :: rest => (utf16 k, parsed v) :: parsedEntries rest

/-- No integer is too large for a double, except where a record is not looked at. -/
def Representable : PyVal R.Double → Prop
  | .int n => (numberOfInt n).isSome
  | .list items => itemsRepresentable items
  | .dict entries => entriesRepresentable entries
  | _ => True
where
  itemsRepresentable : List (PyVal R.Double) → Prop
    | [] => True
    | v :: rest => Representable v ∧ itemsRepresentable rest
  entriesRepresentable : List (List ℕ × PyVal R.Double) → Prop
    | [] => True
    | (k, v) :: rest => (utf16 k = js "__proto__" ∨ Representable v) ∧ entriesRepresentable rest

end

/-! ## Values -/

theorem jsonValueSchema_ofInt (n : ℤ) :
    (jsonValueSchema (.ofInt n)).isSome = (numberOfInt n).isSome := by
  unfold ParsedJson.ofInt
  split
  · rename_i h
    rw [h, jsonValueSchema]
    rfl
  · rename_i h
    rw [h, jsonValueSchema]
    rfl

theorem itemsSchema_isSome (items : List ParsedJson) :
    (jsonValueSchema.itemsSchema items).isSome ↔ ∀ v ∈ items, (jsonValueSchema v).isSome := by
  induction items with
  | nil => simp [jsonValueSchema.itemsSchema]
  | cons v rest ih =>
    rw [jsonValueSchema.itemsSchema, List.forall_mem_cons, ← ih]
    cases jsonValueSchema v <;> cases jsonValueSchema.itemsSchema rest <;> simp

theorem membersSchema_isSome (members : List (JsString × ParsedJson)) :
    (jsonValueSchema.membersSchema members).isSome ↔
      ∀ m ∈ members, m.1 = js "__proto__" ∨ (jsonValueSchema m.2).isSome := by
  induction members with
  | nil => simp [jsonValueSchema.membersSchema]
  | cons m rest ih =>
    obtain ⟨k, v⟩ := m
    rw [jsonValueSchema.membersSchema, List.forall_mem_cons, ← ih]
    by_cases hk : k = js "__proto__"
    · rw [if_pos hk]
      exact ⟨fun h => ⟨Or.inl hk, h⟩, And.right⟩
    · rw [if_neg hk, or_iff_right hk]
      cases jsonValueSchema v <;> cases jsonValueSchema.membersSchema rest <;> simp

section
variable (R : Runtime)

mutual
/-- The schema of returned values accepts what a double can hold. -/
theorem jsonValueSchema_parsed : ∀ v : PyVal R.Double,
    (jsonValueSchema (parsed R v)).isSome ↔ Representable R v
  | .none | .bool _ | .float _ _ | .str _ => by simp [parsed, jsonValueSchema, Representable]
  | .int n => by
      rw [parsed, Representable, jsonValueSchema_ofInt]
  | .list items => by
      rw [parsed, Representable, jsonValueSchema, Option.isSome_map, itemsSchema_isSome]
      exact jsonValueSchema_items items
  | .dict entries => by
      rw [parsed, Representable, jsonValueSchema, Option.isSome_map, membersSchema_isSome]
      simp only [(propertyOrder_perm _).mem_iff]
      exact jsonValueSchema_entries entries
theorem jsonValueSchema_items : ∀ items : List (PyVal R.Double),
    (∀ v ∈ parsed.parsedItems R items, (jsonValueSchema v).isSome) ↔
      Representable.itemsRepresentable R items
  | [] => by simp [parsed.parsedItems, Representable.itemsRepresentable]
  | v :: rest => by
      rw [parsed.parsedItems, Representable.itemsRepresentable, List.forall_mem_cons,
        jsonValueSchema_parsed v, jsonValueSchema_items rest]
theorem jsonValueSchema_entries : ∀ entries : List (List ℕ × PyVal R.Double),
    (∀ m ∈ parsed.parsedEntries R entries,
      m.1 = js "__proto__" ∨ (jsonValueSchema m.2).isSome) ↔
      Representable.entriesRepresentable R entries
  | [] => by simp [parsed.parsedEntries, Representable.entriesRepresentable]
  | (k, v) :: rest => by
      rw [parsed.parsedEntries, Representable.entriesRepresentable, List.forall_mem_cons,
        jsonValueSchema_parsed v, jsonValueSchema_entries rest]
end

end

/-! ## Properties -/

section
variable (R : Runtime)

theorem parsedEntries_eq_map (entries : List (List ℕ × PyVal R.Double)) :
    parsed.parsedEntries R entries = entries.map fun entry => (utf16 entry.1, parsed R entry.2) := by
  induction entries with
  | nil => rfl
  | cons entry rest ih =>
    obtain ⟨k, v⟩ := entry
    rw [parsed.parsedEntries, ih, List.map_cons]

/-- A key of a dict is a property of the object. -/
theorem get_parsed_dict (entries : List (List ℕ × PyVal R.Double)) (keys : List String)
    (hkeys : entries.map Prod.fst = keys.map js) (hnodup : (keys.map fun k => utf16 (js k)).Nodup)
    (key : JsString) :
    (parsed R (.dict entries)).get key =
      (entries.find? fun entry => utf16 entry.1 = key).map fun entry => parsed R entry.2 := by
  have hnodup' : ((entries.map fun entry => (utf16 entry.1, parsed R entry.2)).map Prod.fst).Nodup := by
    have hmap : (entries.map fun entry => (utf16 entry.1, parsed R entry.2)).map Prod.fst =
        (entries.map Prod.fst).map utf16 := by
      rw [List.map_map, List.map_map]
      rfl
    rw [hmap, hkeys, List.map_map]
    exact hnodup
  rw [parsed, parsedEntries_eq_map, ParsedJson.get_propertyOrder key hnodup', List.find?_map, Option.map_map]
  rfl

end

/-! ## Indexes -/

theorem ofInt_zero : ParsedJson.ofInt 0 = .finite (.ofDecimal false 0) := by
  have hzero : numberOfInt (0 : ℕ) = some (.ofDecimal false 0) :=
    numberOfInt_of_lt (Nat.two_pow_pos 53)
  rw [Nat.cast_zero] at hzero
  unfold ParsedJson.ofInt
  rw [hzero]

theorem integerSchema_ofInt (i : ℕ) :
    integerSchema (.ofInt i) = if i < 2 ^ 53 then some (i : ℤ) else none := by
  unfold ParsedJson.ofInt
  split_ifs with hi
  · rw [numberOfInt_of_lt hi]
    have hsafe : -maxSafeInteger ≤ (i : ℤ) ∧ (i : ℤ) ≤ maxSafeInteger := by
      unfold maxSafeInteger
      omega
    rw [integerSchema, JsNumber.toInt_ofDecimal]
    simp [Option.filter, hsafe]
  · cases hnumber : numberOfInt i with
    | none => rfl
    | some x =>
      obtain ⟨m, hm, hx⟩ := numberOfInt_of_le (not_lt.mp hi) hnumber
      have hunsafe : ¬ (m : ℤ) ≤ maxSafeInteger := by
        unfold maxSafeInteger
        omega
      dsimp only
      rw [integerSchema, hx]
      simp [Option.filter, hunsafe]

end CodeShare.Harness
