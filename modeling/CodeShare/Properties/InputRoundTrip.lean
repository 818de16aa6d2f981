import CodeShare.Properties.TestCaseParameters
import CodeShare.Services.SplitTopLevel

/-! # Input assignments

`parseInputAssignments` of a text `x = JSON.stringify(v), ...`. White space inside of strings and member names is
collapsed before anything is read; a string outside of brackets is taken as it is written, without undoing its escapes;
a number outside of brackets must have no exponent.
-/

namespace CodeShare
set_option autoImplicit false

/-! ## Values -/

/-- The value itself. -/
def ofJson : Json → ParsedJson
  | .null => .null
  | .bool b => .bool b
  | .num x => .finite x
  | .str text => .str text
  | .arr items => .arr (ofItems items)
  | .obj members => .obj (ofMembers members)
where
  ofItems : List Json → List ParsedJson
    | [] => []
    | v :: rest => ofJson v :: ofItems rest
  ofMembers : List (JsString × Json) → List (JsString × ParsedJson)
    | [] => []
    | (k, v) :: rest => (k, ofJson v) :: ofMembers rest

/-- The numbers of a value. -/
def numbersOf : Json → List JsNumber
  | .num x => [x]
  | .arr items => itemNumbers items
  | .obj members => memberNumbers members
  | _ => []
where
  itemNumbers : List Json → List JsNumber
    | [] => []
    | v :: rest => numbersOf v ++ itemNumbers rest
  memberNumbers : List (JsString × Json) → List JsNumber
    | [] => []
    | (_, v) :: rest => numbersOf v ++ memberNumbers rest

/-- A value of the language: its numbers are doubles, and the properties of an object are distinct and in order. -/
def IsJsValue (E : JsEngine) : Json → Prop
  | .num x => E.IsDouble x
  | .arr items => itemsAre items
  | .obj members => (members.map Prod.fst).Nodup ∧ propertyOrder members = members ∧ membersAre members
  | _ => True
where
  itemsAre : List Json → Prop
    | [] => True
    | v :: rest => IsJsValue E v ∧ itemsAre rest
  membersAre : List (JsString × Json) → Prop
    | [] => True
    | (_, v) :: rest => IsJsValue E v ∧ membersAre rest

/-- The number is not -0. -/
def NotNegativeZero (x : JsNumber) : Prop := x.significand = 0 → x.negative = false

/-- What the value must be outside of all brackets. -/
def StandsAlone : Json → Prop
  | .num x => WithoutExponent x
  | .str text => escapeUnits text = text
  | _ => True

/-- A value that comes through. -/
structure ComesThrough (v : Json) : Prop where
  texts : ∀ s ∈ v.texts, SingleSpaced s
  numbers : ∀ x ∈ numbersOf v, NotNegativeZero x
  alone : StandsAlone v

/-! ## Objects -/

section
variable {β γ : Type}

theorem propertyOrder_map (f : β → γ) (members : List (JsString × β)) :
    propertyOrder (members.map fun m => (m.1, f m.2)) = (propertyOrder members).map fun m => (m.1, f m.2) := by
  have hsort := List.map_insertionSort (fun a b : JsString × β => (arrayIndex a.1).getD 0 ≤ (arrayIndex b.1).getD 0)
    (fun a b : JsString × γ => (arrayIndex a.1).getD 0 ≤ (arrayIndex b.1).getD 0) (fun m => (m.1, f m.2))
    (members.filter fun m => (arrayIndex m.1).isSome) fun _ _ _ _ => Iff.rfl
  unfold propertyOrder
  rw [List.map_append, hsort, List.filter_map, List.filter_map]
  rfl

theorem eq_of_keys {members others : List (JsString × β)} (hperm : members.Perm others)
    (hkeys : members.map Prod.fst = others.map Prod.fst) (hnodup : (others.map Prod.fst).Nodup) : members = others := by
  induction others generalizing members with
  | nil => exact hperm.eq_nil
  | cons n others ih =>
    cases members with
    | nil => exact absurd hperm.symm.eq_nil (List.cons_ne_nil _ _)
    | cons m members =>
      rw [List.map_cons, List.map_cons, List.cons.injEq] at hkeys
      have hm : m ∈ n :: others := hperm.subset List.mem_cons_self
      obtain rfl := List.inj_on_of_nodup_map hnodup hm List.mem_cons_self hkeys.1
      rw [ih hperm.cons_inv hkeys.2 (List.nodup_cons.mp hnodup).2]

/-- The order depends on the names alone. -/
theorem propertyOrder_of_keys {members : List (JsString × β)} {others : List (JsString × γ)}
    (hkeys : members.map Prod.fst = others.map Prod.fst) (hnodup : (others.map Prod.fst).Nodup)
    (horder : propertyOrder others = others) : propertyOrder members = members := by
  have hbare : ∀ {δ : Type} (l : List (JsString × δ)), (propertyOrder l).map Prod.fst =
      (propertyOrder ((l.map Prod.fst).map fun k => (k, ()))).map Prod.fst := by
    intro δ l
    have hmap := propertyOrder_map (fun _ => ()) l
    rw [List.map_map]
    show _ = (propertyOrder (l.map fun m => (m.1, ()))).map Prod.fst
    rw [hmap, List.map_map]
    rfl
  refine eq_of_keys (propertyOrder_perm members) ?_ (hkeys ▸ hnodup)
  rw [hbare, hkeys, ← hbare, horder]

theorem foldl_setProperty {entries members : List (JsString × β)}
    (hnodup : ((members ++ entries).map Prod.fst).Nodup) :
    entries.foldl (fun members entry => setProperty members entry.1 entry.2) members = members ++ entries := by
  induction entries generalizing members with
  | nil => exact (List.append_nil members).symm
  | cons entry entries ih =>
    have hnew : entry.1 ∉ members.map Prod.fst := by
      rw [List.map_append, List.map_cons] at hnodup
      exact fun hm => (List.nodup_append.mp hnodup).2.2 _ hm _ List.mem_cons_self rfl
    rw [List.foldl_cons, setProperty, if_neg hnew]
    show entries.foldl _ (members ++ [entry]) = _
    rw [ih (by simpa using hnodup), List.append_assoc]
    rfl

theorem fromEntries_eq_self {entries : List (JsString × β)} (hnodup : (entries.map Prod.fst).Nodup)
    (horder : propertyOrder entries = entries) : fromEntries entries = entries := by
  rw [fromEntries, foldl_setProperty (by simpa using hnodup), List.nil_append, horder]

/-- An object is read back when its names are. -/
theorem fromEntries_eq_iff {f : JsString → JsString} (hidem : ∀ k, f (f k) = f k)
    {entries members : List (JsString × β)} (hnodup : (members.map Prod.fst).Nodup)
    (horder : propertyOrder members = members) (hkeys : entries.map Prod.fst = (members.map Prod.fst).map f) :
    fromEntries entries = members ↔ entries = members := by
  constructor
  · intro h
    have hfixed : ∀ k ∈ members.map Prod.fst, f k = k := by
      intro k hk
      rw [← h, mem_keys_fromEntries, hkeys] at hk
      obtain ⟨k', -, rfl⟩ := List.mem_map.mp hk
      exact hidem k'
    have hsame : entries.map Prod.fst = members.map Prod.fst := by
      rw [hkeys]
      conv_rhs => rw [← List.map_id (members.map Prod.fst)]
      exact List.map_congr_left hfixed
    rwa [fromEntries_eq_self (hsame ▸ hnodup) (propertyOrder_of_keys hsame hnodup horder)] at h
  · rintro rfl
    exact fromEntries_eq_self hnodup horder

end

/-! ## Reading a collapsed value -/

variable {E : JsEngine}

theorem ofMembers_keys (members : List (JsString × Json)) :
    (ofJson.ofMembers members).map Prod.fst = members.map Prod.fst := by
  induction members with
  | nil => rfl
  | cons m members ih => rw [ofJson.ofMembers, List.map_cons, List.map_cons, ih]

theorem reread_keys (members : List (JsString × Json)) :
    (rereadJson.rereadMembers E (collapseJson.collapseMembers members)).map Prod.fst =
      (members.map Prod.fst).map (collapseCopied false) := by
  rw [rereadMembers_eq_map, collapseMembers_eq_map, List.map_map, List.map_map, List.map_map]
  rfl

theorem unsignedZero_eq_iff (x : JsNumber) : x.unsignedZero = x ↔ NotNegativeZero x := by
  obtain ⟨negative, significand, exponent, shortest⟩ := x
  unfold JsNumber.unsignedZero NotNegativeZero
  cases negative <;> simp

mutual
theorem reread_collapse_iff : ∀ v : Json, IsJsValue E v → (rereadJson E (collapseJson v) = ofJson v ↔
    (∀ s ∈ v.texts, SingleSpaced s) ∧ ∀ x ∈ numbersOf v, NotNegativeZero x)
  | .null, _ => iff_of_true rfl ⟨List.forall_mem_nil _, List.forall_mem_nil _⟩
  | .bool _, _ => iff_of_true rfl ⟨List.forall_mem_nil _, List.forall_mem_nil _⟩
  | .num x, h => by
      rw [collapseJson, rereadJson, ofJson, E.number_toUnits x h, ParsedJson.finite.injEq, unsignedZero_eq_iff]
      simp [Json.texts, numbersOf]
  | .str text, _ => by
      rw [collapseJson, rereadJson, ofJson, ParsedJson.str.injEq, collapseCopied_eq_self_iff]
      simp [Json.texts, numbersOf]
  | .arr items, h => by
      rw [collapseJson, rereadJson, ofJson, ParsedJson.arr.injEq]
      exact reread_collapse_items items h
  | .obj members, h => by
      obtain ⟨hnodup, horder, hvalues⟩ := h
      have hkeys := ofMembers_keys members
      rw [collapseJson, rereadJson, ofJson, ParsedJson.obj.injEq, fromEntries_eq_iff collapseCopied_idem
        (hkeys.symm ▸ hnodup) (propertyOrder_of_keys hkeys hnodup horder) (by rw [reread_keys, hkeys])]
      exact reread_collapse_members members hvalues
theorem reread_collapse_items : ∀ items : List Json, IsJsValue.itemsAre E items →
    (rereadJson.rereadItems E (collapseJson.collapseItems items) = ofJson.ofItems items ↔
      (∀ s ∈ Json.texts.itemTexts items, SingleSpaced s) ∧ ∀ x ∈ numbersOf.itemNumbers items, NotNegativeZero x)
  | [], _ => iff_of_true rfl ⟨List.forall_mem_nil _, List.forall_mem_nil _⟩
  | v :: items, h => by
      rw [collapseJson.collapseItems, rereadJson.rereadItems, ofJson.ofItems, List.cons.injEq,
        reread_collapse_iff v h.1, reread_collapse_items items h.2, Json.texts.itemTexts, numbersOf.itemNumbers,
        List.forall_mem_append, List.forall_mem_append]
      exact and_and_and_comm
theorem reread_collapse_members : ∀ members : List (JsString × Json), IsJsValue.membersAre E members →
    (rereadJson.rereadMembers E (collapseJson.collapseMembers members) = ofJson.ofMembers members ↔
      (∀ s ∈ Json.texts.memberTexts members, SingleSpaced s) ∧
        ∀ x ∈ numbersOf.memberNumbers members, NotNegativeZero x)
  | [], _ => iff_of_true rfl ⟨List.forall_mem_nil _, List.forall_mem_nil _⟩
  | (k, v) :: members, h => by
      rw [collapseJson.collapseMembers, rereadJson.rereadMembers, ofJson.ofMembers, List.cons.injEq, Prod.mk.injEq,
        collapseCopied_eq_self_iff, reread_collapse_iff v h.1, reread_collapse_members members h.2,
        Json.texts.memberTexts, numbersOf.memberNumbers, List.forall_mem_cons, List.forall_mem_append,
        List.forall_mem_append]
      tauto
end

/-! ## One value -/

theorem jsTrim_stringify (v : Json) : jsTrim v.stringify = v.stringify := (framed_stringify v).jsTrim

/-- A value in brackets goes to `JSON.parse`. -/
theorem parseLeetCodeValue_brackets {v : Json} (h : v.stringify.head? = some 91 ∨ v.stringify.head? = some 123) :
    parseLeetCodeValue (jsonParse E) E.number v.stringify = .ok (rereadJson E v) := by
  unfold parseLeetCodeValue
  rw [jsTrim_stringify]
  dsimp only
  rw [if_pos (by simpa using h), jsonParse_stringify]

theorem parseLeetCodeValue_scalar {v : Json} (harr : v.stringify.head? ≠ some 91)
    (hobj : v.stringify.head? ≠ some 123) :
    parseLeetCodeValue (jsonParse E) E.number v.stringify = parseScalarValue E.number v.stringify := by
  unfold parseLeetCodeValue
  rw [jsTrim_stringify]
  dsimp only
  rw [if_neg (by simpa using ⟨harr, hobj⟩)]

theorem parseScalarValue_number (x : JsNumber) :
    parseScalarValue E.number x.toUnits = if isDecimalText x.toUnits then .ok (E.number x.toUnits)
      else .error (js "Unsupported imported value: " ++ x.toUnits) := by
  obtain ⟨c, r, htext, hc⟩ := Harness.toUnits_head x
  have hrange := Harness.number_head_range hc
  have htrim : jsTrim x.toUnits = x.toUnits := jsTrim_stringify (.num x)
  have hword : ∀ word : JsString, (∀ d ∈ word.head?, 57 < d) → word ≠ [] → x.toUnits ≠ word := by
    rintro word hhead hne heq
    rw [htext] at heq
    have hlt := hhead c (by rw [← heq]; rfl)
    omega
  have hquoted : ∀ q, q < 45 → isQuotedBy q x.toUnits = false := by
    intro q hq
    unfold isQuotedBy
    rw [htext]
    simp
    omega
  unfold parseScalarValue
  rw [htrim]
  dsimp only
  rw [if_neg (hword (js "true") (by decide) (by decide)), if_neg (hword (js "false") (by decide) (by decide)),
    if_neg (hword (js "null") (by decide) (by decide)), hquoted 34 (by decide), hquoted 39 (by decide)]
  rfl

theorem parseScalarValue_string (text : JsString) :
    parseScalarValue E.number (quoteUnits text) = .ok (.str (escapeUnits text)) := by
  have htrim : jsTrim (quoteUnits text) = quoteUnits text := jsTrim_stringify (.str text)
  have hquoted : isQuotedBy 34 (quoteUnits text) = true := by
    have hconcat : quoteUnits text = (34 :: escapeUnits text) ++ [34] := rfl
    unfold isQuotedBy
    rw [hconcat, List.getLast?_concat]
    rfl
  have hdecimal : isDecimalText (quoteUnits text) = false := by
    unfold isDecimalText quoteUnits
    simp [isDigitUnit]
  have hword : ∀ word : JsString, word.head? ≠ some 34 → quoteUnits text ≠ word := by
    rintro word hhead rfl
    exact hhead rfl
  unfold parseScalarValue
  rw [htrim]
  dsimp only
  rw [if_neg (hword (js "true") (by decide)), if_neg (hword (js "false") (by decide)),
    if_neg (hword (js "null") (by decide)), hdecimal, hquoted, if_neg (by decide),
    if_pos (by rfl)]
  simp [quoteUnits]

/-- Escaping a string does not touch its white space. -/
theorem collapseCopied_escapeUnits (text : JsString) :
    collapseCopied false (escapeUnits text) = escapeUnits (collapseCopied false text) := by
  have hquoted := collapseSpaces_escapeUnits false text []
  rw [collapseSpaces_append_cons (by decide)] at hquoted
  rw [← collapseSpaces_eq_collapseCopied (escapeUnits_printable text)]
  exact (List.append_inj_left' hquoted rfl)

theorem written_eq_iff (text : JsString) : escapeUnits (collapseCopied false text) = text ↔
    SingleSpaced text ∧ escapeUnits text = text := by
  rw [← collapseCopied_eq_self_iff]
  constructor
  · intro h
    have hcollapsed : collapseCopied false text = text := by
      conv_lhs => rw [← h]
      rw [collapseCopied_escapeUnits, collapseCopied_idem, h]
    rw [hcollapsed] at h
    exact ⟨hcollapsed, h⟩
  · rintro ⟨hcollapsed, hescaped⟩
    rw [hcollapsed, hescaped]

theorem parseLeetCodeValue_iff {v : Json} (hv : IsJsValue E v) :
    parseLeetCodeValue (jsonParse E) E.number (collapseJson v).stringify = .ok (ofJson v) ↔ ComesThrough v := by
  have hboth : ComesThrough v ↔ ((∀ s ∈ v.texts, SingleSpaced s) ∧ ∀ x ∈ numbersOf v, NotNegativeZero x) ∧
      StandsAlone v := ⟨fun h => ⟨⟨h.texts, h.numbers⟩, h.alone⟩, fun h => ⟨h.1.1, h.1.2, h.2⟩⟩
  match v, hv with
  | .null, _ | .bool true, _ | .bool false, _ =>
    exact iff_of_true rfl ⟨List.forall_mem_nil _, List.forall_mem_nil _, trivial⟩
  | .arr items, hv =>
    rw [hboth, parseLeetCodeValue_brackets (Or.inl rfl), Except.ok.injEq, reread_collapse_iff _ hv]
    exact (and_iff_left trivial).symm
  | .obj members, hv =>
    rw [hboth, parseLeetCodeValue_brackets (Or.inr rfl), Except.ok.injEq, reread_collapse_iff _ hv]
    exact (and_iff_left trivial).symm
  | .num x, hv =>
    obtain ⟨c, r, htext, hc⟩ := Harness.toUnits_head x
    have hrange := Harness.number_head_range hc
    have hhead : ∀ d, 57 < d → x.toUnits.head? ≠ some d := by
      intro d hd heq
      rw [htext, List.head?_cons, Option.some.injEq] at heq
      omega
    have hreread := reread_collapse_iff (E := E) (.num x) hv
    rw [hboth, ← hreread]
    have hscalar : parseLeetCodeValue (jsonParse E) E.number (Json.num x).stringify = parseScalarValue E.number x.toUnits :=
      parseLeetCodeValue_scalar (hhead 91 (by decide)) (hhead 123 (by decide))
    rw [collapseJson, hscalar, parseScalarValue_number]
    have hplain : StandsAlone (.num x) ↔ isDecimalText x.toUnits = true := (isDecimalText_toUnits x).symm
    rw [hplain]
    by_cases hdecimal : isDecimalText x.toUnits = true
    · rw [if_pos hdecimal, Except.ok.injEq]
      exact (and_iff_left hdecimal).symm
    · rw [if_neg hdecimal]
      exact iff_of_false (fun h => by cases h) fun h => hdecimal h.2
  | .str text, _ =>
    have hhead : ∀ d, d ≠ 34 → (Json.str (collapseCopied false text)).stringify.head? ≠ some d :=
      fun d hd heq => hd (Option.some.inj heq).symm
    have hscalar : parseLeetCodeValue (jsonParse E) E.number (Json.str (collapseCopied false text)).stringify =
        parseScalarValue E.number (quoteUnits (collapseCopied false text)) :=
      parseLeetCodeValue_scalar (hhead 91 (by decide)) (hhead 123 (by decide))
    rw [collapseJson, hscalar, parseScalarValue_string, Except.ok.injEq, ofJson, ParsedJson.str.injEq, written_eq_iff, hboth]
    simp [Json.texts, numbersOf, StandsAlone]

/-! ## The whole text -/

def collapseAssignment (x : JsString × Json) : JsString × Json := (x.1, collapseJson x.2)

theorem collapseSpaces_true {text : JsString} (h : ∀ c ∈ text.head?, isRegexSpace c = false) :
    collapseSpaces true text = collapseSpaces false text := by
  cases text with
  | nil => rfl
  | cons c rest => rw [collapseSpaces_cons (h c (by simp)), collapseSpaces_cons (h c (by simp))]

theorem collapseSpaces_assignmentText {x : JsString × Json} (hname : IsIdentifier x.1) (rest : JsString) :
    collapseSpaces false (assignmentText x ++ rest) =
      assignmentText (collapseAssignment x) ++ collapseSpaces false rest := by
  have hunits : ∀ c ∈ x.1, isRegexSpace c = false := fun c hc => (isIdentifierUnit_neutral (hname.units c hc)).2.1
  have hequals : ∀ r : JsString, collapseSpaces false (js " = " ++ r) = js " = " ++ collapseSpaces true r := by
    intro r
    simp [js, collapseSpaces, isRegexSpace]
  have hvalue : collapseSpaces true (x.2.stringify ++ rest) = collapseSpaces false (x.2.stringify ++ rest) := by
    obtain ⟨c, r, htext, -, hc, -⟩ := stringify_head x.2
    rw [htext]
    refine collapseSpaces_true fun d hd => ?_
    obtain rfl := Option.mem_some_iff.mp hd
    exact hc
  rw [assignmentText, List.append_assoc, List.append_assoc, collapseSpaces_append hunits, hequals, hvalue,
    collapseSpaces_stringify]
  simp [assignmentText, collapseAssignment]

theorem collapseSpaces_assignmentsText {xs : List (JsString × Json)} (h : ∀ x ∈ xs, IsIdentifier x.1) :
    collapseSpaces false (assignmentsText xs) = assignmentsText (xs.map collapseAssignment) := by
  induction xs with
  | nil => rfl
  | cons x xs ih =>
    rw [List.forall_mem_cons] at h
    cases xs with
    | nil =>
      have hone := collapseSpaces_assignmentText h.1 []
      rw [List.append_nil] at hone
      rw [assignmentsText_singleton, hone, List.map_singleton, assignmentsText_singleton]
      exact List.append_nil _
    | cons y ys =>
      have hcomma : ∀ r : JsString, collapseSpaces false (44 :: 32 :: r) = 44 :: 32 :: collapseSpaces true r := by
        intro r
        simp [collapseSpaces, isRegexSpace]
      have hnext : collapseSpaces true (assignmentsText (y :: ys)) = collapseSpaces false (assignmentsText (y :: ys)) := by
        refine collapseSpaces_true fun d hd => ?_
        obtain ⟨c, hfirst, hc⟩ := (framed_assignmentsText h.2).first
        obtain rfl := Option.some.inj (hfirst.symm.trans hd)
        exact hc
      rw [assignmentsText_cons_cons, collapseSpaces_assignmentText h.1, hcomma, hnext, ih h.2, List.map_cons,
        List.map_cons, List.map_cons, assignmentsText_cons_cons]

theorem inputAssignments_assignmentsText {xs : List (JsString × Json)} (h : ∀ x ∈ xs, IsIdentifier x.1) :
    inputAssignments (assignmentsText xs) = (xs.map collapseAssignment).map assignmentText := by
  have hcollapsed : ∀ y ∈ xs.map collapseAssignment, IsIdentifier y.1 := by
    intro y hy
    obtain ⟨x, hx, rfl⟩ := List.mem_map.mp hy
    exact h x hx
  have htrim : jsTrim (assignmentsText (xs.map collapseAssignment)) = assignmentsText (xs.map collapseAssignment) := by
    cases xs with
    | nil => rfl
    | cons x xs => exact (framed_assignmentsText hcollapsed).jsTrim
  rw [inputAssignments, collapseSpaces_assignmentsText h, htrim, splitTopLevel_assignmentsText hcollapsed]

theorem assignmentText_eq (x : JsString × Json) : assignmentText x = x.1 ++ 32 :: 61 :: 32 :: x.2.stringify := by
  simp [assignmentText, js]

theorem IsIdentifier.noEquals {name : JsString} (h : IsIdentifier name) : ∀ c ∈ name, decide (c ≠ 61) = true :=
  fun c hc => decide_eq_true (isIdentifierUnit_neutral (h.units c hc)).2.2

theorem assignedName_assignmentText {x : JsString × Json} (hname : IsIdentifier x.1) :
    assignedName (assignmentText x) = x.1 := by
  have htake : (assignmentText x).takeWhile (· ≠ 61) = x.1 ++ [32] := by
    rw [assignmentText_eq, List.takeWhile_append_of_pos hname.noEquals]
    rfl
  rw [assignedName, htake]
  exact hname.framed.jsTrim_around (a := []) (List.forall_mem_nil _) (by decide)

theorem parseAssignment_assignmentText {parse : JsString → Except JsString ParsedJson} {number : JsString → ParsedJson}
    {x : JsString × Json} (hname : IsIdentifier x.1) :
    parseAssignment parse number (assignmentText x) =
      (parseLeetCodeValue parse number x.2.stringify).map fun value => (x.1, value) := by
  have hequals : 61 ∈ assignmentText x := by
    rw [assignmentText_eq]
    simp
  have hdrop : ((assignmentText x).dropWhile (· ≠ 61)).drop 1 = 32 :: x.2.stringify := by
    rw [assignmentText_eq, List.dropWhile_append_of_pos hname.noEquals]
    rfl
  have hvalue : jsTrim (32 :: x.2.stringify) = x.2.stringify := by
    have htrimmed := jsTrim_spaces_append (a := [32]) (by decide) x.2.stringify
    rw [jsTrim_stringify] at htrimmed
    exact htrimmed
  unfold parseAssignment
  rw [if_neg (not_not.mpr hequals), hdrop, hvalue, assignedName_assignmentText hname]
  cases parseLeetCodeValue parse number x.2.stringify <;> rfl

/-! ## The record -/

/-- A name is no array index. -/
theorem arrayIndex_identifier {name : JsString} (h : IsIdentifier name) : arrayIndex name = none := by
  unfold arrayIndex
  dsimp only
  rw [if_neg]
  rintro ⟨hdecimal, -⟩
  obtain ⟨c, r, rfl⟩ := List.exists_cons_of_ne_nil h.nonempty
  have hfirst := h.first c (by simp)
  have hdigit : ∀ n, ∀ d ∈ decimalUnits n, isDigitUnit d = true := by
    intro n d hd
    unfold decimalUnits at hd
    split_ifs at hd
    · obtain rfl := List.mem_singleton.mp hd
      decide
    · exact Harness.digits_digitUnits n d hd
  have hunit := hdigit _ c (hdecimal ▸ List.mem_cons_self)
  rw [hfirst] at hunit
  cases hunit

theorem fromEntries_identifiers {β : Type} {entries : List (JsString × β)} (hnodup : (entries.map Prod.fst).Nodup)
    (h : ∀ name ∈ entries.map Prod.fst, IsIdentifier name) : fromEntries entries = entries := by
  have hnone : ∀ m ∈ entries, (arrayIndex m.1).isSome = false := by
    intro m hm
    rw [arrayIndex_identifier (h m.1 (List.mem_map_of_mem hm))]
    rfl
  have hindexes : entries.filter (fun m => (arrayIndex m.1).isSome) = [] := by
    rw [List.filter_eq_nil_iff]
    intro m hm
    rw [hnone m hm]
    exact Bool.false_ne_true
  have hothers : entries.filter (fun m => !(arrayIndex m.1).isSome) = entries := by
    rw [List.filter_eq_self]
    intro m hm
    rw [hnone m hm]
    rfl
  refine fromEntries_eq_self hnodup ?_
  rw [propertyOrder, hindexes, hothers]
  rfl

theorem mapM_ok_iff {α β ε : Type} {f : α → Except ε β} {g : α → β} {l : List α} :
    l.mapM f = .ok (l.map g) ↔ ∀ a ∈ l, f a = .ok (g a) := by
  constructor
  · intro h
    have heach := forall₂_of_mapM h
    rw [List.forall₂_map_right_iff, List.forall₂_same] at heach
    exact heach
  · intro h
    induction l with
    | nil => rfl
    | cons a l ih =>
      rw [List.forall_mem_cons] at h
      rw [List.mapM_cons, h.1, ih h.2]
      rfl

/-- **The assignments of an input** come back exactly when every value comes through. -/
theorem input_assignments_iff (E : JsEngine) {assignments : List (JsString × Json)}
    (hnodup : (assignments.map Prod.fst).Nodup) (hnames : ∀ x ∈ assignments, IsIdentifier x.1)
    (hvalues : ∀ x ∈ assignments, IsJsValue E x.2) :
    parseInputAssignments (jsonParse E) E.number (assignmentsText assignments) (assignments.map Prod.fst) =
      .ok (assignments.map fun x => (x.1, ofJson x.2)) ↔ ∀ x ∈ assignments, ComesThrough x.2 := by
  have hcollapsed : ∀ x ∈ assignments, parseAssignment (jsonParse E) E.number (assignmentText (collapseAssignment x)) =
      (parseLeetCodeValue (jsonParse E) E.number (collapseJson x.2).stringify).map fun value => (x.1, value) :=
    fun x hx => parseAssignment_assignmentText (x := collapseAssignment x) (hnames x hx)
  have hmapM : (inputAssignments (assignmentsText assignments)).mapM (parseAssignment (jsonParse E) E.number) =
      assignments.mapM fun x => parseAssignment (jsonParse E) E.number (assignmentText (collapseAssignment x)) := by
    rw [inputAssignments_assignmentsText hnames, List.map_map, List.mapM_map]
    rfl
  have heach : (∀ x ∈ assignments, parseAssignment (jsonParse E) E.number (assignmentText (collapseAssignment x)) =
      .ok (x.1, ofJson x.2)) ↔ ∀ x ∈ assignments, ComesThrough x.2 := by
    refine forall₂_congr fun x hx => ?_
    rw [hcollapsed x hx, ← parseLeetCodeValue_iff (hvalues x hx)]
    cases parseLeetCodeValue (jsonParse E) E.number (collapseJson x.2).stringify with
    | error message => exact iff_of_false (fun h => by cases h) fun h => by cases h
    | ok value =>
      show Except.ok (x.1, value) = _ ↔ _
      rw [Except.ok.injEq, Except.ok.injEq, Prod.mk.injEq]
      exact and_iff_right rfl
  have hidentifiers : ∀ name ∈ assignments.map Prod.fst, IsIdentifier name := by
    intro name hname
    obtain ⟨x, hx, rfl⟩ := List.mem_map.mp hname
    exact hnames x hx
  have hkeys : (assignments.map fun x => (x.1, ofJson x.2)).map Prod.fst = assignments.map Prod.fst := by
    rw [List.map_map]
    rfl
  have hall := mapM_ok_iff (g := fun x => (x.1, ofJson x.2)) (l := assignments)
    (f := fun x => parseAssignment (jsonParse E) E.number (assignmentText (collapseAssignment x)))
  rw [← heach, ← hall]
  unfold parseInputAssignments
  rw [hmapM]
  constructor
  · intro h
    split at h
    · cases h
    · rename_i parsed hparsed
      have hparsedKeys : parsed.map Prod.fst = assignments.map Prod.fst := by
        rw [map_eq_of_mapM (fun _ _ => parseAssignment_name) hparsed]
        exact List.map_congr_left fun x hx => assignedName_assignmentText (x := collapseAssignment x) (hnames x hx)
      dsimp only at h
      rw [fromEntries_identifiers (hparsedKeys ▸ hnodup) (hparsedKeys ▸ hidentifiers)] at h
      split at h
      · cases h
      · rw [hparsed, h]
  · intro h
    rw [h]
    dsimp only
    rw [fromEntries_identifiers (hkeys ▸ hnodup) (hkeys ▸ hidentifiers)]
    have hfound : (assignments.map Prod.fst).find? (fun name =>
        !isIn name (assignments.map fun x => (x.1, ofJson x.2))) = none := by
      rw [List.find?_eq_none]
      intro name hname
      simp [isIn, hkeys, hname]
    rw [hfound]

/-! ### An engine -/

theorem toUnits_ofDecimal {n : ℕ} (hn : n < 2 ^ 53) :
    Harness.decimalValue (JsNumber.ofDecimal false n).toUnits = n := by
  obtain ⟨z, hz⟩ := JsNumber.exists_stripZeros (digitUnits n).length n
  have hsignificand : (JsNumber.ofDecimal false n).significand = JsNumber.stripZeros (digitUnits n).length n := rfl
  generalize JsNumber.stripZeros (digitUnits n).length n = m at hz hsignificand
  unfold JsNumber.toUnits
  by_cases hzero : m = 0
  · rw [if_pos (hsignificand.trans hzero), hz, hzero, mul_zero]
    rfl
  · have hlength : (digitUnits n).length = z + (digitUnits m).length := by
      rw [hz]
      exact JsNumber.length_digitUnits_mul z (Nat.pos_of_ne_zero hzero)
    have hshort : (digitUnits n).length ≤ 21 := by
      rw [digitUnits, List.length_map, List.length_reverse]
      exact (Nat.digits_length_le_iff (by decide) n).mpr (hn.trans (by norm_num))
    have hexponent : (JsNumber.ofDecimal false n).exponent = (digitUnits n).length := rfl
    have hmagnitude : magnitudeUnits (JsNumber.ofDecimal false n).significand (JsNumber.ofDecimal false n).exponent =
        digitUnits m ++ zeroUnits z := by
      rw [hsignificand, hexponent, hlength]
      unfold magnitudeUnits
      dsimp only
      rw [if_pos ⟨by omega, by omega⟩]
      congr 2
      omega
    rw [if_neg (hsignificand ▸ hzero), hmagnitude]
    show Harness.decimalValue (digitUnits m ++ zeroUnits z) = n
    rw [Harness.decimalValue_append, Harness.decimalValue_digitUnits, Harness.decimalValue_zeroUnits, hz, zeroUnits,
      List.length_replicate]
    ring

theorem ofInt_of_lt {n : ℕ} (hn : n < 2 ^ 53) : ParsedJson.ofInt n = .finite (.ofDecimal false n) := by
  unfold ParsedJson.ofInt
  rw [numberOfInt_of_lt hn]

/-- An engine whose doubles are the natural numbers below 2^53. -/
def exampleEngine : JsEngine where
  IsDouble x := ∃ n : ℕ, n < 2 ^ 53 ∧ x = .ofDecimal false n
  number text := .ofInt (Harness.decimalValue text)
  complaint text := js "Unexpected token in JSON: " ++ text
  typeError := js "Cannot read properties of null"
  number_toUnits := by
    rintro x ⟨n, hn, rfl⟩
    have hsign : (JsNumber.ofDecimal false n).unsignedZero = .ofDecimal false n :=
      (unsignedZero_eq_iff _).mpr fun _ => rfl
    rw [toUnits_ofDecimal hn, ofInt_of_lt hn, hsign]

def exampleAssignments : List (JsString × Json) :=
  [(js "nums", .arr [.num (.ofDecimal false 7), .num (.ofDecimal false 40)]), (js "s", .str (js "a, b = [c")),
    (js "config", .obj [(js "label", .str (js "x \"y\"")), (js "limit", .null)])]

theorem input_assignments_iff_example :
    parseInputAssignments (jsonParse exampleEngine) exampleEngine.number (assignmentsText exampleAssignments)
        (exampleAssignments.map Prod.fst) = .ok (exampleAssignments.map fun x => (x.1, ofJson x.2)) ↔
      ∀ x ∈ exampleAssignments, ComesThrough x.2 := by
  refine input_assignments_iff exampleEngine (by decide) ?_ ?_
  · intro x hx
    simp only [exampleAssignments, List.mem_cons, List.not_mem_nil, or_false] at hx
    rcases hx with rfl | rfl | rfl <;> exact ⟨by decide, by decide, by decide⟩
  · intro x hx
    simp only [exampleAssignments, List.mem_cons, List.not_mem_nil, or_false] at hx
    rcases hx with rfl | rfl | rfl
    · exact ⟨⟨7, by decide, rfl⟩, ⟨40, by decide, rfl⟩, trivial⟩
    · trivial
    · exact ⟨by decide, by rfl, trivial, trivial, trivial⟩

/-- The string of one quote comes back with the backslash of its text. -/
theorem escape_not_undone : ¬ ∀ (E : JsEngine) (assignments : List (JsString × Json)), assignments ≠ [] →
    (assignments.map Prod.fst).Nodup → (∀ x ∈ assignments, IsIdentifier x.1) →
      (∀ x ∈ assignments, IsJsValue E x.2) →
        parseInputAssignments (jsonParse E) E.number (assignmentsText assignments) (assignments.map Prod.fst) =
          .ok (assignments.map fun x => (x.1, ofJson x.2)) := by
  intro h
  have hread := h exampleEngine [(js "s", .str [34])] (List.cons_ne_nil _ _) (by decide)
    (List.forall_mem_singleton.mpr ⟨by decide, by decide, by decide⟩) (List.forall_mem_singleton.mpr trivial)
  have hkept : parseInputAssignments (jsonParse exampleEngine) exampleEngine.number
      (assignmentsText [(js "s", .str [34])]) ([(js "s", Json.str [34])].map Prod.fst) =
        .ok [(js "s", .str [92, 34])] := by rfl
  rw [hkept] at hread
  simp [ofJson] at hread

end CodeShare
