import CodeShare.Properties.Grading
import CodeShare.Properties.InputRoundTrip
import CodeShare.Services.Generation

/-! # Verified answers

A generated case is kept when the text of the verified answer is that of its expected output. The grader compares the
values instead. Texts tell the orders of members apart and write both zeros alike; the grader does neither.
-/

namespace CodeShare
set_option autoImplicit false

/-! ## Values that match -/

/-- The same value up to the orders of members and the signs of zeros. -/
def Matches : Json → Json → Prop
  | .null, .null => True
  | .bool a, .bool b => a = b
  | .num x, .num y => x.value = y.value
  | .str s, .str t => s = t
  | .arr items, .arr others => itemsMatch items others
  | .obj members, .obj others => members.length = others.length ∧ membersMatch members others
  | _, _ => False
where
  itemsMatch : List Json → List Json → Prop
    | [], [] => True
    | v :: items, w :: others => Matches v w ∧ itemsMatch items others
    | _, _ => False
  membersMatch : List (JsString × Json) → List (JsString × Json) → Prop
    | [], _ => True
    | (k, v) :: members, others =>
      (∃ other, others.find? (fun m => m.1 = k) = some other ∧ Matches v other.2) ∧ membersMatch members others

/-- Members at the same place have the same name. -/
def SameOrder : Json → Json → Prop
  | .arr items, .arr others => itemsInOrder items others
  | .obj members, .obj others => members.map Prod.fst = others.map Prod.fst ∧ membersInOrder members others
  | _, _ => True
where
  itemsInOrder : List Json → List Json → Prop
    | v :: items, w :: others => SameOrder v w ∧ itemsInOrder items others
    | _, _ => True
  membersInOrder : List (JsString × Json) → List (JsString × Json) → Prop
    | (_, v) :: members, (_, w) :: others => SameOrder v w ∧ membersInOrder members others
    | _, _ => True

/-- Zeros in the same position have the same sign. -/
def SameZeros : Json → Json → Prop
  | .num x, .num y => x.significand = 0 → y.significand = 0 → x.negative = y.negative
  | .arr items, .arr others => itemsSameZeros items others
  | .obj members, .obj others => membersSameZeros members others
  | _, _ => True
where
  itemsSameZeros : List Json → List Json → Prop
    | v :: items, w :: others => SameZeros v w ∧ itemsSameZeros items others
    | _, _ => True
  membersSameZeros : List (JsString × Json) → List (JsString × Json) → Prop
    | [], _ => True
    | (k, v) :: members, others =>
      (∀ other, others.find? (fun m => m.1 = k) = some other → SameZeros v other.2) ∧
        membersSameZeros members others

/-! ## The comparison of values -/

mutual
/-- `isDeepStrictEqual` tells zeros apart. -/
theorem isDeepStrictEqual_iff : ∀ a b : Json, isDeepStrictEqual a b = true ↔ Matches a b ∧ SameZeros a b
  | .null, b => by cases b <;> simp [isDeepStrictEqual, Matches, SameZeros]
  | .bool _, b => by cases b <;> simp [isDeepStrictEqual, Matches, SameZeros]
  | .num x, b => by
      cases b with
      | num y => exact JsNumber.sameValue_iff x y
      | _ => simp [isDeepStrictEqual, Matches]
  | .str _, b => by cases b <;> simp [isDeepStrictEqual, Matches, SameZeros]
  | .arr items, b => by
      cases b with
      | arr others => exact itemsEqual_iff items others
      | _ => simp [isDeepStrictEqual, Matches]
  | .obj members, b => by
      cases b with
      | obj others =>
        rw [isDeepStrictEqual, Bool.and_eq_true, decide_eq_true_eq, membersEqual_iff members others, Matches, SameZeros,
          and_assoc]
      | _ => simp [isDeepStrictEqual, Matches]
theorem itemsEqual_iff : ∀ items others : List Json, isDeepStrictEqual.itemsEqual items others = true ↔
    Matches.itemsMatch items others ∧ SameZeros.itemsSameZeros items others
  | [], [] => by simp [isDeepStrictEqual.itemsEqual, Matches.itemsMatch, SameZeros.itemsSameZeros]
  | [], _ :: _ => by simp [isDeepStrictEqual.itemsEqual, Matches.itemsMatch]
  | _ :: _, [] => by simp [isDeepStrictEqual.itemsEqual, Matches.itemsMatch]
  | v :: items, w :: others => by
      rw [isDeepStrictEqual.itemsEqual, Bool.and_eq_true, isDeepStrictEqual_iff v w, itemsEqual_iff items others,
        Matches.itemsMatch, SameZeros.itemsSameZeros]
      exact and_and_and_comm
theorem membersEqual_iff : ∀ members others : List (JsString × Json),
    isDeepStrictEqual.membersEqual members others = true ↔
      Matches.membersMatch members others ∧ SameZeros.membersSameZeros members others
  | [], _ => by simp [isDeepStrictEqual.membersEqual, Matches.membersMatch, SameZeros.membersSameZeros]
  | (k, v) :: members, others => by
      rw [isDeepStrictEqual.membersEqual, Bool.and_eq_true, membersEqual_iff members others, Matches.membersMatch,
        SameZeros.membersSameZeros]
      cases others.find? fun m => m.1 = k with
      | none => simp
      | some other =>
        have hvalue := isDeepStrictEqual_iff v other.2
        simp only [hvalue, Option.some.injEq, exists_eq_left', forall_eq']
        exact and_and_and_comm
end

/-! ## The comparison of texts -/

section
variable {E : JsEngine}

theorem value_unsignedZero (x : JsNumber) : x.unsignedZero.value = x.value := by
  rw [JsNumber.value_eq_iff]
  by_cases hzero : x.significand = 0
  · exact .inl ⟨hzero, hzero⟩
  · refine .inr ⟨?_, rfl, rfl⟩
    simp [JsNumber.unsignedZero, hzero]

theorem rereadMembers_keys (members : List (JsString × Json)) :
    (rereadJson.rereadMembers E members).map Prod.fst = members.map Prod.fst := by
  rw [rereadMembers_eq_map, List.map_map]
  rfl

/-- An object whose names are distinct and in order is read as it is written. -/
theorem rereadJson_obj {members : List (JsString × Json)} (h : IsJsValue E (.obj members)) :
    rereadJson E (.obj members) = .obj (rereadJson.rereadMembers E members) := by
  have hkeys := rereadMembers_keys (E := E) members
  rw [rereadJson, fromEntries_eq_self (hkeys.symm ▸ h.1) (propertyOrder_of_keys hkeys h.1 h.2.1)]

mutual
/-- Values that are read alike have their members in the same order. -/
theorem matches_of_reread : ∀ a b : Json, IsJsValue E a → IsJsValue E b → rereadJson E a = rereadJson E b →
    Matches a b ∧ SameOrder a b
  | .num x, b => by
      intro hx hb h
      rw [rereadJson, E.number_toUnits x hx] at h
      cases b with
      | num y =>
        rw [rereadJson, E.number_toUnits y hb, ParsedJson.finite.injEq] at h
        refine ⟨?_, trivial⟩
        show x.value = y.value
        rw [← value_unsignedZero x, h, value_unsignedZero y]
      | _ => cases h
  | .null, b => by
      intro _ hb h
      cases b with
      | null => exact ⟨trivial, trivial⟩
      | num y => rw [rereadJson, rereadJson, E.number_toUnits y hb] at h; cases h
      | _ => cases h
  | .bool _, b => by
      intro _ hb h
      cases b with
      | bool _ => exact ⟨ParsedJson.bool.inj h, trivial⟩
      | num y => rw [rereadJson, rereadJson, E.number_toUnits y hb] at h; cases h
      | _ => cases h
  | .str _, b => by
      intro _ hb h
      cases b with
      | str _ => exact ⟨ParsedJson.str.inj h, trivial⟩
      | num y => rw [rereadJson, rereadJson, E.number_toUnits y hb] at h; cases h
      | _ => cases h
  | .arr items, b => by
      intro ha hb h
      cases b with
      | arr others => exact matches_of_reread_items items others ha hb (ParsedJson.arr.inj h)
      | num y => rw [rereadJson, rereadJson, E.number_toUnits y hb] at h; cases h
      | _ => cases h
  | .obj members, b => by
      intro ha hb h
      cases b with
      | obj others =>
        rw [rereadJson_obj ha, rereadJson_obj hb, ParsedJson.obj.injEq] at h
        obtain ⟨hmatch, horder⟩ := matches_of_reread_members members others others ha.2.2 hb.2.2 hb.1
          (List.Subset.refl _) h
        have hkeys : members.map Prod.fst = others.map Prod.fst := by
          rw [← rereadMembers_keys (E := E), h, rereadMembers_keys]
        have hlength : members.length = others.length := by simpa using congrArg List.length hkeys
        exact ⟨⟨hlength, hmatch⟩, hkeys, horder⟩
      | num y => rw [rereadJson, rereadJson, E.number_toUnits y hb] at h; cases h
      | _ => cases h
theorem matches_of_reread_items : ∀ items others : List Json, IsJsValue.itemsAre E items →
    IsJsValue.itemsAre E others → rereadJson.rereadItems E items = rereadJson.rereadItems E others →
      Matches.itemsMatch items others ∧ SameOrder.itemsInOrder items others
  | [], [] => fun _ _ _ => ⟨trivial, trivial⟩
  | [], _ :: _ => fun _ _ h => nomatch h
  | _ :: _, [] => fun _ _ h => nomatch h
  | v :: items, w :: others => by
      intro ha hb h
      rw [rereadJson.rereadItems, rereadJson.rereadItems, List.cons.injEq] at h
      obtain ⟨hmatch, horder⟩ := matches_of_reread v w ha.1 hb.1 h.1
      obtain ⟨hmatches, horders⟩ := matches_of_reread_items items others ha.2 hb.2 h.2
      exact ⟨⟨hmatch, hmatches⟩, horder, horders⟩
theorem matches_of_reread_members : ∀ members others all : List (JsString × Json), IsJsValue.membersAre E members →
    IsJsValue.membersAre E others → (all.map Prod.fst).Nodup → others ⊆ all →
      rereadJson.rereadMembers E members = rereadJson.rereadMembers E others →
        Matches.membersMatch members all ∧ SameOrder.membersInOrder members others
  | [], [], _ => fun _ _ _ _ _ => ⟨trivial, trivial⟩
  | [], _ :: _, _ => fun _ _ _ _ h => nomatch h
  | _ :: _, [], _ => fun _ _ _ _ h => nomatch h
  | (k, v) :: members, (k', w) :: others, all => by
      intro ha hb hnodup hall h
      rw [rereadJson.rereadMembers, rereadJson.rereadMembers, List.cons.injEq, Prod.mk.injEq] at h
      obtain ⟨⟨rfl, hvalue⟩, hrest⟩ := h
      obtain ⟨hmatch, horder⟩ := matches_of_reread v w ha.1 hb.1 hvalue
      obtain ⟨hmatches, horders⟩ := matches_of_reread_members members others all ha.2 hb.2 hnodup
        (List.subset_of_cons_subset hall) hrest
      have hfound := Enumeration.find_of_mem hnodup (hall List.mem_cons_self)
      exact ⟨⟨⟨(k, w), hfound, hmatch⟩, hmatches⟩, horder, horders⟩
end

theorem layoutItems_congr {quote : JsString → List ℕ} {items others : List Json}
    (h : items.map (Json.layout quote) = others.map (Json.layout quote)) :
    Json.layout.layoutItems quote items = Json.layout.layoutItems quote others := by
  induction items generalizing others with
  | nil => rw [List.map_eq_nil_iff.mp h.symm]
  | cons v items ih =>
    cases others with
    | nil => cases h
    | cons w others =>
      obtain ⟨hvalue, hrest⟩ := List.cons.inj h
      cases items with
      | nil =>
        obtain rfl := List.map_eq_nil_iff.mp hrest.symm
        rw [Json.layout.layoutItems, Json.layout.layoutItems, hvalue]
      | cons v' items =>
        cases others with
        | nil => cases hrest
        | cons w' others => rw [Json.layoutItems_cons_cons, Json.layoutItems_cons_cons, hvalue, ih hrest]

theorem layoutMembers_congr {quote : JsString → List ℕ} {members others : List (JsString × Json)}
    (h : members.map (fun m => (m.1, Json.layout quote m.2)) = others.map fun m => (m.1, Json.layout quote m.2)) :
    Json.layout.layoutMembers quote members = Json.layout.layoutMembers quote others := by
  induction members generalizing others with
  | nil => rw [List.map_eq_nil_iff.mp h.symm]
  | cons m members ih =>
    cases others with
    | nil => cases h
    | cons n others =>
      obtain ⟨k, v⟩ := m
      obtain ⟨k', w⟩ := n
      obtain ⟨hmember, hrest⟩ := List.cons.inj h
      obtain ⟨rfl, hvalue⟩ := Prod.mk.inj hmember
      cases members with
      | nil =>
        obtain rfl := List.map_eq_nil_iff.mp hrest.symm
        rw [Json.layout.layoutMembers, Json.layout.layoutMembers, hvalue]
      | cons m' members =>
        cases others with
        | nil => cases hrest
        | cons n' others => rw [Json.layoutMembers_cons_cons, Json.layoutMembers_cons_cons, hvalue, ih hrest]

theorem toUnits_eq_of_value {x y : JsNumber} (h : x.value = y.value) : x.toUnits = y.toUnits := by
  unfold JsNumber.toUnits
  rcases (JsNumber.value_eq_iff x y).mp h with ⟨hx, hy⟩ | ⟨hnegative, hsignificand, hexponent⟩
  · rw [if_pos hx, if_pos hy]
  · rw [hnegative, hsignificand, hexponent]

mutual
/-- Values that match in one order of their members are written alike. -/
theorem stringify_eq_of_matches : ∀ a b : Json, IsJsValue E b → Matches a b → SameOrder a b →
    a.stringify = b.stringify
  | .num x, b => by
      intro _ h _
      cases b with
      | num y => exact toUnits_eq_of_value h
      | _ => cases h
  | .null, b => by
      intro _ h _
      cases b with
      | null => rfl
      | _ => cases h
  | .bool _, b => by
      intro _ h _
      cases b with
      | bool _ => rw [show _ = _ from h]
      | _ => cases h
  | .str _, b => by
      intro _ h _
      cases b with
      | str _ => rw [show _ = _ from h]
      | _ => cases h
  | .arr items, b => by
      intro hb h horder
      cases b with
      | arr others =>
        show 91 :: Json.layout.layoutItems quoteUnits items = 91 :: Json.layout.layoutItems quoteUnits others
        rw [layoutItems_congr (layout_items_eq_of_matches items others hb h horder)]
      | _ => cases h
  | .obj members, b => by
      intro hb h horder
      cases b with
      | obj others =>
        show 123 :: Json.layout.layoutMembers quoteUnits members = 123 :: Json.layout.layoutMembers quoteUnits others
        rw [layoutMembers_congr (layout_members_eq_of_matches members others others hb.2.2 hb.1 (List.Subset.refl _)
          h.2 horder.1 horder.2)]
      | _ => cases h
theorem layout_items_eq_of_matches : ∀ items others : List Json, IsJsValue.itemsAre E others →
    Matches.itemsMatch items others → SameOrder.itemsInOrder items others →
      items.map (Json.layout quoteUnits) = others.map (Json.layout quoteUnits)
  | [], [] => fun _ _ _ => rfl
  | [], _ :: _ => fun _ h _ => h.elim
  | _ :: _, [] => fun _ h _ => h.elim
  | v :: items, w :: others => by
      intro hb h horder
      have hvalue : Json.layout quoteUnits v = Json.layout quoteUnits w :=
        stringify_eq_of_matches v w hb.1 h.1 horder.1
      rw [List.map_cons, List.map_cons, hvalue, layout_items_eq_of_matches items others hb.2 h.2 horder.2]
theorem layout_members_eq_of_matches : ∀ members others all : List (JsString × Json),
    IsJsValue.membersAre E others → (all.map Prod.fst).Nodup → others ⊆ all → Matches.membersMatch members all →
      members.map Prod.fst = others.map Prod.fst → SameOrder.membersInOrder members others →
        members.map (fun m => (m.1, Json.layout quoteUnits m.2)) =
          others.map fun m => (m.1, Json.layout quoteUnits m.2)
  | [], [], _ => fun _ _ _ _ _ _ => rfl
  | [], _ :: _, _ => fun _ _ _ _ h _ => nomatch h
  | _ :: _, [], _ => fun _ _ _ _ h _ => nomatch h
  | (k, v) :: members, (k', w) :: others, all => by
      intro hb hnodup hall h hkeys horder
      rw [List.map_cons, List.map_cons, List.cons.injEq] at hkeys
      obtain ⟨rfl, hnames⟩ := hkeys
      obtain ⟨⟨other, hother, hmatch⟩, hrest⟩ := h
      obtain rfl := Option.some.inj (hother.symm.trans (Enumeration.find_of_mem hnodup (hall List.mem_cons_self)))
      have hvalue : Json.layout quoteUnits v = Json.layout quoteUnits w :=
        stringify_eq_of_matches v w hb.1 hmatch horder.1
      rw [List.map_cons, List.map_cons, hvalue, layout_members_eq_of_matches members others all hb.2 hnodup
        (List.subset_of_cons_subset hall) hrest hnames horder.2]
end

/-- `JSON.stringify` tells the orders of members apart. -/
theorem stringify_eq_iff {a b : Json} (ha : IsJsValue E a) (hb : IsJsValue E b) :
    a.stringify = b.stringify ↔ Matches a b ∧ SameOrder a b := by
  constructor
  · intro h
    have hread : jsonParse E a.stringify = jsonParse E b.stringify := by rw [h]
    rw [jsonParse_stringify, jsonParse_stringify, Except.ok.injEq] at hread
    exact matches_of_reread a b ha hb hread
  · rintro ⟨hmatch, horder⟩
    exact stringify_eq_of_matches a b hb hmatch horder

end

/-! ## The generator and the grader -/

mutual
/-- No value becomes another one when it is parsed. -/
theorem toJson_ofJson : ∀ v : Json, (ofJson v).toJson = v
  | .null => rfl
  | .bool _ => rfl
  | .num _ => rfl
  | .str _ => rfl
  | .arr items => congrArg Json.arr (toJson_ofItems items)
  | .obj members => congrArg Json.obj (toJson_ofMembers members)
theorem toJson_ofItems : ∀ items : List Json, ParsedJson.toJson.itemsToJson (ofJson.ofItems items) = items
  | [] => rfl
  | v :: items => congrArg₂ List.cons (toJson_ofJson v) (toJson_ofItems items)
theorem toJson_ofMembers : ∀ members : List (JsString × Json),
    ParsedJson.toJson.membersToJson (ofJson.ofMembers members) = members
  | [] => rfl
  | (k, v) :: members => congrArg₂ List.cons (congrArg (Prod.mk k) (toJson_ofJson v)) (toJson_ofMembers members)
end

theorem verifyOneCase_iff {cfg : Generation.GeneratorConfig} {testCase : ParsedJson} {raw : JsString} {a b : Json}
    (hanswer : cfg.parse (jsTrim raw) = some (ofJson a))
    (hcase : testCase.get (js "expectedOutput") = some (ofJson b)) :
    Generation.verifyOneCase cfg testCase (some raw) = true ↔ a.stringify = b.stringify := by
  unfold Generation.verifyOneCase
  rw [Option.bind_some, hanswer, hcase]
  simp [ParsedJson.stringify, toJson_ofJson]

/-- The graded result of a returned value. -/
theorem graded_returned {results : List HarnessCase} {testCases : List TestCase} {graded : List GradedHarnessCase}
    (hgraded : gradeHarnessResults results testCases = some graded) {i : ℕ} {elapsedMs : Option JsNumber} {a b : Json}
    {gotRepr : Option JsString} (hresult : .ok i elapsedMs a gotRepr ∈ results) {testCase : TestCase}
    (htestCase : testCases[i]? = some testCase) (hexpected : testCase.expectedOutput = some b) :
    ∃ g, graded[i]? = some g ∧ (g.passed = true ↔ isDeepStrictEqual a b = true) := by
  by_cases hexact : Enumeration.Enumerates HarnessCase.index testCases.length results
  · rw [gradeHarnessResults_eq hexact, Option.some.injEq] at hgraded
    have hlist := gradedList_of_enumerates hexact
    rw [hgraded] at hlist
    obtain ⟨hlt, -⟩ := List.getElem?_eq_some_iff.mp htestCase
    rw [← hlist.length_eq] at hlt
    obtain ⟨own, hown, hindex, hgrade⟩ := hlist.own i hlt
    obtain rfl := hexact.eq_of_index hown hresult hindex
    have houtput : expectedOutputAt testCases i = some b := by
      rw [expectedOutputAt, Int.toNat_natCast, htestCase, Option.bind_some, hexpected]
    refine ⟨graded[i], List.getElem?_eq_getElem hlt, ?_⟩
    rw [hgrade, gradeOwn, gradeHarnessCase_passed]
    show (expectedOutputAt testCases i).any (isDeepStrictEqual a) = true ↔ _
    rw [houtput, Option.any_some]
  · rw [gradeHarnessResults_eq_none hexact] at hgraded
    cases hgraded

/-- **The verification agrees with the grading** on an answer and an expected output exactly when they differ in more
than the orders of members and the signs of zeros, or agree in both of these, or in neither. -/
theorem verification_is_grading_iff (E : JsEngine) {a b : Json} (ha : IsJsValue E a) (hb : IsJsValue E b)
    {cfg : Generation.GeneratorConfig} {generated : ParsedJson} {raw : JsString}
    (hanswer : cfg.parse (jsTrim raw) = some (ofJson a))
    (hgenerated : generated.get (js "expectedOutput") = some (ofJson b))
    {results : List HarnessCase} {testCases : List TestCase} {graded : List GradedHarnessCase}
    (hgraded : gradeHarnessResults results testCases = some graded) {i : ℕ} {elapsedMs : Option JsNumber}
    {gotRepr : Option JsString} (hresult : .ok i elapsedMs a gotRepr ∈ results) {testCase : TestCase}
    (htestCase : testCases[i]? = some testCase) (hexpected : testCase.expectedOutput = some b) :
    ∃ g, graded[i]? = some g ∧
      ((Generation.verifyOneCase cfg generated (some raw) = true ↔ g.passed = true) ↔
        (Matches a b → (SameOrder a b ↔ SameZeros a b))) := by
  obtain ⟨g, hg, hpassed⟩ := graded_returned hgraded hresult htestCase hexpected
  refine ⟨g, hg, ?_⟩
  rw [verifyOneCase_iff hanswer hgenerated, stringify_eq_iff ha hb, hpassed, isDeepStrictEqual_iff]
  tauto


/-! ## Two orders -/

def exampleAnswer : Json := .obj [(js "x", .bool true), (js "y", .null)]

def exampleOutput : Json := .obj [(js "y", .null), (js "x", .bool true)]

theorem exampleAnswer_value : IsJsValue exampleEngine exampleAnswer := ⟨by decide, rfl, trivial, trivial, trivial⟩

theorem exampleOutput_value : IsJsValue exampleEngine exampleOutput := ⟨by decide, rfl, trivial, trivial, trivial⟩

def exampleGeneratorConfig : Generation.GeneratorConfig := ⟨fun text => (jsonParse exampleEngine text).toOption, 10⟩

def exampleGenerated : ParsedJson := .obj [(js "input", .obj []), (js "expectedOutput", ofJson exampleOutput)]

theorem parse_exampleAnswer :
    exampleGeneratorConfig.parse (jsTrim exampleAnswer.stringify) = some (ofJson exampleAnswer) := by
  show (jsonParse exampleEngine (jsTrim exampleAnswer.stringify)).toOption = _
  rw [jsTrim_stringify, jsonParse_stringify]
  rfl

def exampleHiddenCase : TestCase := ⟨js "t", 1, [], some exampleOutput, false, 0⟩

def exampleReturned : HarnessCase := .ok 0 none exampleAnswer none

theorem verification_is_grading_iff_example :
    ∃ g, [gradeHarnessCase exampleReturned (some exampleOutput)][0]? = some g ∧
      ((Generation.verifyOneCase exampleGeneratorConfig exampleGenerated (some exampleAnswer.stringify) = true ↔
          g.passed = true) ↔
        (Matches exampleAnswer exampleOutput →
          (SameOrder exampleAnswer exampleOutput ↔ SameZeros exampleAnswer exampleOutput))) :=
  verification_is_grading_iff exampleEngine exampleAnswer_value exampleOutput_value parse_exampleAnswer rfl
    (show gradeHarnessResults [exampleReturned] [exampleHiddenCase] =
      some [gradeHarnessCase exampleReturned (some exampleOutput)] by rfl)
    (List.mem_singleton_self _) (show [exampleHiddenCase][0]? = some exampleHiddenCase by rfl) rfl

/-- The members of a right answer in another order: the case is dropped, and a solution that returns it passes. -/
theorem other_order_dropped : ¬ ∀ (E : JsEngine) (a b : Json), IsJsValue E a → IsJsValue E b →
    ∀ (cfg : Generation.GeneratorConfig) (generated : ParsedJson) (raw : JsString),
      cfg.parse (jsTrim raw) = some (ofJson a) → generated.get (js "expectedOutput") = some (ofJson b) →
    ∀ (results : List HarnessCase) (testCases : List TestCase) (graded : List GradedHarnessCase),
      gradeHarnessResults results testCases = some graded →
    ∀ (i : ℕ) (elapsedMs : Option JsNumber) (gotRepr : Option JsString), .ok i elapsedMs a gotRepr ∈ results →
    ∀ testCase, testCases[i]? = some testCase → testCase.expectedOutput = some b →
      ∃ g, graded[i]? = some g ∧ (Generation.verifyOneCase cfg generated (some raw) = true ↔ g.passed = true) := by
  intro hclaim
  obtain ⟨g, hg, hverdict⟩ := hclaim exampleEngine exampleAnswer exampleOutput exampleAnswer_value
    exampleOutput_value exampleGeneratorConfig exampleGenerated exampleAnswer.stringify parse_exampleAnswer rfl
    [exampleReturned] [exampleHiddenCase] [gradeHarnessCase exampleReturned (some exampleOutput)] (by rfl) 0 none none
    (List.mem_singleton_self _) exampleHiddenCase (by rfl) rfl
  obtain rfl := Option.some.inj hg
  have hpassed : (gradeHarnessCase exampleReturned (some exampleOutput)).passed = true := by decide
  have htexts := (verifyOneCase_iff parse_exampleAnswer rfl).mp (hverdict.mpr hpassed)
  exact absurd htexts (by decide)

end CodeShare
