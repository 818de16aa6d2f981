import CodeShare.Properties.Grading
import CodeShare.Properties.HarnessAlignment

/-! # The verdict on a returned value

A returned value reaches the grader as `JSON.parse` reads it and as the schema rebuilds it, and is compared with
`isDeepStrictEqual`. The comparison tells the two zeros apart, `JSON.parse` rounds integers that are no doubles, and
the schema drops members named `__proto__`: the verdict is right exactly when none of these decides it.
-/

namespace CodeShare
open Harness
set_option autoImplicit false

section
variable (R : Runtime)

/-! ## Numbers -/

/-- The double that a number is read as. -/
def readNumber : PyVal R.Double → Option JsNumber
  | .int n => numberOfInt n
  | .float negative magnitude => some (R.decimal negative magnitude)
  | _ => none

/-- Reading the number as a double loses nothing. -/
def IsExact : PyVal R.Double → Prop
  | .int n => nearestDouble n.natAbs = n.natAbs
  | _ => True

/-- The number is numerically equal to a double; the zeros are equal. -/
def NumberIs (v : PyVal R.Double) (y : JsNumber) : Prop :=
  IsExact R v ∧ ∃ x, readNumber R v = some x ∧ x.value = y.value

/-- The number is read as this double, with this sign. -/
def ReadsAs (v : PyVal R.Double) (y : JsNumber) : Prop := ∃ x, readNumber R v = some x ∧ x.sameValue y = true

/-- A zero has the sign of the other zero. -/
def SignIs (v : PyVal R.Double) (y : JsNumber) : Prop :=
  ∀ x, readNumber R v = some x → x.significand = 0 → y.significand = 0 → x.negative = y.negative

variable {R} {v : PyVal R.Double} {y : JsNumber}

theorem ReadsAs.signIs (h : ReadsAs R v y) : SignIs R v y := by
  obtain ⟨x, hx, hsame⟩ := h
  intro x' hx'
  obtain rfl := Option.some.inj (hx.symm.trans hx')
  exact ((JsNumber.sameValue_iff x y).mp hsame).2

theorem NumberIs.readsAs (h : NumberIs R v y) (hsign : SignIs R v y) : ReadsAs R v y := by
  obtain ⟨-, x, hx, hvalue⟩ := h
  exact ⟨x, hx, (JsNumber.sameValue_iff x y).mpr ⟨hvalue, hsign x hx⟩⟩

theorem ReadsAs.numberIs (h : ReadsAs R v y) (hexact : IsExact R v) : NumberIs R v y := by
  obtain ⟨x, hx, hsame⟩ := h
  exact ⟨hexact, x, hx, ((JsNumber.sameValue_iff x y).mp hsame).1⟩

/-! ## Values -/

/-- A member that the schema drops. -/
def isProto (name : JsString) : Bool := name = js "__proto__"

variable (R)

/-- Two values of one structure, up to a relation between their numbers: arrays in order, objects as maps from
names. Some members may be left out on the left side. -/
def Alike (number : PyVal R.Double → JsNumber → Prop) (skips : JsString → Bool) : PyVal R.Double → Json → Prop
  | .none, .null => True
  | .bool a, .bool b => a = b
  | .int n, .num y => number (.int n) y
  | .float negative magnitude, .num y => number (.float negative magnitude) y
  | .str text, .str other => utf16 text = other
  | .list items, .arr others => itemsAlike items others
  | .dict entries, .obj members =>
    (entries.countP fun entry => !skips (utf16 entry.1)) = members.length ∧ entriesAlike entries members
  | _, _ => False
where
  itemsAlike : List (PyVal R.Double) → List Json → Prop
    | [], [] => True
    | v :: items, w :: others => Alike number skips v w ∧ itemsAlike items others
    | _, _ => False
  entriesAlike : List (List ℕ × PyVal R.Double) → List (JsString × Json) → Prop
    | [], _ => True
    | (k, v) :: entries, members =>
      (skips (utf16 k) = true ∨
        ∃ member, members.find? (fun m => m.1 = utf16 k) = some member ∧ Alike number skips v member.2) ∧
      entriesAlike entries members

/-- No member at any depth is named `__proto__`. -/
def NoProto : PyVal R.Double → Prop
  | .list items => itemsNoProto items
  | .dict entries => entriesNoProto entries
  | _ => True
where
  itemsNoProto : List (PyVal R.Double) → Prop
    | [] => True
    | v :: items => NoProto v ∧ itemsNoProto items
  entriesNoProto : List (List ℕ × PyVal R.Double) → Prop
    | [] => True
    | (k, v) :: entries => isProto (utf16 k) = false ∧ NoProto v ∧ entriesNoProto entries

/-- Equality of JSON values. -/
def JsonEquals (v : PyVal R.Double) (e : Json) : Prop := Alike R (NumberIs R) (fun _ => false) v e

variable {R} {number number' : PyVal R.Double → JsNumber → Prop} {skips : JsString → Bool}

mutual
theorem Alike.mono (h : ∀ v y, number v y → number' v y) :
    ∀ (v : PyVal R.Double) (e : Json), Alike R number skips v e → Alike R number' skips v e
  | .none, e => by cases e <;> exact id
  | .bool _, e => by cases e <;> exact id
  | .int _, e => by
      cases e with
      | num y => exact h _ y
      | _ => exact id
  | .float _ _, e => by
      cases e with
      | num y => exact h _ y
      | _ => exact id
  | .str _, e => by cases e <;> exact id
  | .list items, e => by
      cases e with
      | arr others => exact Alike.mono_items h items others
      | _ => exact id
  | .dict entries, e => by
      cases e with
      | obj members => exact And.imp_right (Alike.mono_entries h entries members)
      | _ => exact id
theorem Alike.mono_items (h : ∀ v y, number v y → number' v y) : ∀ (items : List (PyVal R.Double)) (others : List Json),
    Alike.itemsAlike R number skips items others → Alike.itemsAlike R number' skips items others
  | [], [] => id
  | [], _ :: _ => id
  | _ :: _, [] => id
  | v :: items, w :: others => And.imp (Alike.mono h v w) (Alike.mono_items h items others)
theorem Alike.mono_entries (h : ∀ v y, number v y → number' v y) :
    ∀ (entries : List (List ℕ × PyVal R.Double)) (members : List (JsString × Json)),
    Alike.entriesAlike R number skips entries members → Alike.entriesAlike R number' skips entries members
  | [], _ => id
  | (_, v) :: entries, members =>
      And.imp (Or.imp_right (Exists.imp fun member => And.imp_right (Alike.mono h v member.2)))
        (Alike.mono_entries h entries members)
end

mutual
/-- Without the name `__proto__` nothing is left out. -/
theorem alike_isProto_iff : ∀ (v : PyVal R.Double) (e : Json), NoProto R v →
    (Alike R number isProto v e ↔ Alike R number (fun _ => false) v e)
  | .none, e => by cases e <;> exact fun _ => Iff.rfl
  | .bool _, e => by cases e <;> exact fun _ => Iff.rfl
  | .int _, e => by cases e <;> exact fun _ => Iff.rfl
  | .float _ _, e => by cases e <;> exact fun _ => Iff.rfl
  | .str _, e => by cases e <;> exact fun _ => Iff.rfl
  | .list items, e => by
      cases e with
      | arr others => exact alike_isProto_items items others
      | _ => exact fun _ => Iff.rfl
  | .dict entries, e => by
      cases e with
      | obj members =>
        intro hno
        obtain ⟨hcount, halike⟩ := alike_isProto_entries entries members hno
        rw [Alike, Alike, hcount, halike]
      | _ => exact fun _ => Iff.rfl
theorem alike_isProto_items : ∀ (items : List (PyVal R.Double)) (others : List Json),
    NoProto.itemsNoProto R items → (Alike.itemsAlike R number isProto items others ↔
      Alike.itemsAlike R number (fun _ => false) items others)
  | [], [] => fun _ => Iff.rfl
  | [], _ :: _ => fun _ => Iff.rfl
  | _ :: _, [] => fun _ => Iff.rfl
  | v :: items, w :: others => fun hno =>
      and_congr (alike_isProto_iff v w hno.1) (alike_isProto_items items others hno.2)
theorem alike_isProto_entries : ∀ (entries : List (List ℕ × PyVal R.Double)) (members : List (JsString × Json)),
    NoProto.entriesNoProto R entries →
    (entries.countP fun entry => !isProto (utf16 entry.1)) = (entries.countP fun _ => !false) ∧
    (Alike.entriesAlike R number isProto entries members ↔
      Alike.entriesAlike R number (fun _ => false) entries members)
  | [], _ => fun _ => ⟨rfl, Iff.rfl⟩
  | (k, v) :: entries, members => fun hno => by
      obtain ⟨hname, hvalue, hrest⟩ := hno
      obtain ⟨hcount, halike⟩ := alike_isProto_entries entries members hrest
      refine ⟨?_, ?_⟩
      · rw [List.countP_cons, List.countP_cons, hcount, hname]
      · rw [Alike.entriesAlike, Alike.entriesAlike, halike, hname]
        refine and_congr_left' (or_congr_right (exists_congr fun member => and_congr_right fun _ => ?_))
        exact alike_isProto_iff v member.2 hvalue
end

mutual
/-- A value that keeps its structure without the members `__proto__` has none. -/
theorem Alike.both : ∀ (v : PyVal R.Double) (e : Json), Alike R number (fun _ => false) v e →
    Alike R number' isProto v e →
    NoProto R v ∧ Alike R (fun v y => number v y ∧ number' v y) (fun _ => false) v e
  | .none, e => by cases e <;> exact fun h _ => ⟨trivial, h⟩
  | .bool _, e => by cases e <;> exact fun h _ => ⟨trivial, h⟩
  | .int _, e => by
      cases e with
      | num y => exact fun h h' => ⟨trivial, h, h'⟩
      | _ => exact fun h _ => h.elim
  | .float _ _, e => by
      cases e with
      | num y => exact fun h h' => ⟨trivial, h, h'⟩
      | _ => exact fun h _ => h.elim
  | .str _, e => by cases e <;> exact fun h _ => ⟨trivial, h⟩
  | .list items, e => by
      cases e with
      | arr others => exact Alike.both_items items others
      | _ => exact fun h _ => h.elim
  | .dict entries, e => by
      cases e with
      | obj members =>
        rintro ⟨hcount, halike⟩ ⟨hcount', halike'⟩
        obtain ⟨hno, hboth⟩ := Alike.both_entries entries members halike halike' (by
          have hall : ∀ entry ∈ entries, (!isProto (utf16 entry.1)) = true := by
            rw [← List.countP_eq_length, hcount', ← hcount]
            simp
          simpa using hall)
        exact ⟨hno, hcount, hboth⟩
      | _ => exact fun h _ => h.elim
theorem Alike.both_items : ∀ (items : List (PyVal R.Double)) (others : List Json),
    Alike.itemsAlike R number (fun _ => false) items others → Alike.itemsAlike R number' isProto items others →
    NoProto.itemsNoProto R items ∧
      Alike.itemsAlike R (fun v y => number v y ∧ number' v y) (fun _ => false) items others
  | [], [] => fun h _ => ⟨trivial, h⟩
  | [], _ :: _ => fun h _ => h.elim
  | _ :: _, [] => fun h _ => h.elim
  | v :: items, w :: others => fun h h' =>
      have ⟨hno, hboth⟩ := Alike.both v w h.1 h'.1
      have ⟨hnoRest, hrest⟩ := Alike.both_items items others h.2 h'.2
      ⟨⟨hno, hnoRest⟩, hboth, hrest⟩
theorem Alike.both_entries : ∀ (entries : List (List ℕ × PyVal R.Double)) (members : List (JsString × Json)),
    Alike.entriesAlike R number (fun _ => false) entries members →
    Alike.entriesAlike R number' isProto entries members →
    (∀ entry ∈ entries, isProto (utf16 entry.1) = false) →
    NoProto.entriesNoProto R entries ∧
      Alike.entriesAlike R (fun v y => number v y ∧ number' v y) (fun _ => false) entries members
  | [], _ => fun h _ _ => ⟨trivial, h⟩
  | (k, v) :: entries, members => fun h h' hall => by
      obtain ⟨hname, hnames⟩ := List.forall_mem_cons.mp hall
      obtain ⟨member, hfound, hvalue⟩ := h.1.resolve_left Bool.false_ne_true
      obtain ⟨member', hfound', hvalue'⟩ := h'.1.resolve_left (by rw [hname]; exact Bool.false_ne_true)
      obtain rfl := Option.some.inj (hfound.symm.trans hfound')
      obtain ⟨hno, hboth⟩ := Alike.both v member.2 hvalue hvalue'
      obtain ⟨hnoRest, hrest⟩ := Alike.both_entries entries members h.2 h'.2 hnames
      exact ⟨⟨hname, hno, hnoRest⟩, .inr ⟨member, hfound, hboth⟩, hrest⟩
end

/-! ## The comparison of the grader -/

/-- What the schema makes of the members of an object is compared member by member. -/
theorem membersEqual_membersSchema {others : List (JsString × Json)} (members : List (JsString × ParsedJson)) :
    ∀ n, (∃ got, jsonValueSchema.membersSchema members = some got ∧ got.length = n ∧
        isDeepStrictEqual.membersEqual got others = true) ↔
      (members.countP fun m => !isProto m.1) = n ∧ ∀ m ∈ members, isProto m.1 = true ∨
        ∃ other, others.find? (fun o => o.1 = m.1) = some other ∧
          ∃ w, jsonValueSchema m.2 = some w ∧ isDeepStrictEqual w other.2 = true := by
  induction members with
  | nil =>
    intro n
    simp [jsonValueSchema.membersSchema, isDeepStrictEqual.membersEqual]
  | cons m members ih =>
    obtain ⟨k, v⟩ := m
    intro n
    rw [jsonValueSchema.membersSchema, List.countP_cons, List.forall_mem_cons]
    by_cases hk : k = js "__proto__"
    · have hproto : isProto k = true := decide_eq_true hk
      rw [if_pos hk, ih n, hproto]
      simp
    · have hproto : isProto k = false := decide_eq_false hk
      rw [if_neg hk, hproto]
      constructor
      · rintro ⟨got, hgot, hlength, hequal⟩
        cases hv : jsonValueSchema v with
        | none => rw [hv] at hgot; cases hgot
        | some w =>
          cases hrest : jsonValueSchema.membersSchema members with
          | none => rw [hv, hrest] at hgot; cases hgot
          | some rest =>
            rw [hv, hrest] at hgot
            obtain rfl := Option.some.inj hgot
            rw [isDeepStrictEqual.membersEqual, Bool.and_eq_true] at hequal
            obtain ⟨hcount, hall⟩ := (ih rest.length).mp ⟨rest, hrest, rfl, hequal.2⟩
            refine ⟨by rw [hcount]; exact hlength, .inr ?_, hall⟩
            cases hfound : others.find? fun o => o.1 = k with
            | none => rw [hfound] at hequal; exact absurd hequal.1 Bool.false_ne_true
            | some other =>
              rw [hfound] at hequal
              exact ⟨other, rfl, w, rfl, hequal.1⟩
      · rintro ⟨hcount, hvalue, hall⟩
        obtain ⟨other, hfound, w, hw, hequal⟩ := hvalue.resolve_left Bool.false_ne_true
        obtain ⟨rest, hrest, hlength, hrestEqual⟩ := (ih _).mpr ⟨rfl, hall⟩
        refine ⟨(k, w) :: rest, by rw [hw, hrest], ?_, ?_⟩
        · rw [List.length_cons, hlength]
          exact hcount
        · dsimp only at hfound
          rw [isDeepStrictEqual.membersEqual, hfound, Bool.and_eq_true]
          exact ⟨hequal, hrestEqual⟩

variable (R)

/-- `JSON.parse`, the schema and the comparison. -/
def Compared (v : PyVal R.Double) (e : Json) : Prop :=
  ∃ got, jsonValueSchema (parsed R v) = some got ∧ isDeepStrictEqual got e = true

variable {R}

theorem jsonValueSchema_int (n : ℤ) :
    jsonValueSchema (parsed R (.int n)) = (readNumber R (.int n)).map .num := by
  show jsonValueSchema (.ofInt n) = (numberOfInt n).map .num
  unfold ParsedJson.ofInt
  cases numberOfInt n with
  | none => rfl
  | some x => rfl

theorem compared_number {v : PyVal R.Double}
    (h : jsonValueSchema (parsed R v) = (readNumber R v).map .num) (e : Json) :
    Compared R v e ↔ ∃ y, e = .num y ∧ ReadsAs R v y := by
  unfold Compared ReadsAs
  rw [h]
  cases hread : readNumber R v with
  | none => simp
  | some x =>
    cases e with
    | num y => simp [isDeepStrictEqual]
    | _ => simp [isDeepStrictEqual]

mutual
theorem compared_iff : ∀ (v : PyVal R.Double) (e : Json), Compared R v e ↔ Alike R (ReadsAs R) isProto v e
  | .none, e => by cases e <;> simp [Compared, parsed, jsonValueSchema, isDeepStrictEqual, Alike]
  | .bool _, e => by cases e <;> simp [Compared, parsed, jsonValueSchema, isDeepStrictEqual, Alike]
  | .int n, e => by
      rw [compared_number (jsonValueSchema_int n)]
      cases e <;> simp [Alike]
  | .float negative magnitude, e => by
      rw [compared_number rfl]
      cases e <;> simp [Alike]
  | .str _, e => by cases e <;> simp [Compared, parsed, jsonValueSchema, isDeepStrictEqual, Alike]
  | .list items, e => by
      have hitems := compared_items items
      unfold Compared
      rw [parsed, jsonValueSchema]
      cases e with
      | arr others =>
        rw [Alike, ← hitems others]
        constructor
        · rintro ⟨got, hgot, hequal⟩
          obtain ⟨gots, hgots, rfl⟩ := Option.map_eq_some_iff.mp hgot
          exact ⟨gots, hgots, hequal⟩
        · rintro ⟨gots, hgots, hequal⟩
          exact ⟨.arr gots, by rw [hgots]; rfl, hequal⟩
      | _ => cases jsonValueSchema.itemsSchema (parsed.parsedItems R items) <;> simp [isDeepStrictEqual, Alike]
  | .dict entries, e => by
      have hentries := compared_entries entries
      unfold Compared
      rw [parsed, jsonValueSchema]
      cases e with
      | obj members =>
        have hperm := propertyOrder_perm (parsed.parsedEntries R entries)
        have hmembers := @membersEqual_membersSchema members
          (propertyOrder (parsed.parsedEntries R entries)) members.length
        simp only [hperm.mem_iff, hperm.countP_eq, hentries members] at hmembers
        rw [parsedEntries_eq_map, List.countP_map, ← parsedEntries_eq_map] at hmembers
        rw [Alike]
        refine Iff.trans ⟨?_, ?_⟩ hmembers
        · rintro ⟨got, hgot, hequal⟩
          obtain ⟨gots, hgots, rfl⟩ := Option.map_eq_some_iff.mp hgot
          rw [isDeepStrictEqual, Bool.and_eq_true, decide_eq_true_eq] at hequal
          exact ⟨gots, hgots, hequal⟩
        · rintro ⟨gots, hgots, hequal⟩
          refine ⟨.obj gots, by rw [hgots]; rfl, ?_⟩
          rw [isDeepStrictEqual, Bool.and_eq_true, decide_eq_true_eq]
          exact hequal
      | _ =>
        cases jsonValueSchema.membersSchema (propertyOrder (parsed.parsedEntries R entries)) <;>
          simp [isDeepStrictEqual, Alike]
theorem compared_items : ∀ (items : List (PyVal R.Double)) (others : List Json),
    (∃ gots, jsonValueSchema.itemsSchema (parsed.parsedItems R items) = some gots ∧
      isDeepStrictEqual.itemsEqual gots others = true) ↔ Alike.itemsAlike R (ReadsAs R) isProto items others
  | [], [] => by simp [parsed.parsedItems, jsonValueSchema.itemsSchema, isDeepStrictEqual.itemsEqual, Alike.itemsAlike]
  | [], _ :: _ => by
      simp [parsed.parsedItems, jsonValueSchema.itemsSchema, isDeepStrictEqual.itemsEqual, Alike.itemsAlike]
  | v :: items, [] => by
      rw [parsed.parsedItems, jsonValueSchema.itemsSchema]
      cases jsonValueSchema (parsed R v) <;> cases jsonValueSchema.itemsSchema (parsed.parsedItems R items) <;>
        simp [isDeepStrictEqual.itemsEqual, Alike.itemsAlike]
  | v :: items, w :: others => by
      rw [Alike.itemsAlike, ← compared_iff v w, ← compared_items items others, parsed.parsedItems,
        jsonValueSchema.itemsSchema]
      unfold Compared
      cases jsonValueSchema (parsed R v) <;> cases jsonValueSchema.itemsSchema (parsed.parsedItems R items) <;>
        simp [isDeepStrictEqual.itemsEqual]
theorem compared_entries : ∀ (entries : List (List ℕ × PyVal R.Double)) (members : List (JsString × Json)),
    (∀ m ∈ parsed.parsedEntries R entries, isProto m.1 = true ∨
      ∃ other, members.find? (fun o => o.1 = m.1) = some other ∧
        ∃ w, jsonValueSchema m.2 = some w ∧ isDeepStrictEqual w other.2 = true) ↔
    Alike.entriesAlike R (ReadsAs R) isProto entries members
  | [], _ => by simp [parsed.parsedEntries, Alike.entriesAlike]
  | (k, v) :: entries, members => by
      rw [Alike.entriesAlike, ← compared_entries entries members, parsed.parsedEntries, List.forall_mem_cons]
      refine and_congr_left' (or_congr_right (exists_congr fun other => and_congr_right fun _ => ?_))
      exact compared_iff v other.2
end

/-! ## The verdict -/

variable (R)

/-- The entry of a case that returned the value is accepted and graded as passed. -/
def GradedPassed (index : ℕ) (elapsed : R.Double) (g : LoadedValue R.Double) (repr : PyText) (e : Json) : Prop :=
  ∃ result, harnessCaseSchema (parsed R ((CaseEntry.ok elapsed g repr).toPy R index)) = some result ∧
    (gradeHarnessCase result (some e)).passed = true

/-- Nothing that is lost or told apart on the way decides the verdict. -/
structure Undistorted (g : PyVal R.Double) (e : Json) : Prop where
  /-- equal values have no member `__proto__` and no zeros of different signs -/
  equal : JsonEquals R g e → NoProto R g ∧ Alike R (SignIs R) (fun _ => false) g e
  /-- a value that is read as the other one has no member `__proto__` and no rounded integers -/
  read : Alike R (ReadsAs R) isProto g e → NoProto R g ∧ Alike R (fun v _ => IsExact R v) (fun _ => false) g e

variable {R} {index : ℕ} {elapsed : R.Double} {g : LoadedValue R.Double} {repr : PyText} {e : Json}

theorem gradedPassed_iff (hindex : index < 2 ^ 53) :
    GradedPassed R index elapsed g repr e ↔ Alike R (ReadsAs R) isProto g.value e := by
  rw [← compared_iff]
  unfold GradedPassed Compared
  rw [harnessCaseSchema_ok, integerSchema_ofInt, if_pos hindex, Option.bind_some, readEntry]
  cases jsonValueSchema (parsed R g.value) with
  | none => simp
  | some got =>
    simp only [Option.map_some, Option.some.injEq, exists_eq_left', gradeHarnessCase_passed]
    rfl

/-- **The verdict on a returned value** is right exactly when the value is not distorted on the way. -/
theorem verdict_iff (hindex : index < 2 ^ 53) :
    (GradedPassed R index elapsed g repr e ↔ JsonEquals R g.value e) ↔ Undistorted R g.value e := by
  rw [gradedPassed_iff hindex]
  constructor
  · intro hverdict
    have hboth : JsonEquals R g.value e → Alike R (ReadsAs R) isProto g.value e →
        NoProto R g.value ∧ Alike R (fun v y => NumberIs R v y ∧ ReadsAs R v y) (fun _ => false) g.value e :=
      Alike.both g.value e
    refine ⟨fun hequal => ?_, fun hread => ?_⟩
    · obtain ⟨hno, hnumbers⟩ := hboth hequal (hverdict.mpr hequal)
      exact ⟨hno, Alike.mono (fun _ _ h => h.2.signIs) _ _ hnumbers⟩
    · obtain ⟨hno, hnumbers⟩ := hboth (hverdict.mp hread) hread
      exact ⟨hno, Alike.mono (fun _ _ h => h.1.1) _ _ hnumbers⟩
  · rintro ⟨hequal, hread⟩
    constructor
    · intro h
      obtain ⟨hno, hexact⟩ := hread h
      obtain ⟨-, hboth⟩ := Alike.both g.value e hexact h
      exact Alike.mono (fun _ _ h => h.2.numberIs h.1) _ _ hboth
    · intro h
      obtain ⟨hno, hsigns⟩ := hequal h
      obtain ⟨-, hboth⟩ := Alike.both g.value e h ((alike_isProto_iff g.value e hno).mpr hsigns)
      exact (alike_isProto_iff g.value e hno).mpr (Alike.mono (fun _ _ h => h.1.readsAs h.2) _ _ hboth)

def exampleFloat (magnitude : ℕ) : exampleRuntime.Double := magnitude

/-- The method returns `[2.0]`, and `[2]` is expected. -/
def exampleFloats : LoadedValue exampleRuntime.Double := ⟨.list [.float false (exampleFloat 2)], rfl⟩

theorem verdict_iff_example :
    (GradedPassed exampleRuntime 0 (exampleFloat 3) exampleFloats (js "[2.0]") (.arr [.num (.ofDecimal false 2)]) ↔
      JsonEquals exampleRuntime exampleFloats.value (.arr [.num (.ofDecimal false 2)])) ↔
    Undistorted exampleRuntime exampleFloats.value (.arr [.num (.ofDecimal false 2)]) :=
  verdict_iff (by decide)

/-- `-0.0` is returned, and `0` is expected. -/
theorem negative_zero_fails : ¬ ∀ (R : Runtime) (index : ℕ) (elapsed : R.Double) (g : LoadedValue R.Double)
    (repr : PyText) (e : Json), index < 2 ^ 53 →
    (GradedPassed R index elapsed g repr e ↔ JsonEquals R g.value e) := by
  intro hclaim
  have hverdict := hclaim exampleRuntime 0 (exampleFloat 3) ⟨.float true (exampleFloat 0), rfl⟩ (js "-0.0")
    (.num (.ofDecimal false 0)) (by decide)
  have hequal : JsonEquals exampleRuntime (.float true (exampleFloat 0))
      (.num (.ofDecimal false 0)) :=
    ⟨trivial, JsNumber.ofDecimal true 0, rfl, by decide +kernel⟩
  obtain ⟨x, hx, hsame⟩ := (gradedPassed_iff (by decide)).mp (hverdict.mpr hequal)
  obtain rfl := Option.some.inj hx
  exact absurd hsame (by decide)

end
end CodeShare
