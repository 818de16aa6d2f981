import CodeShare.Services.InputText

/-! # Splitting at the top level

The loop of `splitTopLevel` over written values: it leaves a string where it entered it and a bracket at the depth
where it opened, so only the commas between the assignments count.
-/

namespace CodeShare
open Harness
set_option autoImplicit false

/-- A sign that neither nests nor quotes nor splits. -/
def IsNeutral (c : ℕ) : Prop := c ∉ [34, 39, 40, 41, 44, 91, 93, 123, 125]

instance (c : ℕ) : Decidable (IsNeutral c) := inferInstanceAs (Decidable (¬ _))

namespace SplitState
variable {s : SplitState} {c : ℕ} {text : JsString}

/-- The text was read and nothing else happened. -/
def push (s : SplitState) (text : JsString) : SplitState := { s with current := s.current ++ text }

theorem push_push (s : SplitState) (a b : JsString) : (s.push a).push b = s.push (a ++ b) := by simp [push]

theorem push_nil (s : SplitState) : s.push [] = s := by simp [push]

/-! ## One sign -/

theorem step_neutral (hquote : s.quote = none) (hc : IsNeutral c) : s.step 44 c = s.push [c] := by
  simp only [IsNeutral, List.mem_cons, List.not_mem_nil, or_false, not_or] at hc
  simp [step, hquote, nest, push, hc]

/-- A comma inside brackets. -/
theorem step_nestedComma (hquote : s.quote = none) (hdepth : s.squareDepth ≠ 0 ∨ s.curlyDepth ≠ 0) :
    s.step 44 44 = s.push [44] := by
  have hnot : ¬ (s.squareDepth = 0 ∧ s.curlyDepth = 0 ∧ s.parenDepth = 0) := by
    rintro ⟨hsquare, hcurly, -⟩
    rcases hdepth with h | h
    · exact h hsquare
    · exact h hcurly
  simp [step, hquote, nest, push, hnot]

theorem step_comma (hquote : s.quote = none) (hsquare : s.squareDepth = 0) (hcurly : s.curlyDepth = 0)
    (hparen : s.parenDepth = 0) :
    s.step 44 44 = { s with parts := s.parts ++ [jsTrim s.current], current := [] } := by
  simp [step, hquote, nest, hsquare, hcurly, hparen]

theorem step_square (hquote : s.quote = none) (opens : Bool) :
    s.step 44 (if opens then 91 else 93) = { s.push [if opens then 91 else 93] with
      squareDepth := s.squareDepth + if opens then 1 else -1 } := by
  cases opens
  · simp [step, hquote, nest, push]
    rfl
  · simp [step, hquote, nest, push]

theorem step_curly (hquote : s.quote = none) (opens : Bool) :
    s.step 44 (if opens then 123 else 125) = { s.push [if opens then 123 else 125] with
      curlyDepth := s.curlyDepth + if opens then 1 else -1 } := by
  cases opens
  · simp [step, hquote, nest, push]
    rfl
  · simp [step, hquote, nest, push]

theorem step_quoted (hquote : s.quote = some 34) (hescaped : s.escaped = false) (hback : c ≠ 92) (hend : c ≠ 34) :
    s.step 44 c = s.push [c] := by
  simp [step, hquote, hescaped, push, hback, hend]

/-- A backslash takes the next sign along. -/
theorem step_escape (hquote : s.quote = some 34) (hescaped : s.escaped = false) (c : ℕ) :
    (s.step 44 92).step 44 c = s.push [92, c] := by
  cases s
  simp only at hquote hescaped
  subst hquote hescaped
  simp [step, push]

/-! ## Strings -/

theorem foldl_neutral (hquote : s.quote = none) (htext : ∀ c ∈ text, IsNeutral c) :
    text.foldl (step 44) s = s.push text := by
  induction text generalizing s with
  | nil => exact s.push_nil.symm
  | cons c text ih =>
    rw [List.forall_mem_cons] at htext
    have hquote' : (s.push [c]).quote = none := hquote
    rw [List.foldl_cons, step_neutral hquote htext.1, ih hquote' htext.2, push_push]
    rfl

theorem foldl_quoted (hquote : s.quote = some 34) (hescaped : s.escaped = false)
    (htext : ∀ c ∈ text, c ≠ 92 ∧ c ≠ 34) : text.foldl (step 44) s = s.push text := by
  induction text generalizing s with
  | nil => exact s.push_nil.symm
  | cons c text ih =>
    rw [List.forall_mem_cons] at htext
    have hquote' : (s.push [c]).quote = some 34 := hquote
    have hescaped' : (s.push [c]).escaped = false := hescaped
    rw [List.foldl_cons, step_quoted hquote hescaped htext.1.1 htext.1.2, ih hquote' hescaped' htext.2, push_push]
    rfl

theorem hexUnit_quoted {n : ℕ} (hn : n < 16) : hexUnit n ≠ 92 ∧ hexUnit n ≠ 34 := by
  unfold hexUnit
  split_ifs <;> omega

theorem foldl_written {w : JsString} (hquote : s.quote = some 34) (hescaped : s.escaped = false)
    (hwritten : Written c w) : w.foldl (step 44) s = s.push w := by
  cases hwritten with
  | plain hlow hend hback => exact foldl_quoted hquote hescaped (by simp [hend, hback])
  | short letter hu hpython hjson => exact step_escape hquote hescaped letter
  | unicode hrange =>
    have hquote' : (s.push [92, 117]).quote = some 34 := hquote
    have hescaped' : (s.push [92, 117]).escaped = false := hescaped
    have hmod : ∀ n, hexUnit (n % 16) ≠ 92 ∧ hexUnit (n % 16) ≠ 34 :=
      fun n => hexUnit_quoted (Nat.mod_lt n (by decide))
    rw [unicodeEscape, List.foldl_cons, List.foldl_cons, step_escape hquote hescaped,
      foldl_quoted hquote' hescaped' (by simp [hmod]), push_push]
    rfl

theorem foldl_escapeUnits (hquote : s.quote = some 34) (hescaped : s.escaped = false) (t : JsString) :
    (escapeUnits t).foldl (step 44) s = s.push (escapeUnits t) := by
  induction t using escapeUnits.induct generalizing s with
  | case1 high low tail hpair ih =>
    have hboth := hpair
    simp only [isHighSurrogate, isLowSurrogate, Bool.and_eq_true, decide_eq_true_eq] at hboth
    have hquote' : (s.push [high, low]).quote = some 34 := hquote
    have hescaped' : (s.push [high, low]).escaped = false := hescaped
    have hread : [high, low].foldl (step 44) s = s.push [high, low] :=
      foldl_quoted hquote hescaped (by simp; omega)
    rw [escapeUnits, if_pos hpair]
    show List.foldl (step 44) s ([high, low] ++ escapeUnits tail) = _
    rw [List.foldl_append, hread, ih hquote' hescaped', push_push]
    rfl
  | case2 high low tail hpair ih =>
    have hquote' : (s.push (escapeCodePoint high)).quote = some 34 := hquote
    have hescaped' : (s.push (escapeCodePoint high)).escaped = false := hescaped
    rw [escapeUnits, if_neg hpair, List.foldl_append, foldl_written hquote hescaped (written_escapeCodePoint high),
      ih hquote' hescaped', push_push]
  | case3 c =>
    rw [escapeUnits]
    exact foldl_written hquote hescaped (written_escapeCodePoint c)
  | case4 => exact s.push_nil.symm

theorem foldl_quoteUnits (hquote : s.quote = none) (hescaped : s.escaped = false) (t : JsString) :
    (quoteUnits t).foldl (step 44) s = s.push (quoteUnits t) := by
  obtain ⟨parts, current, square, curly, paren, quote, escaped⟩ := s
  simp only at hquote hescaped
  subst hquote hescaped
  rw [quoteUnits, List.foldl_cons, List.foldl_append]
  have hopen : (SplitState.mk parts current square curly paren none false).step 44 34 =
      ⟨parts, current ++ [34], square, curly, paren, some 34, false⟩ := by simp [step]
  rw [hopen, foldl_escapeUnits rfl rfl]
  simp [push, step]

/-! ## Values -/

/-- Not inside a string; how many brackets are open. -/
structure Outside (s : SplitState) (square curly : ℕ) : Prop where
  quote : s.quote = none
  escaped : s.escaped = false
  square : s.squareDepth = square
  curly : s.curlyDepth = curly

theorem Outside.push {square curly : ℕ} (h : s.Outside square curly) (text : JsString) :
    (s.push text).Outside square curly := ⟨h.quote, h.escaped, h.square, h.curly⟩

/-- What a text does that closes a bracket it did not open. -/
def leaveSquare (s : SplitState) (text : JsString) : SplitState :=
  { s.push text with squareDepth := s.squareDepth - 1 }

def leaveCurly (s : SplitState) (text : JsString) : SplitState :=
  { s.push text with curlyDepth := s.curlyDepth - 1 }

theorem push_leaveSquare (s : SplitState) (a b : JsString) : (s.push a).leaveSquare b = s.leaveSquare (a ++ b) := by
  simp [push, leaveSquare]

theorem push_leaveCurly (s : SplitState) (a b : JsString) : (s.push a).leaveCurly b = s.leaveCurly (a ++ b) := by
  simp [push, leaveCurly]

theorem step_closeSquare {square curly : ℕ} (h : s.Outside square curly) : s.step 44 93 = s.leaveSquare [93] :=
  step_square h.quote false

theorem step_closeCurly {square curly : ℕ} (h : s.Outside square curly) : s.step 44 125 = s.leaveCurly [125] :=
  step_curly h.quote false

theorem step_innerComma {square curly : ℕ} (h : s.Outside square curly) (hopen : square ≠ 0 ∨ curly ≠ 0) :
    s.step 44 44 = s.push [44] := by
  refine step_nestedComma h.quote ?_
  rw [h.square, h.curly]
  exact_mod_cast hopen

theorem isNeutral_toUnits {x : JsNumber} (hc : c ∈ x.toUnits) : IsNeutral c := by
  have hunits := toUnits_mem hc
  simp only [isDigit, Bool.and_eq_true, decide_eq_true_eq] at hunits
  simp [IsNeutral]
  omega

mutual
theorem foldl_layout : ∀ (v : Json) (s : SplitState) (square curly : ℕ), s.Outside square curly →
    (v.layout quoteUnits).foldl (step 44) s = s.push (v.layout quoteUnits)
  | .null, s, _, _, h => foldl_neutral h.quote (by decide)
  | .bool true, s, _, _, h => foldl_neutral h.quote (by decide)
  | .bool false, s, _, _, h => foldl_neutral h.quote (by decide)
  | .num x, s, _, _, h => foldl_neutral h.quote fun _ hc => isNeutral_toUnits hc
  | .str text, s, _, _, h => foldl_quoteUnits h.quote h.escaped text
  | .arr items, s, square, curly, h => by
      have hopened := step_square h.quote true
      simp only [if_pos] at hopened
      have hinner : SplitState.Outside { s.push [91] with squareDepth := s.squareDepth + 1 } (square + 1) curly :=
        ⟨h.quote, h.escaped, by rw [h.square]; rfl, h.curly⟩
      rw [Json.layout, List.foldl_cons, hopened, foldl_layoutItems items _ square curly hinner]
      simp [leaveSquare, push]
  | .obj members, s, square, curly, h => by
      have hopened := step_curly h.quote true
      simp only [if_pos] at hopened
      have hinner : SplitState.Outside { s.push [123] with curlyDepth := s.curlyDepth + 1 } square (curly + 1) :=
        ⟨h.quote, h.escaped, h.square, by rw [h.curly]; rfl⟩
      rw [Json.layout, List.foldl_cons, hopened, foldl_layoutMembers members _ square curly hinner]
      simp [leaveCurly, push]
theorem foldl_layoutItems : ∀ (items : List Json) (s : SplitState) (square curly : ℕ), s.Outside (square + 1) curly →
    (Json.layout.layoutItems quoteUnits items).foldl (step 44) s =
      s.leaveSquare (Json.layout.layoutItems quoteUnits items)
  | [], s, _, _, h => step_closeSquare h
  | [v], s, square, curly, h => by
      rw [Json.layout.layoutItems, List.foldl_append, foldl_layout v s _ _ h, ← push_leaveSquare]
      exact step_closeSquare (h.push _)
  | v :: w :: items, s, square, curly, h => by
      rw [Json.layoutItems_cons_cons, List.foldl_append, List.foldl_cons, foldl_layout v s _ _ h,
        step_innerComma (h.push _) (Or.inl (Nat.succ_ne_zero _)),
        foldl_layoutItems (w :: items) _ square curly ((h.push _).push _), push_leaveSquare, push_leaveSquare]
      rfl
theorem foldl_layoutMembers : ∀ (members : List (JsString × Json)) (s : SplitState) (square curly : ℕ),
    s.Outside square (curly + 1) → (Json.layout.layoutMembers quoteUnits members).foldl (step 44) s =
      s.leaveCurly (Json.layout.layoutMembers quoteUnits members)
  | [], s, _, _, h => step_closeCurly h
  | [(k, v)], s, square, curly, h => by
      rw [Json.layout.layoutMembers, List.foldl_append, List.foldl_cons, List.foldl_append,
        foldl_quoteUnits h.quote h.escaped, step_neutral (h.push _).quote (by decide),
        foldl_layout v _ _ _ ((h.push _).push _)]
      have hclose := step_closeCurly (((h.push (quoteUnits k)).push [58]).push (v.layout quoteUnits))
      rw [List.foldl_cons, List.foldl_nil, hclose, push_leaveCurly, push_leaveCurly, push_leaveCurly]
      rfl
  | (k, v) :: m :: members, s, square, curly, h => by
      rw [Json.layoutMembers_cons_cons, List.foldl_append, List.foldl_cons, List.foldl_append, List.foldl_cons,
        foldl_quoteUnits h.quote h.escaped, step_neutral (h.push _).quote (by decide),
        foldl_layout v _ _ _ ((h.push _).push _),
        step_innerComma (((h.push _).push _).push _) (Or.inr (Nat.succ_ne_zero _)),
        foldl_layoutMembers (m :: members) _ square curly ((((h.push _).push _).push _).push _), push_leaveCurly,
        push_leaveCurly, push_leaveCurly, push_leaveCurly]
      rfl
end

theorem foldl_stringify {v : Json} (h : s.Outside 0 0) : v.stringify.foldl (step 44) s = s.push v.stringify :=
  foldl_layout v s 0 0 h

end SplitState

/-! ## Assignments -/

theorem layoutItems_concat (items : List Json) : ∃ init, Json.layout.layoutItems quoteUnits items = init ++ [93] := by
  induction items with
  | nil => exact ⟨[], rfl⟩
  | cons v items ih =>
    cases items with
    | nil => exact ⟨_, rfl⟩
    | cons w items =>
      obtain ⟨init, hinit⟩ := ih
      exact ⟨v.layout quoteUnits ++ 44 :: init, by rw [Json.layoutItems_cons_cons, hinit]; simp⟩

theorem layoutMembers_concat (members : List (JsString × Json)) :
    ∃ init, Json.layout.layoutMembers quoteUnits members = init ++ [125] := by
  induction members with
  | nil => exact ⟨[], rfl⟩
  | cons m members ih =>
    obtain ⟨k, v⟩ := m
    cases members with
    | nil => exact ⟨quoteUnits k ++ 58 :: v.layout quoteUnits, by simp [Json.layout.layoutMembers]⟩
    | cons n members =>
      obtain ⟨init, hinit⟩ := ih
      exact ⟨quoteUnits k ++ 58 :: (v.layout quoteUnits ++ 44 :: init), by
        rw [Json.layoutMembers_cons_cons, hinit]
        simp⟩

/-- `name = value`, as in an input text. -/
def assignmentText (x : JsString × Json) : JsString := x.1 ++ (js " = " ++ x.2.stringify)

def assignmentsText (assignments : List (JsString × Json)) : JsString :=
  joinTexts (js ", ") (assignments.map assignmentText)

/-- Letters, digits and the underscore; beyond ASCII anything that is no white space. -/
def isIdentifierUnit (c : ℕ) : Bool :=
  (97 ≤ c && c ≤ 122) || (65 ≤ c && c ≤ 90) || isDigitUnit c || c = 95 || (128 ≤ c && !isRegexSpace c)

/-- Every Python identifier is one. -/
structure IsIdentifier (name : JsString) : Prop where
  nonempty : name ≠ []
  first : ∀ c ∈ name.head?, isDigitUnit c = false
  units : ∀ c ∈ name, isIdentifierUnit c = true

variable {name : JsString} {v : Json} {c : ℕ}

theorem isIdentifierUnit_neutral (hc : isIdentifierUnit c = true) :
    IsNeutral c ∧ isRegexSpace c = false ∧ c ≠ 61 := by
  simp only [isIdentifierUnit, isDigitUnit, Bool.or_eq_true, Bool.and_eq_true, decide_eq_true_eq,
    Bool.not_eq_true'] at hc
  refine ⟨by simp [IsNeutral]; omega, ?_, by omega⟩
  by_cases hspace : isRegexSpace c = true
  · simp only [hspace, Bool.true_eq_false, and_false, or_false] at hc
    simp only [isRegexSpace, Bool.or_eq_true, Bool.and_eq_true, decide_eq_true_eq] at hspace
    omega
  · rwa [Bool.not_eq_true] at hspace

theorem assignmentsText_cons_cons (x y : JsString × Json) (rest : List (JsString × Json)) :
    assignmentsText (x :: y :: rest) = assignmentText x ++ 44 :: 32 :: assignmentsText (y :: rest) := by
  simp [assignmentsText, joinTexts, js]

theorem assignmentsText_singleton (x : JsString × Json) : assignmentsText [x] = assignmentText x := by
  simp [assignmentsText, joinTexts]

theorem stringify_last (v : Json) : ∃ c, v.stringify.getLast? = some c ∧ isRegexSpace c = false := by
  match v with
  | .null => exact ⟨_, rfl, by decide⟩
  | .bool true => exact ⟨_, rfl, by decide⟩
  | .bool false => exact ⟨_, rfl, by decide⟩
  | .str text =>
    have htext : (Json.str text).stringify = (34 :: escapeUnits text) ++ [34] := rfl
    exact ⟨34, by rw [htext, List.getLast?_concat], by decide⟩
  | .num x =>
    have hne : x.toUnits ≠ [] := by
      obtain ⟨c, r, htext, -⟩ := toUnits_head x
      rw [htext]
      exact List.cons_ne_nil _ _
    refine ⟨x.toUnits.getLast hne, List.getLast?_eq_some_getLast hne, ?_⟩
    exact isRegexSpace_number (JsNumber.toUnits_range (List.getLast_mem hne))
  | .arr items =>
    obtain ⟨init, hinit⟩ := layoutItems_concat items
    have htext : (Json.arr items).stringify = (91 :: init) ++ [93] := congrArg (91 :: ·) hinit
    exact ⟨93, by rw [htext, List.getLast?_concat], by decide⟩
  | .obj members =>
    obtain ⟨init, hinit⟩ := layoutMembers_concat members
    have htext : (Json.obj members).stringify = (123 :: init) ++ [125] := congrArg (123 :: ·) hinit
    exact ⟨125, by rw [htext, List.getLast?_concat], by decide⟩

theorem framed_stringify (v : Json) : Framed v.stringify where
  first := by
    obtain ⟨c, r, htext, -, hc, -⟩ := stringify_head v
    exact ⟨c, by rw [htext]; rfl, hc⟩
  last := stringify_last v

theorem IsIdentifier.framed (h : IsIdentifier name) : Framed name where
  first := by
    obtain ⟨c, r, rfl⟩ := List.exists_cons_of_ne_nil h.nonempty
    exact ⟨c, rfl, (isIdentifierUnit_neutral (h.units c List.mem_cons_self)).2.1⟩
  last := ⟨_, List.getLast?_eq_some_getLast h.nonempty,
    (isIdentifierUnit_neutral (h.units _ (List.getLast_mem h.nonempty))).2.1⟩

/-- Only the ends count. -/
theorem framed_between {a b : JsString} (ha : Framed a) (hb : Framed b) (middle : JsString) :
    Framed (a ++ (middle ++ b)) where
  first := by
    obtain ⟨c, hfirst, hc⟩ := ha.first
    exact ⟨c, by rw [List.head?_append, hfirst]; rfl, hc⟩
  last := by
    obtain ⟨c, hlast, hc⟩ := hb.last
    exact ⟨c, by rw [List.getLast?_append, List.getLast?_append, hlast]; rfl, hc⟩

theorem framed_assignmentText (h : IsIdentifier name) (v : Json) : Framed (assignmentText (name, v)) :=
  framed_between h.framed (framed_stringify v) _

theorem framed_assignmentsText {x : JsString × Json} {xs : List (JsString × Json)}
    (h : ∀ y ∈ x :: xs, IsIdentifier y.1) : Framed (assignmentsText (x :: xs)) := by
  induction xs generalizing x with
  | nil =>
    rw [assignmentsText_singleton]
    exact framed_assignmentText (h x List.mem_cons_self) x.2
  | cons y ys ih =>
    rw [List.forall_mem_cons] at h
    rw [assignmentsText_cons_cons]
    exact framed_between (framed_assignmentText h.1 x.2) (ih h.2) [44, 32]

/-! ## Joined texts -/

theorem isNeutral_of_isRegexSpace (hc : isRegexSpace c = true) : IsNeutral c := by
  simp only [isRegexSpace, Bool.or_eq_true, Bool.and_eq_true, decide_eq_true_eq] at hc
  simp [IsNeutral]
  omega

namespace SplitState
variable {s : SplitState} {text blanks : JsString} {texts : List JsString}

/-- Neither inside a string nor inside a bracket. -/
structure AtTop (s : SplitState) : Prop extends s.Outside 0 0 where
  paren : s.parenDepth = 0

theorem AtTop.push (h : s.AtTop) (text : JsString) : (s.push text).AtTop := ⟨h.toOutside.push text, h.paren⟩

/-- The loop reads the text without splitting it and leaves it where it entered it. -/
def Passes (text : JsString) : Prop := ∀ s : SplitState, s.AtTop → text.foldl (step 44) s = s.push text

/-- The parts and what is left behind the last comma. -/
def finish (s : SplitState) : List JsString :=
  if jsTrim s.current ≠ [] then s.parts ++ [jsTrim s.current] else s.parts

theorem finish_of_blank (hcurrent : ∀ c ∈ s.current, isRegexSpace c = true) : s.finish = s.parts := by
  have htrim := jsTrim_spaces_append hcurrent []
  rw [List.append_nil] at htrim
  rw [finish, htrim]
  exact if_neg fun hne => hne rfl

theorem finish_push (hcurrent : ∀ c ∈ s.current, isRegexSpace c = true) (htext : Framed text) :
    (s.push text).finish = s.parts ++ [text] := by
  have htrim : jsTrim (s.push text).current = text := by
    show jsTrim (s.current ++ text) = text
    rw [jsTrim_spaces_append hcurrent, htext.jsTrim]
  rw [finish, htrim, if_pos (framed_iff.mp htext).1]
  rfl

/-- A joint: the text becomes a part, and the blanks behind the comma are all that is left. -/
theorem foldl_joint (htop : s.AtTop) (hcurrent : ∀ c ∈ s.current, isRegexSpace c = true) (htext : Framed text)
    (hpasses : Passes text) (hblanks : ∀ c ∈ blanks, isRegexSpace c = true) :
    (text ++ 44 :: blanks).foldl (step 44) s = { s with parts := s.parts ++ [text], current := blanks } := by
  have htrim : jsTrim (s.current ++ text) = text := by rw [jsTrim_spaces_append hcurrent, htext.jsTrim]
  have hpushed := htop.push text
  have hcomma : (s.push text).step 44 44 = { s with parts := s.parts ++ [text], current := [] } := by
    rw [step_comma hpushed.quote hpushed.square hpushed.curly hpushed.paren]
    show { s with parts := s.parts ++ [jsTrim (s.current ++ text)], current := [] } = _
    rw [htrim]
  rw [List.foldl_append, hpasses s htop, List.foldl_cons, hcomma]
  exact foldl_neutral htop.quote fun c hc => isNeutral_of_isRegexSpace (hblanks c hc)

theorem finish_joinTexts (htop : s.AtTop) (hcurrent : ∀ c ∈ s.current, isRegexSpace c = true)
    (hblanks : ∀ c ∈ blanks, isRegexSpace c = true) (htexts : ∀ text ∈ texts, Framed text ∧ Passes text) :
    ((joinTexts (44 :: blanks) texts).foldl (step 44) s).finish = s.parts ++ texts := by
  induction texts generalizing s with
  | nil =>
    rw [List.append_nil]
    exact finish_of_blank hcurrent
  | cons text texts ih =>
    rw [List.forall_mem_cons] at htexts
    obtain ⟨⟨htext, hpasses⟩, hrest⟩ := htexts
    cases texts with
    | nil =>
      have hjoin : joinTexts (44 :: blanks) [text] = text := by simp [joinTexts]
      rw [hjoin, hpasses s htop, finish_push hcurrent htext]
    | cons next texts =>
      have hjoin : joinTexts (44 :: blanks) (text :: next :: texts) =
          (text ++ 44 :: blanks) ++ joinTexts (44 :: blanks) (next :: texts) := by simp [joinTexts]
      have htop' : AtTop { s with parts := s.parts ++ [text], current := blanks } :=
        ⟨⟨htop.quote, htop.escaped, htop.square, htop.curly⟩, htop.paren⟩
      rw [hjoin, List.foldl_append, foldl_joint htop hcurrent htext hpasses hblanks, ih htop' hblanks hrest,
        List.append_assoc]
      rfl

end SplitState

/-- Texts that the loop does not split come back from behind their joints. -/
theorem splitTopLevel_joinTexts {blanks : JsString} {texts : List JsString}
    (hblanks : ∀ c ∈ blanks, isRegexSpace c = true)
    (htexts : ∀ text ∈ texts, Framed text ∧ SplitState.Passes text) :
    splitTopLevel (joinTexts (44 :: blanks) texts) 44 = texts := by
  have hstart : SplitState.start.AtTop := ⟨⟨rfl, rfl, rfl, rfl⟩, rfl⟩
  exact SplitState.finish_joinTexts hstart (List.forall_mem_nil _) hblanks htexts

/-! ### Assignments -/

open SplitState

theorem passes_assignmentText (hname : IsIdentifier name) (v : Json) : Passes (assignmentText (name, v)) := by
  intro s htop
  have h := htop.toOutside
  have hneutral : ∀ c ∈ name, IsNeutral c := fun c hc => (isIdentifierUnit_neutral (hname.units c hc)).1
  have hequals : ∀ c ∈ js " = ", IsNeutral c := by decide
  rw [assignmentText, List.foldl_append, List.foldl_append, foldl_neutral h.quote hneutral,
    foldl_neutral (h.push name).quote hequals, foldl_stringify ((h.push name).push _), push_push, push_push]

theorem splitTopLevel_assignmentsText {xs : List (JsString × Json)} (h : ∀ x ∈ xs, IsIdentifier x.1) :
    splitTopLevel (assignmentsText xs) 44 = xs.map assignmentText := by
  refine splitTopLevel_joinTexts (by decide : ∀ c ∈ [32], isRegexSpace c = true) ?_
  intro text htext
  obtain ⟨x, hx, rfl⟩ := List.mem_map.mp htext
  exact ⟨framed_assignmentText (h x hx) x.2, passes_assignmentText (h x hx) x.2⟩

end CodeShare
