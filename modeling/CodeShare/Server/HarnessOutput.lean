import CodeShare.Foundations.Lines
import CodeShare.Harness.PythonHarness
import CodeShare.Text.ParsedJson

/-! # Reading what the harness wrote

`parseTaggedJson` takes the JSON text between the last start marker that has a line of its own and the
next end marker that has one. Both scans are specified in terms of lines.
-/

namespace CodeShare
open Lines
open Harness (newline harnessPayloadChars)
set_option autoImplicit false

/-! ## Markers -/

/-- The three outcomes that the harness reports. -/
inductive HarnessOutcome where
  | result
  | compilationError
  | runtimeError
  deriving DecidableEq, Repr

def HarnessOutcome.tag : HarnessOutcome → JsString
  | result => js "HARNESS_RESULT_"
  | compilationError => js "HARNESS_COMPILATION_ERROR_"
  | runtimeError => js "HARNESS_RUNTIME_ERROR_"

def HarnessOutcome.startTag (outcome : HarnessOutcome) (nonce : JsString) : JsString :=
  js "===" ++ outcome.tag ++ nonce ++ js "==="

def HarnessOutcome.endTag (outcome : HarnessOutcome) (nonce : JsString) : JsString :=
  js "===END_" ++ outcome.tag ++ nonce ++ js "==="

/-! ## Scanning -/

/-- The loop goes on before the last occurrence that is no line. -/
def findLastMarkerLine (stdout marker : JsString) (searchFrom : ℕ) : Option ℕ :=
  match h : lastIndexOf stdout marker searchFrom with
  | none => none
  | some markerIdx =>
    if (markerIdx = 0 ∨ stdout[markerIdx - 1]? = some newline) ∧
        stdout[markerIdx + marker.length]? = some newline then
      some markerIdx
    else if markerIdx = 0 then none
    else findLastMarkerLine stdout marker (markerIdx - 1)
termination_by searchFrom
decreasing_by
  have := (lastIndexOf_eq_some h).1
  omega

/-- The loop goes on behind the first occurrence that is no line; it would not end for an empty
marker. -/
def findNextMarkerLine (stdout marker : JsString) (searchFrom : ℕ) : Option ℕ :=
  match _h : indexOf stdout marker searchFrom with
  | none => none
  | some markerIdx =>
    if (markerIdx = 0 ∨ stdout[markerIdx - 1]? = some newline) ∧
        (stdout[markerIdx + marker.length]? = some newline ∨
          stdout[markerIdx + marker.length]? = none) then
      some markerIdx
    else if _hmarker : marker = [] then none
    else findNextMarkerLine stdout marker (markerIdx + marker.length)
termination_by stdout.length - searchFrom
decreasing_by
  obtain ⟨hle, hfound, -⟩ := indexOf_eq_some _h
  have hlength := hfound.length_le
  have hpos := List.length_pos_iff.mpr _hmarker
  rw [List.length_drop] at hlength
  omega

/-! ### In terms of lines -/

/-- A start marker has its newline behind it. -/
abbrev StartLine (marker stdout : JsString) (p : ℕ) : Prop :=
  LineAt newline (· = some newline) marker stdout p

/-- An end marker may be the end of the output. -/
abbrev EndLine (marker stdout : JsString) (p : ℕ) : Prop :=
  LineAt newline (fun c => c = some newline ∨ c = none) marker stdout p

theorem endsLine_start : EndsLine newline (· = some newline) := fun _ => by simp

theorem endsLine_end : EndsLine newline fun c => c = some newline ∨ c = none := fun _ => by simp

section
variable {stdout marker first rest : JsString} {searchFrom p : ℕ}

theorem startLine_cons_iff (hmarker : newline ∉ marker) (hfirst : newline ∉ first) :
    StartLine marker (first ++ newline :: rest) p ↔
      (p = 0 ∧ marker = first) ∨ ∃ q, p = first.length + 1 + q ∧ StartLine marker rest q :=
  LineAt.cons_iff endsLine_start hmarker hfirst

theorem endLine_cons_iff (hmarker : newline ∉ marker) (hfirst : newline ∉ first) :
    EndLine marker (first ++ newline :: rest) p ↔
      (p = 0 ∧ marker = first) ∨ ∃ q, p = first.length + 1 + q ∧ EndLine marker rest q :=
  LineAt.cons_iff endsLine_end hmarker hfirst

/-- What the backward scan finds is a line, and none comes after it. -/
theorem findLastMarkerLine_eq_some (h : findLastMarkerLine stdout marker searchFrom = some p) :
    p ≤ searchFrom ∧ StartLine marker stdout p ∧
      ∀ q, p < q → q ≤ searchFrom → ¬ StartLine marker stdout q := by
  induction searchFrom using Nat.strong_induction_on with
  | _ searchFrom ih =>
    rw [findLastMarkerLine] at h
    split at h
    · cases h
    · rename_i markerIdx hlast
      obtain ⟨hle, hfound, hafter⟩ := lastIndexOf_eq_some hlast
      split_ifs at h with hline hzero
      · obtain rfl := Option.some.inj h
        exact ⟨hle, ⟨hline.1, hfound, hline.2⟩, fun q hlt hq hstart =>
          hafter q hlt hq hstart.content⟩
      · obtain ⟨hp, hstart, hnone⟩ := ih (markerIdx - 1) (by omega) h
        refine ⟨by omega, hstart, fun q hlt hq hstart' => ?_⟩
        rcases Nat.lt_trichotomy q markerIdx with hbefore | rfl | hbehind
        · exact hnone q hlt (by omega) hstart'
        · exact hline ⟨hstart'.start, hstart'.stop⟩
        · exact hafter q hbehind hq hstart'.content

theorem findLastMarkerLine_eq_none (h : findLastMarkerLine stdout marker searchFrom = none) {q : ℕ}
    (hq : q ≤ searchFrom) : ¬ StartLine marker stdout q := by
  induction searchFrom using Nat.strong_induction_on with
  | _ searchFrom ih =>
    intro hstart
    rw [findLastMarkerLine] at h
    split at h
    · rename_i hlast
      exact lastIndexOf_eq_none hlast hq hstart.content
    · rename_i markerIdx hlast
      obtain ⟨hle, -, hafter⟩ := lastIndexOf_eq_some hlast
      split_ifs at h with hline hzero
      · rcases Nat.lt_or_eq_of_le (Nat.zero_le q) with hpos | rfl
        · exact hafter q (by omega) hq hstart.content
        · exact hline ⟨hzero ▸ hstart.start, hzero ▸ hstart.stop⟩
      · rcases Nat.lt_trichotomy q markerIdx with hbefore | rfl | hbehind
        · exact ih (markerIdx - 1) (by omega) h (by omega) hstart
        · exact hline ⟨hstart.start, hstart.stop⟩
        · exact hafter q hbehind hq hstart.content

/-- The forward scan skips no line: what it jumps over lies on one line. -/
theorem findNextMarkerLine_eq_some (hmarker : newline ∉ marker)
    (h : findNextMarkerLine stdout marker searchFrom = some p) :
    searchFrom ≤ p ∧ EndLine marker stdout p ∧
      ∀ q, searchFrom ≤ q → q < p → ¬ EndLine marker stdout q := by
  fun_induction findNextMarkerLine stdout marker searchFrom with
  | case1 searchFrom hnext => cases h
  | case2 searchFrom markerIdx hnext hline =>
    obtain ⟨hle, hfound, hbefore⟩ := indexOf_eq_some hnext
    obtain rfl := Option.some.inj h
    exact ⟨hle, ⟨hline.1, hfound, hline.2⟩, fun q hle' hlt hend => hbefore q hle' hlt hend.content⟩
  | case3 searchFrom markerIdx hnext hline hempty => cases h
  | case4 searchFrom markerIdx hnext hline hne ih =>
    obtain ⟨hle, hfound, hbefore⟩ := indexOf_eq_some hnext
    obtain ⟨hp, hend, hnone⟩ := ih h
    refine ⟨by omega, hend, fun q hle' hlt hend' => ?_⟩
    rcases Nat.lt_trichotomy q markerIdx with hq | rfl | hq
    · exact hbefore q hle' hq hend'.content
    · exact hline ⟨hend'.start, hend'.stop⟩
    · exact hnone q (hend'.add_length_le hmarker hq hfound) hlt hend'

theorem findNextMarkerLine_eq_none (hmarker : newline ∉ marker) (hne : marker ≠ [])
    (h : findNextMarkerLine stdout marker searchFrom = none) {q : ℕ} (hq : searchFrom ≤ q) :
    ¬ EndLine marker stdout q := by
  intro hend
  fun_induction findNextMarkerLine stdout marker searchFrom with
  | case1 searchFrom hnext => exact indexOf_eq_none hnext hq hend.content
  | case2 searchFrom markerIdx hnext hline => cases h
  | case3 searchFrom markerIdx hnext hline hempty => exact hne hempty
  | case4 searchFrom markerIdx hnext hline hne ih =>
    obtain ⟨hle, hfound, hbefore⟩ := indexOf_eq_some hnext
    rcases Nat.lt_trichotomy q markerIdx with hlt | rfl | hlt
    · exact hbefore q hq hlt hend.content
    · exact hline ⟨hend.start, hend.stop⟩
    · exact ih h (hend.add_length_le hmarker hlt hfound)

/-- The scans find a line that nothing comes behind, or before. -/
theorem findLastMarkerLine_of_last (hne : marker ≠ []) (hline : StartLine marker stdout p)
    (hlast : ∀ q, p < q → ¬ StartLine marker stdout q) :
    findLastMarkerLine stdout marker stdout.length = some p := by
  have hle : p ≤ stdout.length := (hline.le_length hne).le
  cases h : findLastMarkerLine stdout marker stdout.length with
  | none => exact absurd hline (findLastMarkerLine_eq_none h hle)
  | some p' =>
    obtain ⟨-, hline', hlast'⟩ := findLastMarkerLine_eq_some h
    rcases Nat.lt_trichotomy p p' with hlt | rfl | hlt
    · exact absurd hline' (hlast p' hlt)
    · rfl
    · exact absurd hline (hlast' p hlt hle)

theorem findLastMarkerLine_of_none (hnone : ∀ q, ¬ StartLine marker stdout q) :
    findLastMarkerLine stdout marker stdout.length = none := by
  cases h : findLastMarkerLine stdout marker stdout.length with
  | none => rfl
  | some p => exact absurd (findLastMarkerLine_eq_some h).2.1 (hnone p)

theorem findNextMarkerLine_of_first (hmarker : newline ∉ marker) (hne : marker ≠ [])
    (hline : EndLine marker stdout p) (hle : searchFrom ≤ p)
    (hfirst : ∀ q, searchFrom ≤ q → q < p → ¬ EndLine marker stdout q) :
    findNextMarkerLine stdout marker searchFrom = some p := by
  cases h : findNextMarkerLine stdout marker searchFrom with
  | none => exact absurd hline (findNextMarkerLine_eq_none hmarker hne h hle)
  | some p' =>
    obtain ⟨hle', hline', hfirst'⟩ := findNextMarkerLine_eq_some hmarker h
    rcases Nat.lt_trichotomy p p' with hlt | rfl | hlt
    · exact absurd hline (hfirst' p hle hlt)
    · rfl
    · exact absurd hline' (hfirst p' hle' hlt)

end

/-! ## Parsing -/

inductive ParseFailureReason where
  | missingMarkers
  | malformedJson
  | payloadTooLarge
  deriving DecidableEq, Repr

section
variable {Data : Type} (parse : JsString → Option Data)

/-- `JSON.parse` is an argument; `none` is its error. -/
def parseTaggedJson (stdout startTag endTag : JsString) : Except ParseFailureReason Data :=
  match findLastMarkerLine stdout startTag stdout.length with
  | none => .error .missingMarkers
  | some startIdx =>
    let startMarkerEnd := startIdx + startTag.length
    match findNextMarkerLine stdout endTag startMarkerEnd with
    | none => .error .missingMarkers
    | some endIdx =>
      let jsonStr := jsTrim ((stdout.take endIdx).drop (startMarkerEnd + 1))
      if harnessPayloadChars < jsonStr.length then .error .payloadTooLarge
      else
        match parse jsonStr with
        | some data => .ok data
        | none => .error .malformedJson

def HarnessOutcome.read (outcome : HarnessOutcome) (stdout nonce : JsString) :
    Except ParseFailureReason Data :=
  parseTaggedJson parse stdout (outcome.startTag nonce) (outcome.endTag nonce)

def parseResult (stdout nonce : JsString) : Except ParseFailureReason Data :=
  HarnessOutcome.result.read parse stdout nonce

end

end CodeShare
