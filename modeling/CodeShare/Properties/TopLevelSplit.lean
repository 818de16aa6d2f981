import CodeShare.Foundations.Brackets
import CodeShare.Services.SplitTopLevel

/-! # Splitting what was joined

What `splitTopLevel` returns for texts that were joined with a comma. Behind every sign of such a text the three
depths of the loop count the brackets of what stands outside of quotes, so they are back at zero at every joint.
-/

namespace CodeShare
open Brackets
set_option autoImplicit false

/-- `[]`, `{}` and `()`. -/
def bracketPairs : List (ℕ × ℕ) := [(91, 93), (123, 125), (40, 41)]

/-- `"` and `'`. -/
def quoteMarks : List ℕ := [34, 39]

/-- A trimmed text that can be joined with others: its quoted parts are closed, and outside of them its brackets
are balanced and its commas enclosed by them. -/
@[mk_iff] structure IsPart (text : JsString) : Prop where
  nonempty : text ≠ []
  trimmed : jsTrim text = text
  balanced : ∃ outside ∈ unquoted quoteMarks 92 none text,
    Balanced bracketPairs outside ∧ Enclosed bracketPairs 44 outside

instance (text : JsString) : Decidable (IsPart text) := decidable_of_iff _ (isPart_iff text).symm

theorem level_bracketPairs {word : JsString} : Level bracketPairs word ↔
    depth (91, 93) word = 0 ∧ depth (123, 125) word = 0 ∧ depth (40, 41) word = 0 := by
  simp [Level, bracketPairs]

namespace SplitState
variable {s : SplitState} {text before outside rest : JsString} {quote : Option ℕ} {mark c : ℕ}

/-- The loop behind a text of which `before` stands outside of quotes. -/
def reading (s : SplitState) (text before : JsString) (quote : Option ℕ) : SplitState :=
  ⟨s.parts, s.current ++ text, depth (91, 93) before, depth (123, 125) before, depth (40, 41) before, quote, false⟩

theorem reading_nil (h : s.AtTop) : s.reading [] [] none = s := by
  obtain ⟨parts, current, square, curly, paren, quote, escaped⟩ := s
  obtain ⟨⟨hquote, hescaped, hsquare, hcurly⟩, hparen⟩ := h
  simp only at hquote hescaped hsquare hcurly hparen
  subst hquote hescaped hsquare hcurly hparen
  simp [reading]

theorem reading_level (h : s.AtTop) (hlevel : Level bracketPairs before) :
    s.reading text before none = s.push text := by
  obtain ⟨hsquare, hcurly, hparen⟩ := level_bracketPairs.mp hlevel
  have hback : s.reading text before none = (s.reading [] [] none).push text := by
    simp [reading, push, hsquare, hcurly, hparen]
  rw [hback, reading_nil h]

/-! ## One sign -/

theorem nest_reading : (s.reading text before quote).nest c = s.reading text (before ++ [c]) quote := by
  simp only [nest, reading, depth_concat]
  split_ifs <;> simp_all [sub_eq_add_neg]

theorem step_mark (hc : c ∈ quoteMarks) :
    (s.reading text before none).step 44 c = s.reading (text ++ [c]) before (some c) := by
  have hmark : c = 34 ∨ c = 39 := by simpa [quoteMarks] using hc
  simp [step, reading, hmark]

/-- A comma that splits nothing is a sign like any other. -/
theorem step_sign (hc : c ∉ quoteMarks) (hcomma : c = 44 → ¬ Level bracketPairs before) :
    (s.reading text before none).step 44 c = s.reading (text ++ [c]) (before ++ [c]) none := by
  have hmark : ¬ (c = 34 ∨ c = 39) := by simpa [quoteMarks] using hc
  have hpushed : { s.reading text before none with current := (s.reading text before none).current ++ [c] } =
      s.reading (text ++ [c]) before none := by simp [reading]
  have hstays : ¬ (c = 44 ∧ depth (91, 93) (before ++ [c]) = 0 ∧ depth (123, 125) (before ++ [c]) = 0 ∧
      depth (40, 41) (before ++ [c]) = 0) := by
    rintro ⟨rfl, hlevel⟩
    apply hcomma rfl
    rw [level_bracketPairs]
    simpa [depth_concat] using hlevel
  simp only [step]
  rw [hpushed]
  show (if c = 34 ∨ c = 39 then _ else _) = _
  rw [if_neg hmark, nest_reading]
  exact if_neg hstays

theorem step_inside (hescape : c ≠ 92) (hmark : c ≠ mark) :
    (s.reading text before (some mark)).step 44 c = s.reading (text ++ [c]) before (some mark) := by
  simp [step, reading, hescape, hmark]

theorem step_closing (hescape : mark ≠ 92) :
    (s.reading text before (some mark)).step 44 mark = s.reading (text ++ [mark]) before none := by
  simp [step, reading, hescape]

theorem step_escaped :
    ((s.reading text before (some mark)).step 44 92).step 44 c = s.reading (text ++ [92, c]) before (some mark) := by
  simp [step, reading]

/-! ## A text -/

/-- The run of the loop follows the reading of the quoted parts: the word that stands outside of them grows by the
signs that are read there. -/
theorem foldl_reading (hread : unquoted quoteMarks 92 quote rest = some outside) (hquote : 92 ∉ quote)
    (hcommas : Enclosed bracketPairs 44 (before ++ outside)) :
    rest.foldl (step 44) (s.reading text before quote) = s.reading (text ++ rest) (before ++ outside) none := by
  induction quote, rest using unquoted.induct quoteMarks 92 generalizing text before outside with
  | case1 =>
    obtain rfl : [] = outside := Option.some.inj hread
    rw [List.foldl_nil, List.append_nil, List.append_nil]
  | case2 c rest hc ih =>
    have hescape : 92 ∉ some c := by
      rintro ⟨⟩
      exact absurd hc (by decide)
    rw [unquoted_opening hc] at hread
    rw [List.foldl_cons, step_mark hc, ih hread hescape hcommas, ← List.append_cons]
  | case3 c rest hc ih =>
    rw [unquoted_sign hc] at hread
    obtain ⟨tail, htail, rfl⟩ := Option.map_eq_some_iff.mp hread
    have hcomma : c = 44 → ¬ Level bracketPairs before := by
      rintro rfl
      apply hcommas.not_level
      exact ⟨tail, (List.append_cons before 44 tail).symm⟩
    rw [List.append_cons] at hcommas
    rw [List.foldl_cons, step_sign hc hcomma, ih htail hquote hcommas, ← List.append_cons, ← List.append_cons]
  | case4 mark =>
    cases hread
  | case5 mark =>
    cases hread
  | case6 mark c rest ih =>
    rw [unquoted_escaped] at hread
    rw [List.foldl_cons, List.foldl_cons, step_escaped, ih hread hquote hcommas, List.append_assoc]
    rfl
  | case7 mark rest hescape ih =>
    rw [unquoted_closing hescape] at hread
    rw [List.foldl_cons, step_closing hescape, ih hread (Option.not_mem_none _) hcommas, ← List.append_cons]
  | case8 mark c rest hescape hmark ih =>
    rw [unquoted_inside hescape hmark] at hread
    rw [List.foldl_cons, step_inside hescape hmark, ih hread hquote hcommas, ← List.append_cons]

end SplitState

theorem IsPart.passes {text : JsString} (h : IsPart text) : SplitState.Passes text := by
  intro s htop
  obtain ⟨outside, hread, hlevel, hcommas⟩ := h.balanced
  have hrun : text.foldl (SplitState.step 44) (s.reading [] [] none) = s.reading ([] ++ text) ([] ++ outside) none :=
    SplitState.foldl_reading hread (Option.not_mem_none _) hcommas
  rw [SplitState.reading_nil htop] at hrun
  rw [hrun, List.nil_append, List.nil_append, SplitState.reading_level htop hlevel.closed]

/-- Splitting gives the texts back that were joined with a comma, with or without a blank behind it. -/
theorem splitTopLevel_joined {separator : JsString} {texts : List JsString}
    (hseparator : separator = js ", " ∨ separator = js ",") (htexts : ∀ text ∈ texts, IsPart text) :
    splitTopLevel (joinTexts separator texts) 44 = texts := by
  have hparts : ∀ text ∈ texts, Framed text ∧ SplitState.Passes text := fun text htext =>
    ⟨framed_iff.mpr ⟨(htexts text htext).nonempty, (htexts text htext).trimmed⟩, (htexts text htext).passes⟩
  obtain rfl | rfl := hseparator
  · exact splitTopLevel_joinTexts (by decide : ∀ c ∈ [32], isRegexSpace c = true) hparts
  · exact splitTopLevel_joinTexts (List.forall_mem_nil _) hparts

/-- Nested brackets with commas, and a quoted part with a comma, an escaped mark and a bracket that is not closed. -/
theorem splitTopLevel_joined_example :
    splitTopLevel (joinTexts (js ", ")
        [js "nums = [1,\x7b\"a\":(2,3)\x7d]", js "s = \"x,\\\"[y\"", js "t = '(\"'"]) 44 =
      [js "nums = [1,\x7b\"a\":(2,3)\x7d]", js "s = \"x,\\\"[y\"", js "t = '(\"'"] ∧
    splitTopLevel (joinTexts (js ",") [js "f(x, [y])", js "'a, b'"]) 44 = [js "f(x, [y])", js "'a, b'"] :=
  ⟨splitTopLevel_joined (Or.inl rfl) (by decide +kernel), splitTopLevel_joined (Or.inr rfl) (by decide +kernel)⟩

end CodeShare
