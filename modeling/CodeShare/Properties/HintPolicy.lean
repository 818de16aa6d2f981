import CodeShare.Foundations.Transducers
import CodeShare.Services.HintService

/-! # Prompts and hints within their bounds

A prompt keeps to its limit exactly from the limit on at which its last truncation leaves the user's
part the room it insists on. A hint is checked by the policy before it is cut, and a cut can make a
keyword of a longer word, or a line of code of white space.
-/

namespace CodeShare.HintService
open Substitution
set_option autoImplicit false

theorem length_truncate (value : JsString) {maxChars : ℕ} (h : 0 < maxChars) :
    (truncate value maxChars).length = min value.length maxChars := by
  unfold truncate
  rw [if_neg (by omega)]
  split_ifs with hle
  · omega
  · rw [List.length_append, List.length_take, List.length_singleton]
    omega

/-! ## The prompt -/

theorem length_js (literal : String) : (js literal).length = literal.length := by
  rw [js, List.length_map, String.length_toList]

theorem length_systemMessage : systemMessage.length = 274 := by decide +kernel

theorem length_levelSection (hintLevel : JsNumber) : 79 ≤ (levelSection hintLevel).length := by
  have hstart : (js "Hint level: ").length = 12 := by rw [length_js]; rfl
  have hstop : (js " (1=concept, 2=approach, 3=pseudocode-level guidance without code).").length = 67 := by
    rw [length_js]; rfl
  rw [levelSection, List.length_append, List.length_append, hstart, hstop]
  omega

theorem length_buildHintBlock (label value : JsString) :
    2 * label.length + 7 ≤ (buildHintBlock label value).length := by
  simp only [buildHintBlock, buildDelimitedBlock, List.length_append, length_js]
  have h : "[".length = 1 ∧ "]\n".length = 2 ∧ "\n[/".length = 3 ∧ "]".length = 1 := by decide
  omega

theorem length_joinTexts_cons_cons (separator a b : JsString) (rest : List JsString) :
    a.length + separator.length + b.length ≤ (joinTexts separator (a :: b :: rest)).length := by
  unfold joinTexts
  cases rest with
  | nil => simp; omega
  | cons c rest => simp; omega

theorem filter_cons_ne_nil {a : JsString} (h : a ≠ []) (rest : List JsString) :
    (a :: rest).filter (· ≠ []) = a :: rest.filter (· ≠ []) :=
  List.filter_cons_of_pos (decide_eq_true h)

/-- The sections that are never left out are longer than the last truncation may have to leave. -/
theorem length_userSections (opts : HintOptions) (budgets : Budgets) :
    120 ≤ (userSections opts budgets).length := by
  have hlevel := length_levelSection opts.hintLevel
  have hblock := length_buildHintBlock (js "PROBLEM_DESCRIPTION")
    (truncate opts.description budgets.description)
  have hlabel : (js "PROBLEM_DESCRIPTION").length = 19 := by rw [length_js]; rfl
  have hlevelNe : levelSection opts.hintLevel ≠ [] := List.ne_nil_of_length_pos (by omega)
  have hblockNe : buildHintBlock (js "PROBLEM_DESCRIPTION")
      (truncate opts.description budgets.description) ≠ [] := List.ne_nil_of_length_pos (by omega)
  unfold userSections
  rw [filter_cons_ne_nil hlevelNe, filter_cons_ne_nil hblockNe]
  apply Nat.le_trans ?_ (length_joinTexts_cons_cons _ _ _ _)
  omega

/-- The user's part is cut to what the system's part leaves, but never below 120. -/
theorem totalChars_buildLLMMessages (opts : HintOptions) (maxPromptChars : ℕ) :
    totalChars (buildLLMMessages opts maxPromptChars) =
      274 + min (userSections opts (allocateBudgets maxPromptChars)).length
        (max 120 (maxPromptChars - 274)) := by
  have hlong := length_userSections opts (allocateBudgets maxPromptChars)
  have htotal : ∀ content : JsString,
      totalChars [⟨.system, systemMessage⟩, ⟨.user, content⟩] = 274 + content.length := by
    intro content
    simp [totalChars, length_systemMessage]
  unfold buildLLMMessages
  dsimp only
  rw [htotal]
  split_ifs with hover
  · rw [htotal, length_truncate _ (by omega), length_systemMessage]
  · rw [htotal]
    omega

/-- The limit is kept from 394 characters on, and from there on only. -/
theorem prompt_bounded_iff (opts : HintOptions) (maxPromptChars : ℕ) :
    totalChars (buildLLMMessages opts maxPromptChars) ≤ maxPromptChars ↔ 394 ≤ maxPromptChars := by
  have hlong := length_userSections opts (allocateBudgets maxPromptChars)
  rw [totalChars_buildLLMMessages]
  omega

def exampleHintOptions : HintOptions where
  description := js "Two Sum"
  constraints := []
  currentCode := []
  hintLevel := .ofDecimal false 1
  previousHints := []
  lastFailure := none

theorem prompt_over_limit :
    ¬ ∀ (opts : HintOptions) (maxPromptChars : ℕ), 0 < maxPromptChars →
      totalChars (buildLLMMessages opts maxPromptChars) ≤ maxPromptChars := by
  intro hclaim
  have hbounded := hclaim exampleHintOptions 300 (by decide)
  have hlong := length_userSections exampleHintOptions (allocateBudgets 300)
  rw [totalChars_buildLLMMessages] at hbounded
  omega

/-! ## A cut -/

section
variable {text : JsString}

/-- A keyword is one in front of the ellipsis, too. -/
theorem startsWithKeyword_ellipsis (text : JsString) :
    startsWithKeyword (text ++ [ellipsis]) = startsWithKeyword text := by
  have hkeywords : ∀ keyword ∈ declarationKeywords, ellipsis ∉ keyword := by decide +kernel
  have hboundary : ∀ keyword : JsString, keyword <+: text →
      (((text ++ [ellipsis]).drop keyword.length).head?.any isWordUnit) =
        ((text.drop keyword.length).head?.any isWordUnit) := by
    intro keyword hbegins
    rw [List.drop_append_of_le_length hbegins.length_le]
    cases text.drop keyword.length with
    | nil => rfl
    | cons c rest => rfl
  unfold startsWithKeyword
  rw [Bool.eq_iff_iff, List.any_eq_true, List.any_eq_true]
  refine exists_congr fun keyword => and_congr_right fun hkeyword => ?_
  rw [Bool.and_eq_true, Bool.and_eq_true, decide_eq_true_eq, decide_eq_true_eq]
  constructor
  · rintro ⟨hbegins, hword⟩
    have hbegins' := (prefix_append_cons_iff (hkeywords keyword hkeyword)).mp hbegins
    exact ⟨hbegins', hboundary keyword hbegins' ▸ hword⟩
  · rintro ⟨hbegins, hword⟩
    exact ⟨hbegins.trans (List.prefix_append _ _), (hboundary keyword hbegins).symm ▸ hword⟩

theorem hasDeclaration_ellipsis (lineStart : Bool) (text : JsString) :
    hasDeclaration lineStart (text ++ [ellipsis]) = hasDeclaration lineStart text := by
  induction text generalizing lineStart with
  | nil => cases lineStart <;> decide +kernel
  | cons c rest ih =>
    have hstart := startsWithKeyword_ellipsis (c :: rest)
    rw [List.cons_append] at hstart ⊢
    rw [hasDeclaration, hasDeclaration, hstart, ih]

theorem dropWhile_append_of_ne_nil {p : ℕ → Bool} (h : text.dropWhile p ≠ []) (rest : JsString) :
    (text ++ rest).dropWhile p = text.dropWhile p ++ rest ∧
      (text ++ rest).takeWhile p = text.takeWhile p := by
  induction text with
  | nil => exact absurd rfl h
  | cons c text ih =>
    by_cases hc : p c = true
    · rw [List.dropWhile_cons_of_pos hc] at h ⊢
      obtain ⟨hdrop, htake⟩ := ih h
      rw [List.cons_append, List.dropWhile_cons_of_pos hc, List.takeWhile_cons_of_pos hc,
        List.takeWhile_cons_of_pos hc, hdrop, htake]
      exact ⟨rfl, rfl⟩
    · rw [List.cons_append, List.dropWhile_cons_of_neg hc, List.dropWhile_cons_of_neg hc,
        List.takeWhile_cons_of_neg hc, List.takeWhile_cons_of_neg hc]
      exact ⟨rfl, rfl⟩

theorem dropWhile_append_of_nil {p : ℕ → Bool} (h : text.dropWhile p = []) (rest : JsString) :
    (text ++ rest).dropWhile p = rest.dropWhile p ∧
      (text ++ rest).takeWhile p = text ++ rest.takeWhile p := by
  have hall : ∀ c ∈ text, p c = true := by simpa using h
  exact ⟨List.dropWhile_append_of_pos hall, List.takeWhile_append_of_pos hall⟩

theorem isRegexSpace_ellipsis : isRegexSpace ellipsis = false := by decide

/-- An arrow in front of the ellipsis is one in whatever the text is the beginning of. -/
theorem hasArrow_of_ellipsis (h : hasArrow (text ++ [ellipsis]) = true) (rest : JsString) :
    hasArrow (text ++ rest) = true := by
  induction text with
  | nil => exact absurd h (by decide)
  | cons c text ih =>
    rw [List.cons_append, hasArrow, Bool.or_eq_true, Bool.and_eq_true, decide_eq_true_eq,
      decide_eq_true_eq] at h
    rw [List.cons_append, hasArrow, Bool.or_eq_true, Bool.and_eq_true, decide_eq_true_eq,
      decide_eq_true_eq]
    rcases h with ⟨hclose, harrow⟩ | hlater
    · refine Or.inl ⟨hclose, ?_⟩
      by_cases hnil : text.dropWhile isRegexSpace = []
      · rw [(dropWhile_append_of_nil hnil _).1] at harrow
        exact absurd harrow (by decide)
      · rw [(dropWhile_append_of_ne_nil hnil _).1] at harrow ⊢
        exact ((prefix_append_cons_iff (by decide)).mp harrow).trans (List.prefix_append _ _)
    · exact Or.inr (ih hlater)

/-! ## Indented lines -/

/-- A line of nothing but white space, which any letter behind it makes an indented one. -/
def IsBlankIndent (line : JsString) : Prop := 2 ≤ line.length ∧ ∀ c ∈ line, isRegexSpace c = true

def lastLine (text : JsString) : JsString := (text.splitOn 10).getLast?.getD []

theorem isIndented_append {line : JsString} (h : isIndented line = true) (rest : JsString) :
    isIndented (line ++ rest) = true := by
  unfold isIndented at h ⊢
  rw [Bool.and_eq_true, Bool.not_eq_true', List.isEmpty_eq_false_iff] at h
  obtain ⟨hdrop, htake⟩ := dropWhile_append_of_ne_nil h.2 rest
  rw [hdrop, htake, Bool.and_eq_true, Bool.not_eq_true', List.isEmpty_eq_false_iff]
  exact ⟨h.1, List.append_ne_nil_of_left_ne_nil h.2 rest⟩

theorem isIndented_ellipsis (line : JsString) :
    isIndented (line ++ [ellipsis]) = true ↔ isIndented line = true ∨ IsBlankIndent line := by
  by_cases hblank : line.dropWhile isRegexSpace = []
  · have hall : ∀ c ∈ line, isRegexSpace c = true := by simpa using hblank
    have hnot : isIndented line = false := by simp [isIndented, hblank]
    obtain ⟨hdrop, htake⟩ := dropWhile_append_of_nil hblank [ellipsis]
    rw [isIndented, hdrop, htake, hnot, List.dropWhile_cons_of_neg (by decide),
      List.takeWhile_cons_of_neg (by decide), List.append_nil]
    simpa [IsBlankIndent] using fun _ => hall
  · have hnot : ¬ IsBlankIndent line := fun h => hblank (by simpa using h.2)
    obtain ⟨hdrop, htake⟩ := dropWhile_append_of_ne_nil hblank [ellipsis]
    rw [or_iff_left hnot, isIndented, isIndented, hdrop, htake]
    simp [hblank]

/-- The lines of a text that is cut, of the cut text, and of the cut text with the ellipsis. -/
theorem indentedLines_append (text : JsString) : ∃ complete,
    indentedLines text = complete + (if isIndented (lastLine text) then 1 else 0) ∧
      indentedLines (text ++ [ellipsis]) =
        complete + (if isIndented (lastLine text ++ [ellipsis]) then 1 else 0) ∧
      ∀ rest, complete + (if isIndented (lastLine text) then 1 else 0) ≤ indentedLines (text ++ rest) := by
  obtain ⟨done, line, hline, hsplit⟩ := exists_splitOn_append 10 text
  have htext := hsplit []
  rw [List.append_nil, List.append_nil, List.splitOn_eq_singleton hline] at htext
  have hlast : lastLine text = line := by simp [lastLine, htext]
  refine ⟨done.countP isIndented, ?_, ?_, fun rest => ?_⟩
  · rw [indentedLines, htext, hlast, List.countP_append]
    simp [List.countP_cons]
  · have hellipsis : (10 : ℕ) ∉ line ++ [ellipsis] := by
      rw [List.mem_append, not_or]
      exact ⟨hline, by decide⟩
    rw [indentedLines, hsplit, hlast, List.countP_append, List.splitOn_eq_singleton hellipsis]
    simp [List.countP_cons]
  · rw [indentedLines, hsplit, hlast, List.countP_append]
    apply Nat.add_le_add_left
    by_cases hindented : isIndented line = true
    · have hfirst : ((line ++ rest).splitOn 10).head? = some (line ++ rest.takeWhile (· ≠ 10)) := by
        have hno : ∀ c ∈ line, decide (c ≠ 10) = true :=
          fun c hc => decide_eq_true fun h10 : c = 10 => hline (h10 ▸ hc)
        rw [head?_splitOn, List.takeWhile_append_of_pos hno]
      rw [if_pos hindented, Nat.succ_le_iff, List.countP_pos_iff]
      exact ⟨_, List.mem_of_mem_head? hfirst, isIndented_append hindented _⟩
    · rw [if_neg hindented]
      exact Nat.zero_le _

/-- The cut makes an indented line only of white space. -/
theorem indentedLines_ellipsis {rest : JsString} (h : indentedLines (text ++ rest) < 5) :
    5 ≤ indentedLines (text ++ [ellipsis]) ↔ 4 ≤ indentedLines text ∧ IsBlankIndent (lastLine text) := by
  obtain ⟨complete, htext, hcut, hle⟩ := indentedLines_append text
  have hrest := hle rest
  rw [htext, hcut]
  by_cases hindented : isIndented (lastLine text) = true
  · have hblank : ¬ IsBlankIndent (lastLine text) := by
      intro hblank
      simp [isIndented, List.dropWhile_eq_nil_iff.mpr hblank.2] at hindented
    rw [if_pos hindented] at hrest ⊢
    rw [if_pos ((isIndented_ellipsis _).mpr (Or.inl hindented))]
    exact iff_of_false (by omega) fun hboth => hblank hboth.2
  · rw [if_neg hindented] at hrest ⊢
    by_cases hblank : IsBlankIndent (lastLine text)
    · rw [if_pos ((isIndented_ellipsis _).mpr (Or.inr hblank)), and_iff_left hblank]
      omega
    · rw [if_neg fun h => ((isIndented_ellipsis _).mp h).elim hindented hblank]
      exact iff_of_false (by omega) fun hboth => hblank hboth.2

/-! ## The policy and the cut -/

/-- The first characters of a hint, and what must not be there when the rest of it is cut off: a keyword at
the start of a line, or white space that would become the fifth line of code. -/
def CutsCleanly (kept : JsString) : Prop :=
  hasDeclaration true kept = false ∧ ¬ (4 ≤ indentedLines kept ∧ IsBlankIndent (lastLine kept))

theorem looksLikeFullSolution_eq_false (text : JsString) :
    looksLikeFullSolution text = false ↔ ¬ js "```" <:+: text ∧ hasDeclaration true text = false ∧
      hasArrow text = false ∧ indentedLines text < 5 := by
  simp [looksLikeFullSolution, and_assoc]

theorem policy_ellipsis_iff {kept rest : JsString}
    (h : looksLikeFullSolution (kept ++ rest) = false) :
    looksLikeFullSolution (kept ++ [ellipsis]) = false ↔ CutsCleanly kept := by
  obtain ⟨hfence, -, harrow, hlines⟩ := (looksLikeFullSolution_eq_false _).mp h
  have hfence' : ¬ js "```" <:+: kept ++ [ellipsis] := by
    intro hcontained
    have hkept : js "```" <:+: kept :=
      infix_of_infix_between (by decide) (List.forall_mem_nil _) (List.forall_mem_singleton.mpr (by decide)) hcontained
    exact hfence (hkept.trans (List.prefix_append kept rest).isInfix)
  have harrow' : hasArrow (kept ++ [ellipsis]) = false := by
    by_contra hno
    rw [hasArrow_of_ellipsis (Bool.not_eq_false _ ▸ hno) rest] at harrow
    cases harrow
  rw [looksLikeFullSolution_eq_false, hasDeclaration_ellipsis, ← Nat.not_le, indentedLines_ellipsis hlines,
    CutsCleanly]
  exact ⟨fun h => ⟨h.2.1, h.2.2.2⟩, fun h => ⟨hfence', h.1, harrow', h.2⟩⟩

end

/-! ## What is accepted -/

section
variable {text hint : JsString} {maxHintChars : ℕ}

/-- A text without NUL and without white space at its ends. -/
structure IsNormal (text : JsString) : Prop where
  no_nul : 0 ∉ text
  trimmed : jsTrim text = text

theorem jsTrim_sublist (text : JsString) : (jsTrim text).Sublist text :=
  (List.rdropWhile_prefix _ _).sublist.trans (List.dropWhile_sublist _)

theorem normalizeHint_isNormal (text : JsString) : IsNormal (normalizeHint text) where
  no_nul := by
    intro hnul
    have hmem := (jsTrim_sublist _).subset hnul
    rw [List.mem_filter] at hmem
    exact absurd hmem.2 (by decide)
  trimmed := jsTrim_jsTrim _

theorem normalizeHint_eq_self (h : IsNormal text) : normalizeHint text = text := by
  have hfilter : text.filter (· ≠ 0) = text :=
    List.filter_eq_self.mpr fun c hc => decide_eq_true fun h0 : c = 0 => h.no_nul (h0 ▸ hc)
  rw [normalizeHint, hfilter, h.trimmed]

theorem IsNormal.head_not_space {c : ℕ} {rest : JsString} (h : IsNormal (c :: rest)) :
    isRegexSpace c = false := by
  by_contra hspace
  have hlength := (jsTrim_sublist (c :: rest)).length_le
  have hdrop : (jsTrim (c :: rest)).length ≤ rest.length := by
    unfold jsTrim
    rw [List.dropWhile_cons_of_pos (Bool.not_eq_false _ ▸ hspace)]
    exact (jsTrim_sublist rest).length_le
  rw [h.trimmed, List.length_cons] at hdrop
  omega

/-- A cut text is normal again. -/
theorem IsNormal.cut (h : IsNormal text) (kept : ℕ) : IsNormal (text.take kept ++ [ellipsis]) where
  no_nul := by
    rw [List.mem_append, not_or]
    exact ⟨fun hnul => h.no_nul (List.mem_of_mem_take hnul), by decide⟩
  trimmed := by
    have hsingle : jsTrim [ellipsis] = [ellipsis] := by decide
    cases text with
    | nil => rw [List.take_nil, List.nil_append, hsingle]
    | cons c rest =>
      cases kept with
      | zero => rw [List.take_zero, List.nil_append, hsingle]
      | succ kept =>
        have htrim : jsTrim (c :: (rest.take kept ++ [ellipsis]) ++ []) =
            c :: (rest.take kept ++ [ellipsis]) :=
          jsTrim_append h.head_not_space isRegexSpace_ellipsis nofun
        rwa [List.append_nil] at htrim

theorem sanitizeLLMHint_eq_ok :
    sanitizeLLMHint text maxHintChars = .ok hint ↔ normalizeHint text ≠ [] ∧
      looksLikeFullSolution (normalizeHint text) = false ∧
        truncate (normalizeHint text) maxHintChars = hint := by
  unfold sanitizeLLMHint
  dsimp only
  split_ifs with hempty hpolicy
  · exact iff_of_false nofun fun h => h.1 hempty
  · exact iff_of_false nofun fun h => by rw [h.2.1] at hpolicy; cases hpolicy
  · rw [Except.ok.injEq, Bool.not_eq_true] at *
    exact ⟨fun h => ⟨hempty, hpolicy, h⟩, fun h => h.2.2⟩

/-- The policy accepts the hint as it is. -/
structure Accepted (hint : JsString) (maxHintChars : ℕ) : Prop where
  ne_nil : hint ≠ []
  length_le : hint.length ≤ maxHintChars
  policy : looksLikeFullSolution hint = false
  fixed : sanitizeLLMHint hint maxHintChars = .ok hint

theorem accepted_iff (hnormal : IsNormal hint) (hne : hint ≠ []) (hlength : hint.length ≤ maxHintChars) :
    Accepted hint maxHintChars ↔ looksLikeFullSolution hint = false := by
  refine ⟨Accepted.policy, fun hpolicy => ⟨hne, hlength, hpolicy, ?_⟩⟩
  have hpos : ¬ maxHintChars = 0 := by
    have := List.length_pos_iff.mpr hne
    omega
  rw [sanitizeLLMHint_eq_ok, normalizeHint_eq_self hnormal, truncate, if_neg hpos, if_pos hlength]
  exact ⟨hne, hpolicy, rfl⟩

/-- A hint is closed under the policy exactly when nothing was cut off, or the cut is clean. -/
theorem sanitized_closed_iff (hmax : 0 < maxHintChars)
    (h : sanitizeLLMHint text maxHintChars = .ok hint) :
    Accepted hint maxHintChars ↔ (normalizeHint text).length ≤ maxHintChars ∨
      CutsCleanly ((normalizeHint text).take (maxHintChars - 1)) := by
  obtain ⟨hne, hpolicy, rfl⟩ := sanitizeLLMHint_eq_ok.mp h
  have hnormal := normalizeHint_isNormal text
  unfold truncate
  rw [if_neg (by omega)]
  by_cases hshort : (normalizeHint text).length ≤ maxHintChars
  · rw [if_pos hshort, accepted_iff hnormal hne hshort]
    exact iff_of_true hpolicy (Or.inl hshort)
  · have hlength : ((normalizeHint text).take (maxHintChars - 1) ++ [ellipsis]).length ≤ maxHintChars := by
      rw [List.length_append, List.length_take, List.length_singleton]
      omega
    rw [if_neg hshort, or_iff_right hshort, accepted_iff (hnormal.cut _) (by simp) hlength]
    exact policy_ellipsis_iff (by rwa [List.take_append_drop])

/-- A text that is too long is cut inside a word, and what is left is a hint still. -/
theorem sanitized_closed_iff_example :
    8 < (normalizeHint (js " use a hash map\n")).length ∧
    CutsCleanly ((normalizeHint (js " use a hash map\n")).take (8 - 1)) ∧
    Accepted (js "use a h" ++ [ellipsis]) 8 := by
  have hclean : CutsCleanly ((normalizeHint (js " use a hash map\n")).take (8 - 1)) :=
    ⟨by decide +kernel, fun h => absurd h.1 (by decide +kernel)⟩
  have hcut : sanitizeLLMHint (js " use a hash map\n") 8 = .ok (js "use a h" ++ [ellipsis]) := by decide +kernel
  exact ⟨by decide +kernel, hclean, (sanitized_closed_iff (by decide) hcut).mpr (.inr hclean)⟩

/-- A longer word is cut to a keyword, and what was accepted is rejected. -/
theorem cut_makes_keyword :
    ¬ ∀ (text : JsString) (maxHintChars : ℕ) (hint : JsString), 0 < maxHintChars →
      sanitizeLLMHint text maxHintChars = .ok hint → Accepted hint maxHintChars := by
  intro hclaim
  have haccepted := hclaim (js "classify") 6 (js "class" ++ [ellipsis]) (by decide) (by decide +kernel)
  have hpolicy : looksLikeFullSolution (js "class" ++ [ellipsis]) = true := by decide +kernel
  rw [haccepted.policy] at hpolicy
  cases hpolicy

end

end CodeShare.HintService
