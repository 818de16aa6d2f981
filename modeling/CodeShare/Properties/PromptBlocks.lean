import CodeShare.Properties.Delimiters
import CodeShare.Properties.HintPolicy
import CodeShare.Text.Occurrence

/-! # The blocks of a prompt

Every section of a prompt is cut before it is put between its delimiters, so each block is closed. The last
truncation of the whole prompt cuts through the blocks.
-/

namespace CodeShare.HintService
open Rewriting Substitution
set_option autoImplicit false

/-! ## The delimiters of a text -/

/-- Whether a text starts with `[/tag]` or with `[tag]`, in any letter case. -/
def delimiterAt (tags : List JsString) (text : JsString) : Option (Bool × JsString) :=
  tags.findSome? fun tag =>
    if (matchCaseless (js "[/" ++ tag ++ js "]") text).isSome then some (true, tag)
    else if (matchCaseless (js "[" ++ tag ++ js "]") text).isSome then some (false, tag)
    else none

/-- From left to right; the flag tells the closing ones. -/
def delimitersIn (tags : List JsString) : JsString → List (Bool × JsString)
  | [] => []
  | c :: text => (delimiterAt tags (c :: text)).toList ++ delimitersIn tags text

/-- Complete pairs, one behind the other. -/
def Paired : List (Bool × JsString) → Prop
  | [] => True
  | (false, tag) :: (true, tag') :: rest => tag = tag' ∧ Paired rest
  | _ => False

/-- No opened block is left open, and none opens in another one. -/
structure BlocksClosed (text : JsString) : Prop where
  paired : Paired (delimitersIn hintTags text)

theorem blocksClosed_iff {text : JsString} : BlocksClosed text ↔ Paired (delimitersIn hintTags text) :=
  ⟨BlocksClosed.paired, BlocksClosed.mk⟩

variable {a b text label value : JsString} {c : ℕ}

theorem matchCaseless_isSome {pattern : JsString} :
    (matchCaseless pattern text).isSome = true ↔ pattern.map asciiLower <+: text.map asciiLower := by
  unfold matchCaseless
  rw [List.prefix_iff_eq_take, List.length_map, ← List.map_take]
  split_ifs with h
  · simpa using h
  · simpa using h

/-- A unit that is in no delimiter. -/
def Separates (c : ℕ) : Prop := ∀ tag ∈ hintTags, asciiLower c ∉ (js "[/" ++ tag ++ js "]").map asciiLower

instance (c : ℕ) : Decidable (Separates c) := inferInstanceAs (Decidable (∀ tag ∈ hintTags, _))

theorem findSome?_congr {α β : Type} {f g : α → Option β} {l : List α} (h : ∀ x ∈ l, f x = g x) :
    l.findSome? f = l.findSome? g := by
  induction l with
  | nil => rfl
  | cons x l ih =>
    rw [List.forall_mem_cons] at h
    rw [List.findSome?_cons, List.findSome?_cons, h.1, ih h.2]

theorem delimiterAt_separated (hc : Separates c) (a b : JsString) :
    delimiterAt hintTags (a ++ c :: b) = delimiterAt hintTags a := by
  have hcut : ∀ pattern : JsString, asciiLower c ∉ pattern.map asciiLower →
      (matchCaseless pattern (a ++ c :: b)).isSome = (matchCaseless pattern a).isSome := by
    intro pattern hnot
    rw [Bool.eq_iff_iff, matchCaseless_isSome, matchCaseless_isSome, List.map_append, List.map_cons,
      prefix_append_cons_iff hnot]
  unfold delimiterAt
  refine findSome?_congr fun tag htag => ?_
  have hopening : asciiLower c ∉ (js "[" ++ tag ++ js "]").map asciiLower := by
    have hclosing := hc tag htag
    simp only [List.map_append, List.mem_append, not_or] at hclosing ⊢
    refine ⟨⟨fun hm => hclosing.1.1 ?_, hclosing.1.2⟩, hclosing.2⟩
    have hsub : ∀ x ∈ (js "[").map asciiLower, x ∈ (js "[/").map asciiLower := by decide
    exact hsub _ hm
  rw [hcut _ (hc tag htag), hcut _ hopening]

theorem delimitersIn_separated (hc : Separates c) (a b : JsString) :
    delimitersIn hintTags (a ++ c :: b) = delimitersIn hintTags a ++ delimitersIn hintTags b := by
  have hhead : delimiterAt hintTags (c :: b) = none := by
    have h := delimiterAt_separated hc [] b
    rw [List.nil_append] at h
    rw [h]
    decide
  induction a with
  | nil =>
    show (delimiterAt hintTags (c :: b)).toList ++ delimitersIn hintTags b = _
    rw [hhead]
    rfl
  | cons x a ih =>
    have hx := delimiterAt_separated hc (x :: a) b
    rw [List.cons_append] at hx
    rw [List.cons_append, delimitersIn, delimitersIn, ih, hx, List.append_assoc]

/-- A text in which no delimiter starts. -/
theorem delimitersIn_eq_nil (h : ∀ n word, IsDelimiter hintTags word → ¬ word <+: text.drop n) :
    delimitersIn hintTags text = [] := by
  have hat (n : ℕ) : delimiterAt hintTags (text.drop n) = none := by
    rw [delimiterAt, List.findSome?_eq_none_iff]
    intro tag htag
    have hnone : ∀ pattern : JsString, (∀ word, word.map asciiLower = pattern.map asciiLower → IsDelimiter hintTags word) →
        (matchCaseless pattern (text.drop n)).isSome = false := by
      intro pattern hpattern
      rw [Bool.eq_false_iff]
      intro hsome
      obtain ⟨k, hk⟩ := Option.isSome_iff_exists.mp hsome
      obtain ⟨word, heq, hp, -⟩ := matchCaseless_eq_some.mp hk
      exact h n word (hpattern word heq) hp
    have hmem : tag ∈ hintTags ++ [js "SYSTEM"] := List.mem_append_left _ htag
    rw [hnone _ fun word heq => ⟨tag, hmem, Or.inr heq⟩, hnone _ fun word heq => ⟨tag, hmem, Or.inl heq⟩]
    rfl
  induction text with
  | nil => rfl
  | cons c text ih =>
    have hhead := hat 0
    rw [List.drop_zero] at hhead
    show (delimiterAt hintTags (c :: text)).toList ++ delimitersIn hintTags text = []
    rw [hhead, ih (fun n => h (n + 1)) fun n => hat (n + 1)]
    rfl

theorem tagWords_hintTags : TagWords hintTags := by
  unfold TagWords
  decide

/-- Without a closing bracket there is no delimiter. -/
theorem delimitersIn_of_not_mem (h : 93 ∉ text) : delimitersIn hintTags text = [] := by
  refine delimitersIn_eq_nil fun n word hword hp => h ?_
  obtain ⟨inner, rfl, -⟩ := hword.exists_inner tagWords_hintTags
  apply (List.drop_sublist n text).subset
  apply hp.subset
  simp

/-- A cut text has no other delimiters. -/
theorem delimitersIn_take (h : ∀ n word, IsDelimiter hintTags word → ¬ word <+: text.drop n) (q : ℕ) :
    delimitersIn hintTags (text.take q) = [] := by
  refine delimitersIn_eq_nil fun n word hword hp => h n word hword (hp.trans ?_)
  rw [List.drop_take]
  exact List.take_prefix _ _

/-! ## One block, cut -/

theorem delimitersIn_label (hlabel : label ∈ hintTags) :
    delimitersIn hintTags (js "[" ++ label ++ js "]") = [(false, label)] ∧
    delimitersIn hintTags (js "[/" ++ label ++ js "]") = [(true, label)] := by
  revert label
  decide +kernel

/-- The part of a block behind its opening line. -/
def blockRest (label value : JsString) : JsString :=
  escapeDelimiters hintTags value ++ 10 :: (js "[/" ++ label ++ js "]")

theorem buildHintBlock_eq (label value : JsString) :
    buildHintBlock label value = (js "[" ++ label ++ js "]") ++ 10 :: blockRest label value := by
  have hend : js "]\n" = js "]" ++ [10] := by decide
  have hstart : js "\n[/" = 10 :: js "[/" := by decide
  rw [buildHintBlock, buildDelimitedBlock, blockRest, hend, hstart]
  simp

def blockLength (label value : JsString) : ℕ := 2 * label.length + value.length + 7

theorem length_labels (label : JsString) : (js "[" ++ label ++ js "]").length = label.length + 2 ∧
    (js "[/" ++ label ++ js "]").length = label.length + 3 := by
  have hsigns : (js "[").length = 1 ∧ (js "[/").length = 2 ∧ (js "]").length = 1 := by decide
  rw [List.length_append, List.length_append, List.length_append, List.length_append, hsigns.1, hsigns.2.1, hsigns.2.2]
  omega

theorem length_blockRest (label value : JsString) :
    (blockRest label value).length = label.length + value.length + 4 := by
  rw [blockRest, List.length_append, List.length_cons, (length_labels label).2,
    length_escapeDelimiters tagWords_hintTags (by decide)]
  omega

theorem length_buildHintBlock_eq (label value : JsString) :
    (buildHintBlock label value).length = blockLength label value := by
  rw [buildHintBlock_eq, List.length_append, List.length_cons, (length_labels label).1, length_blockRest, blockLength]
  omega

/-- In front of its last sign a delimiter is none. -/
theorem not_mem_take {inner : JsString} (hinner : 93 ∉ inner) {q : ℕ} (hq : q ≤ inner.length) :
    93 ∉ (inner ++ js "]").take q := by
  rw [List.take_append_of_le_length hq]
  exact fun hm => hinner ((List.take_sublist q inner).subset hm)

theorem label_not_mem (hlabel : label ∈ hintTags) : 93 ∉ js "[" ++ label ∧ 93 ∉ js "[/" ++ label := by
  revert label
  decide +kernel

/-- Behind its opening line a block that is cut has no delimiter. -/
theorem delimitersIn_rest (hlabel : label ∈ hintTags) (value : JsString) {q : ℕ}
    (hq : q < (blockRest label value).length) : delimitersIn hintTags ((blockRest label value).take q) = [] := by
  have hlacks : ∀ n word, IsDelimiter hintTags word → ¬ word <+: (escapeDelimiters hintTags value).drop n :=
    fun n word hword => escapeDelimiters_lacks tagWords_hintTags (by decide) hword n
  have hescaped := length_escapeDelimiters tagWords_hintTags (by decide) value
  rw [length_blockRest] at hq
  rw [blockRest, List.take_append, hescaped]
  cases hover : q - value.length with
  | zero => rw [List.take_zero, List.append_nil, delimitersIn_take hlacks]
  | succ k =>
    have hfront : (js "[/" ++ label).length = label.length + 2 := by
      rw [List.length_append]
      exact Nat.add_comm 2 _
    rw [List.take_succ_cons, delimitersIn_separated (by decide), delimitersIn_take hlacks, List.nil_append]
    exact delimitersIn_of_not_mem (not_mem_take (label_not_mem hlabel).2 (by omega))

/-- **A block that is cut** has its opening line alone, unless the cut is outside of it. -/
theorem delimitersIn_cut (hlabel : label ∈ hintTags) (value : JsString) (q : ℕ) :
    delimitersIn hintTags ((buildHintBlock label value).take q) =
      if q < label.length + 2 then []
      else if q < blockLength label value then [(false, label)]
      else [(false, label), (true, label)] := by
  have hnewline : Separates 10 := by decide
  have hopeningLength := (length_labels label).1
  split_ifs with hopening hclosing
  · have hfront : (js "[" ++ label).length = label.length + 1 := by
      rw [List.length_append]
      exact Nat.add_comm 1 _
    rw [buildHintBlock_eq, List.take_append_of_le_length (by omega)]
    exact delimitersIn_of_not_mem (not_mem_take (label_not_mem hlabel).1 (by omega))
  · rw [blockLength] at hclosing
    rw [buildHintBlock_eq, List.take_append, List.take_of_length_le (by omega), hopeningLength]
    cases hover : q - (label.length + 2) with
    | zero => rw [List.take_zero, List.append_nil, (delimitersIn_label hlabel).1]
    | succ k =>
      have hk : k < (blockRest label value).length := by
        rw [length_blockRest]
        omega
      rw [List.take_succ_cons, delimitersIn_separated hnewline, (delimitersIn_label hlabel).1,
        delimitersIn_rest hlabel value hk, List.append_nil]
  · rw [List.take_of_length_le (by rw [length_buildHintBlock_eq]; omega), buildHintBlock_eq,
      delimitersIn_separated hnewline, (delimitersIn_label hlabel).1, blockRest, delimitersIn_separated hnewline,
      (delimitersIn_label hlabel).2, delimitersIn_eq_nil]
    · rfl
    · intro n word hword
      exact escapeDelimiters_lacks tagWords_hintTags (by decide) hword n

/-! ## All blocks, cut -/

/-- The blocks with the empty lines between them. -/
def blocksText (blocks : List (JsString × JsString)) : JsString :=
  blocks.flatMap fun block => 10 :: 10 :: buildHintBlock block.1 block.2

/-- The cut is behind the opening line of a block and in front of the block's end. -/
def CutInside : ℕ → List (JsString × JsString) → Prop
  | _, [] => False
  | cut, (label, value) :: blocks =>
    (label.length + 4 ≤ cut ∧ cut < blockLength label value + 2) ∨
      (blockLength label value + 2 ≤ cut ∧ CutInside (cut - (blockLength label value + 2)) blocks)

theorem blocksText_take (blocks : List (JsString × JsString)) (q : ℕ) :
    (blocksText blocks).take q = [] ∨ ∃ rest, (blocksText blocks).take q = 10 :: rest := by
  cases blocks with
  | nil => exact Or.inl List.take_nil
  | cons block blocks =>
    cases q with
    | zero => exact Or.inl List.take_zero
    | succ q =>
      right
      rw [blocksText, List.flatMap_cons, List.cons_append, List.take_succ_cons]
      exact ⟨_, rfl⟩

theorem delimitersIn_append (hb : b = [] ∨ ∃ rest, b = 10 :: rest) (a : JsString) :
    delimitersIn hintTags (a ++ b) = delimitersIn hintTags a ++ delimitersIn hintTags b := by
  have hnewline : Separates 10 := by decide
  rcases hb with rfl | ⟨rest, rfl⟩
  · rw [List.append_nil]
    exact (List.append_nil _).symm
  · have hrest := delimitersIn_separated hnewline [] rest
    rw [List.nil_append] at hrest
    rw [delimitersIn_separated hnewline, hrest]
    rfl

/-- **Blocks that are cut** are closed exactly when the cut is in none of them. -/
theorem paired_blocksText {blocks : List (JsString × JsString)} (hlabels : ∀ block ∈ blocks, block.1 ∈ hintTags) (q : ℕ) :
    Paired (delimitersIn hintTags ((blocksText blocks).take q)) ↔ ¬ CutInside q blocks := by
  induction blocks generalizing q with
  | nil =>
    rw [blocksText, List.flatMap_nil, List.take_nil]
    exact ⟨fun _ h => h, fun _ => trivial⟩
  | cons block blocks ih =>
    obtain ⟨label, value⟩ := block
    rw [List.forall_mem_cons] at hlabels
    have hlabel : label ∈ hintTags := hlabels.1
    have hlength := length_buildHintBlock_eq label value
    have htext : blocksText ((label, value) :: blocks) =
        10 :: 10 :: (buildHintBlock label value ++ blocksText blocks) := by
      rw [blocksText, List.flatMap_cons]
      rfl
    rw [htext, CutInside]
    match q with
    | 0 =>
      rw [List.take_zero]
      exact ⟨fun _ h => by omega, fun _ => trivial⟩
    | 1 =>
      have hone : delimitersIn hintTags ((10 :: 10 :: (buildHintBlock label value ++ blocksText blocks)).take 1) = [] := by
        rw [List.take_succ_cons, List.take_zero]
        decide
      rw [hone]
      exact ⟨fun _ h => by unfold blockLength at h; omega, fun _ => trivial⟩
    | q + 2 =>
      have hskip : delimitersIn hintTags ((10 :: 10 :: (buildHintBlock label value ++ blocksText blocks)).take (q + 2)) =
          delimitersIn hintTags ((buildHintBlock label value ++ blocksText blocks).take q) := by
        rw [List.take_succ_cons, List.take_succ_cons]
        have hfirst := delimitersIn_separated (c := 10) (by decide) []
          (10 :: (buildHintBlock label value ++ blocksText blocks).take q)
        have hsecond := delimitersIn_separated (c := 10) (by decide) []
          ((buildHintBlock label value ++ blocksText blocks).take q)
        rw [List.nil_append] at hfirst hsecond
        rw [hfirst, hsecond]
        rfl
      rw [hskip, List.take_append, delimitersIn_append (blocksText_take blocks _), delimitersIn_cut hlabel, hlength]
      have hopening : label.length + 2 < blockLength label value := by
        unfold blockLength
        omega
      split_ifs with hbefore hinside
      · have hzero : q - blockLength label value = 0 := by omega
        rw [hzero, List.take_zero]
        exact ⟨fun _ h => by omega, fun _ => trivial⟩
      · have hzero : q - blockLength label value = 0 := by omega
        rw [hzero, List.take_zero]
        exact ⟨fun h => h.elim, fun h => absurd (Or.inl ⟨by omega, by omega⟩) h⟩
      · have hrest := ih hlabels.2 (q - blockLength label value)
        have hcut : q + 2 - (blockLength label value + 2) = q - blockLength label value := by omega
        show label = label ∧ Paired (delimitersIn hintTags ((blocksText blocks).take (q - blockLength label value))) ↔ _
        rw [hrest, hcut]
        constructor
        · rintro ⟨-, h⟩ (hin | ⟨-, hlater⟩)
          · omega
          · exact h hlater
        · exact fun h => ⟨rfl, fun hlater => h (Or.inr ⟨by omega, hlater⟩)⟩

/-! ## The sections of a prompt -/

/-- The labels and the cut texts of the sections behind the first. -/
def promptBlocks (opts : HintOptions) (budgets : Budgets) : List (JsString × JsString) :=
  [(js "PROBLEM_DESCRIPTION", truncate opts.description budgets.description)] ++
  (if 0 < opts.constraints.length then
    [(js "CONSTRAINTS", truncate (joinTexts (js "\n") opts.constraints) budgets.constraints)] else []) ++
  (if opts.currentCode ≠ [] then
    [(js "CURRENT_CODE", truncate (stripCodeComments opts.currentCode) budgets.currentCode)] else []) ++
  (if 0 < opts.previousHints.length then
    [(js "PREVIOUS_HINTS", truncate (joinTexts (js "\n") opts.previousHints) budgets.previousHints)] else []) ++
  (if opts.lastFailure.getD [] ≠ [] then
    [(js "LAST_FAILURE", truncate (opts.lastFailure.getD []) budgets.lastFailure)] else [])

theorem promptBlocks_labels (opts : HintOptions) (budgets : Budgets) :
    ∀ block ∈ promptBlocks opts budgets, block.1 ∈ hintTags := by
  have hoptional {p : Prop} [Decidable p] {label text : JsString} (hlabel : label ∈ hintTags) :
      ∀ block ∈ (if p then [(label, text)] else []), block.1 ∈ hintTags := by
    intro block hblock
    split_ifs at hblock
    · obtain rfl := List.mem_singleton.mp hblock
      exact hlabel
    · cases hblock
  unfold promptBlocks
  simp only [List.forall_mem_append]
  refine ⟨⟨⟨⟨?_, hoptional (by decide)⟩, hoptional (by decide)⟩, hoptional (by decide)⟩, hoptional (by decide)⟩
  intro block hblock
  obtain rfl := List.mem_singleton.mp hblock
  exact List.mem_cons_self

theorem joinTexts_cons (separator a : JsString) (texts : List JsString) :
    joinTexts separator (a :: texts) = a ++ texts.flatMap (separator ++ ·) := by
  unfold joinTexts
  induction texts generalizing a with
  | nil => simp
  | cons b texts ih =>
    have hb := ih b
    rw [List.intersperse_cons_cons, List.flatten_cons, List.flatten_cons, hb, List.flatMap_cons, List.append_assoc]

theorem userSections_eq (opts : HintOptions) (budgets : Budgets) :
    userSections opts budgets = levelSection opts.hintLevel ++ blocksText (promptBlocks opts budgets) := by
  have hblock (label value : JsString) : buildHintBlock label value ≠ [] := by
    apply List.ne_nil_of_length_pos
    rw [length_buildHintBlock_eq, blockLength]
    omega
  have hlevel : levelSection opts.hintLevel ≠ [] := by
    apply List.ne_nil_of_length_pos
    have hlong := length_levelSection opts.hintLevel
    omega
  have hoptional {p : Prop} [Decidable p] {label value : JsString} (rest : List JsString) :
      ((if p then buildHintBlock label value else []) :: rest).filter (· ≠ []) =
        (if p then [(label, value)] else []).map (fun block => buildHintBlock block.1 block.2) ++ rest.filter (· ≠ []) := by
    split_ifs
    · rw [filter_cons_ne_nil (hblock _ _)]
      rfl
    · rfl
  have hsections : userSections opts budgets = joinTexts (js "\n\n") (levelSection opts.hintLevel ::
      (promptBlocks opts budgets).map fun block => buildHintBlock block.1 block.2) := by
    unfold userSections promptBlocks
    rw [filter_cons_ne_nil hlevel, filter_cons_ne_nil (hblock _ _), hoptional, hoptional, hoptional, hoptional]
    simp only [List.filter_nil, List.append_nil, List.map_append, List.map_cons, List.cons_append,
      List.nil_append, List.append_assoc]
  have hseparator : js "\n\n" = [10, 10] := by decide
  rw [hsections, joinTexts_cons, List.flatMap_map, hseparator, blocksText]
  rfl

/-- The room that the last truncation leaves the user's part. -/
def promptRoom (maxPromptChars : ℕ) : ℕ := max 120 (maxPromptChars - systemMessage.length)

theorem buildLLMMessages_eq (opts : HintOptions) (maxPromptChars : ℕ) :
    buildLLMMessages opts maxPromptChars = [⟨.system, systemMessage⟩,
      ⟨.user, truncate (userSections opts (allocateBudgets maxPromptChars)) (promptRoom maxPromptChars)⟩] := by
  have hpos : promptRoom maxPromptChars ≠ 0 := by
    unfold promptRoom
    omega
  unfold buildLLMMessages
  dsimp only
  split_ifs with hover
  · rfl
  · have hfits : (userSections opts (allocateBudgets maxPromptChars)).length ≤ promptRoom maxPromptChars := by
      simp only [totalChars, List.map_cons, List.map_nil, List.sum_cons, List.sum_nil] at hover
      unfold promptRoom
      omega
    rw [truncate, if_neg hpos, if_pos hfits]

theorem levelSection_not_mem (hintLevel : JsNumber) : 93 ∉ levelSection hintLevel := by
  have htexts : 93 ∉ js "Hint level: " ∧ 93 ∉ js " (1=concept, 2=approach, 3=pseudocode-level guidance without code)." := by
    decide +kernel
  rw [levelSection, List.mem_append, List.mem_append]
  rintro ((hm | hm) | hm)
  · exact htexts.1 hm
  · have hrange := JsNumber.toUnits_range hm
    unfold IsNumberUnit at hrange
    omega
  · exact htexts.2 hm

/-- The characters that the blocks take. -/
def blocksLength (blocks : List (JsString × JsString)) : ℕ :=
  (blocks.map fun block => blockLength block.1 block.2 + 2).sum

theorem length_blocksText (blocks : List (JsString × JsString)) :
    (blocksText blocks).length = blocksLength blocks := by
  rw [blocksText, List.length_flatMap, blocksLength]
  congr 1
  refine List.map_congr_left fun block _ => ?_
  rw [List.length_cons, List.length_cons, length_buildHintBlock_eq]

/-- A prompt that is cut behind its first section. -/
theorem blocksClosed_cut (hintLevel : JsNumber) {blocks : List (JsString × JsString)}
    (hlabels : ∀ block ∈ blocks, block.1 ∈ hintTags) (q : ℕ) :
    BlocksClosed ((levelSection hintLevel ++ blocksText blocks).take q ++ [ellipsis]) ↔
      ¬ CutInside (q - (levelSection hintLevel).length) blocks := by
  have hellipsis : Separates ellipsis := by decide +kernel
  have hlevel : delimitersIn hintTags ((levelSection hintLevel).take q) = [] :=
    delimitersIn_of_not_mem fun hm => levelSection_not_mem hintLevel ((List.take_sublist _ _).subset hm)
  rw [blocksClosed_iff, delimitersIn_separated hellipsis, List.take_append, delimitersIn_append (blocksText_take blocks _),
    hlevel, List.nil_append]
  have hnil : delimitersIn hintTags [] = [] := rfl
  rw [hnil, List.append_nil]
  exact paired_blocksText hlabels _

theorem not_cutInside {blocks : List (JsString × JsString)} {q : ℕ} (hq : blocksLength blocks ≤ q) :
    ¬ CutInside q blocks := by
  induction blocks generalizing q with
  | nil => exact id
  | cons block blocks ih =>
    obtain ⟨label, value⟩ := block
    have hsum : blocksLength ((label, value) :: blocks) = blockLength label value + 2 + blocksLength blocks := by
      rw [blocksLength, List.map_cons, List.sum_cons]
      rfl
    rw [hsum] at hq
    rintro (hin | ⟨-, hlater⟩)
    · omega
    · exact ih (by omega) hlater

theorem blocksClosed_whole (hintLevel : JsNumber) {blocks : List (JsString × JsString)}
    (hlabels : ∀ block ∈ blocks, block.1 ∈ hintTags) : BlocksClosed (levelSection hintLevel ++ blocksText blocks) := by
  have hpaired := paired_blocksText hlabels (blocksText blocks).length
  have hstart := blocksText_take blocks (blocksText blocks).length
  rw [List.take_length] at hpaired hstart
  rw [blocksClosed_iff, delimitersIn_append hstart, delimitersIn_of_not_mem (levelSection_not_mem hintLevel),
    List.nil_append]
  exact hpaired.mpr (not_cutInside (length_blocksText blocks).ge)

/-- **The blocks of a prompt are closed** exactly when the prompt is not cut, or the cut is in none of them. -/
theorem prompt_blocks_closed_iff (opts : HintOptions) (maxPromptChars : ℕ) :
    ∃ content, buildLLMMessages opts maxPromptChars = [⟨.system, systemMessage⟩, ⟨.user, content⟩] ∧
      (BlocksClosed content ↔
        (levelSection opts.hintLevel).length + blocksLength (promptBlocks opts (allocateBudgets maxPromptChars)) ≤
            promptRoom maxPromptChars ∨
          ¬ CutInside (promptRoom maxPromptChars - 1 - (levelSection opts.hintLevel).length)
            (promptBlocks opts (allocateBudgets maxPromptChars))) := by
  refine ⟨_, buildLLMMessages_eq opts maxPromptChars, ?_⟩
  have hlabels := promptBlocks_labels opts (allocateBudgets maxPromptChars)
  have hpos : promptRoom maxPromptChars ≠ 0 := by
    unfold promptRoom
    omega
  rw [userSections_eq, truncate, if_neg hpos, List.length_append, length_blocksText]
  split_ifs with hfits
  · exact ⟨fun _ => Or.inl hfits, fun _ => blocksClosed_whole _ hlabels⟩
  · rw [blocksClosed_cut _ hlabels, or_iff_right hfits]

/-- A long description. -/
def longDescription : HintOptions where
  description := List.replicate 300 97
  constraints := []
  currentCode := []
  hintLevel := .ofDecimal false 1
  previousHints := []
  lastFailure := none

/-- The closing line of the description is cut off. -/
theorem description_left_open : ¬ ∀ (opts : HintOptions) (maxPromptChars : ℕ), 0 < maxPromptChars →
    ∀ content, buildLLMMessages opts maxPromptChars = [⟨.system, systemMessage⟩, ⟨.user, content⟩] →
      BlocksClosed content := by
  intro h
  have hclosed := h longDescription 500 (by decide) _ (buildLLMMessages_eq longDescription 500)
  have hroom : promptRoom 500 = 226 := by
    rw [promptRoom, length_systemMessage]
    decide
  have hbudget : (allocateBudgets 500).description = 120 := by decide +kernel
  have hblocks : promptBlocks longDescription (allocateBudgets 500) =
      [(js "PROBLEM_DESCRIPTION", truncate (List.replicate 300 97) 120)] := by
    rw [promptBlocks, hbudget]
    rfl
  have hlevel : (levelSection longDescription.hintLevel).length = 80 := by decide +kernel
  have hlength : blockLength (js "PROBLEM_DESCRIPTION") (truncate (List.replicate 300 97) 120) = 165 := by
    rw [blockLength, length_truncate _ (by decide), List.length_replicate]
    decide
  have hlabels := promptBlocks_labels longDescription (allocateBudgets 500)
  rw [userSections_eq, hroom, hblocks, truncate, if_neg (by decide), if_neg, blocksClosed_cut _ (hblocks ▸ hlabels),
    hlevel] at hclosed
  · refine hclosed (Or.inl ⟨?_, ?_⟩)
    · decide
    · rw [hlength]
      decide
  · rw [List.length_append, length_blocksText, hlevel, blocksLength, List.map_singleton, List.sum_singleton, hlength]
    decide

end CodeShare.HintService
