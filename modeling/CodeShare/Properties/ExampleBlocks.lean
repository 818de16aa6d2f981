import CodeShare.Services.EntityDecoding

/-! # Example blocks

The examples of a problem are read back out of their HTML: the labels are found where they were written, and the
texts are trimmed and decoded. Decoding goes one step too far for a text that contains `&quot;` or `&#39;`.
-/

namespace CodeShare
open Rewriting Substitution
set_option autoImplicit false

/-! ## Examples in HTML -/

/-- The label does not occur, in any letter case. -/
def LacksLabel (label text : JsString) : Prop := ¬ label.map asciiLower <:+: text.map asciiLower

/-- A text that can be taken for an input or an output. -/
structure IsExampleText (text : JsString) : Prop where
  nonempty : text ≠ []
  trimmed : jsTrim text = text
  noReturn : 13 ∉ text
  noInput : LacksLabel (js "Input:") text
  noOutput : LacksLabel (js "Output:") text
  noExplanation : LacksLabel (js "Explanation:") text

structure ExampleSource where
  input : JsString
  output : JsString
  explanation : Option JsString

namespace ExampleSource

/-- The example without tags. -/
def plain (x : ExampleSource) : JsString :=
  js "Input:" ++ 32 :: (x.input ++ 10 :: (js "Output:" ++ 32 :: (x.output ++
    x.explanation.elim [] fun text => 10 :: (js "Explanation:" ++ 32 :: text))))

def body (x : ExampleSource) : JsString :=
  js "<strong>Input:</strong> " ++ escapeHtml x.input ++ 10 :: (js "<strong>Output:</strong> " ++ escapeHtml x.output ++
    x.explanation.elim [] fun text => 10 :: (js "<strong>Explanation:</strong> " ++ escapeHtml text))

def html (x : ExampleSource) : JsString := js "<pre>" ++ x.body ++ js "</pre>"

end ExampleSource

/-- The blocks of several examples. -/
def examplesHtml (examples : List ExampleSource) : JsString := examples.flatMap ExampleSource.html

variable {text a b : JsString} {c : ℕ}

/-! ## Labels -/

theorem removeTags_labelled {label : JsString} (hlabel : 60 ∉ label) (text rest : JsString) :
    removeTags (js "<strong>" ++ (label ++ (js "</strong>" ++ 32 :: (escapeHtml text ++ rest)))) =
      label ++ 32 :: (escapeHtml text ++ removeTags rest) := by
  have htext : 60 ∉ 32 :: escapeHtml text := by
    rw [List.mem_cons, not_or]
    exact ⟨by decide, escapeHtml_not_mem (Or.inl rfl) text⟩
  have hopening : js "<strong>" = 60 :: (js "strong" ++ [62]) := by decide
  have hclosing : js "</strong>" = 60 :: (js "/strong" ++ [62]) := by decide
  rw [removeTags_tag hopening (by decide) (by decide), removeTags_append hlabel,
    removeTags_tag hclosing (by decide) (by decide), ← List.cons_append, removeTags_append htext, List.cons_append]

theorem escapeHtml_labelled {label : JsString} (hlabel : escapeHtml label = label) (text rest : JsString) :
    escapeHtml (label ++ 32 :: (text ++ rest)) = label ++ 32 :: (escapeHtml text ++ escapeHtml rest) := by
  rw [escapeHtml_append, hlabel, escapeHtml_cons_of_plain rfl, escapeHtml_append]

/-- The body with its labels taken apart. -/
theorem ExampleSource.body_eq (x : ExampleSource) : x.body =
    js "<strong>" ++ (js "Input:" ++ (js "</strong>" ++ 32 :: (escapeHtml x.input ++ 10 ::
      (js "<strong>" ++ (js "Output:" ++ (js "</strong>" ++ 32 :: (escapeHtml x.output ++
        x.explanation.elim [] fun text => 10 ::
          (js "<strong>" ++ (js "Explanation:" ++ (js "</strong>" ++ 32 :: (escapeHtml text ++ []))))))))))) := by
  have hinput : js "<strong>Input:</strong> " = js "<strong>" ++ (js "Input:" ++ (js "</strong>" ++ [32])) := by decide
  have houtput : js "<strong>Output:</strong> " = js "<strong>" ++ (js "Output:" ++ (js "</strong>" ++ [32])) := by
    decide
  have hexplanation : js "<strong>Explanation:</strong> " =
      js "<strong>" ++ (js "Explanation:" ++ (js "</strong>" ++ [32])) := by decide
  unfold body
  rw [hinput, houtput, hexplanation]
  cases x.explanation <;> simp

theorem removeTags_body (x : ExampleSource) : removeTags x.body = escapeHtml x.plain := by
  have hnewline : ∀ rest, removeTags (10 :: rest) = 10 :: removeTags rest := removeTags_append (a := [10]) (by decide)
  rw [x.body_eq, removeTags_labelled (by decide), hnewline, removeTags_labelled (by decide), ExampleSource.plain,
    escapeHtml_labelled (by decide), escapeHtml_cons_of_plain rfl, escapeHtml_labelled (by decide)]
  cases x.explanation with
  | none => rfl
  | some text =>
    simp only [Option.elim_some]
    rw [hnewline, removeTags_labelled (by decide), escapeHtml_cons_of_plain rfl]
    have hlabel : escapeHtml (js "Explanation:") = js "Explanation:" := by decide
    have hlast := escapeHtml_labelled hlabel text []
    rw [List.append_nil] at hlast
    rw [hlast]
    rfl

/-! ## Finding the blocks -/

/-- The tags of a body are no closing tags of a block. -/
theorem passedBy_labelled {label : JsString} (hlabel : 60 ∉ label.map asciiLower) (text : JsString) {rest word : JsString}
    (hrest : PassedBy (js "</pre>") (rest.map asciiLower) word) :
    PassedBy (js "</pre>")
      ((js "<strong>" ++ (label ++ (js "</strong>" ++ 32 :: (escapeHtml text ++ rest)))).map asciiLower) word := by
  have hlower : ∀ {t : JsString}, 60 ∉ t → 60 ∉ t.map asciiLower := by
    intro t ht hm
    obtain ⟨c, hc, heq⟩ := List.mem_map.mp hm
    unfold asciiLower at heq
    split_ifs at heq
    · omega
    · exact ht (heq ▸ hc)
  have htext : 60 ∉ (32 :: escapeHtml text).map asciiLower := by
    refine hlower ?_
    rw [List.mem_cons, not_or]
    exact ⟨by decide, escapeHtml_not_mem (Or.inl rfl) text⟩
  have hclosing : js "</pre>" = 60 :: js "/pre>" := rfl
  rw [hclosing] at hrest ⊢
  rw [List.map_append, List.map_append, List.map_append, ← List.cons_append, List.map_append]
  refine .append (.of_clash (q := js "strong>") (by decide) (by decide) (by decide)) ?_
  refine .append (.of_not_mem hlabel) ?_
  refine .append (.of_clash (q := js "/strong>") (by decide) (by decide) (by decide)) ?_
  exact .append (.of_not_mem htext) hrest

theorem passedBy_body (x : ExampleSource) (word : JsString) :
    PassedBy (js "</pre>") (x.body.map asciiLower) word := by
  have hnewline : ∀ {rest : JsString}, PassedBy (js "</pre>") (rest.map asciiLower) word →
      PassedBy (js "</pre>") ((10 :: rest).map asciiLower) word := by
    intro rest hrest
    have hone : PassedBy (60 :: js "/pre>") [10] (rest.map asciiLower ++ word) := .of_not_mem (by decide)
    exact hone.append hrest
  rw [x.body_eq]
  refine passedBy_labelled (by decide) x.input (hnewline (passedBy_labelled (by decide) x.output ?_))
  cases x.explanation with
  | none => exact .nil
  | some text => exact hnewline (passedBy_labelled (by decide) text .nil)

/-- The blocks that are found are those that were written. -/
theorem allMatches_examplesHtml (examples : List ExampleSource) :
    (allMatches (matchBetween (js "<pre>") (js "</pre>")) (examplesHtml examples)).map
        (fun element => jsTrim (stripTags (innerText (js "<pre>") (js "</pre>") element))) =
      examples.map fun x => jsTrim (decodeQuotes x.plain) := by
  induction examples with
  | nil => rfl
  | cons x examples ih =>
    have hmatch : matchBetween (js "<pre>") (js "</pre>") (x.html ++ examplesHtml examples) = some x.html.length :=
      matchBetween_append (passedBy_body x _)
    have hne : x.html ≠ [] := List.append_ne_nil_of_right_ne_nil _ (by decide)
    have hinner : innerText (js "<pre>") (js "</pre>") x.html = x.body := innerText_append _ _ _
    have hcons : examplesHtml (x :: examples) = x.html ++ examplesHtml examples := List.flatMap_cons
    rw [hcons, allMatches_match hne hmatch, List.map_cons, List.map_cons, ih, hinner, stripTags, removeTags_body,
      decodeHtmlEntities_escapeHtml]

/-! ## Reading a block -/

theorem decodeQuotes_append_cons (hc : c = 32 ∨ c = 10) (a b : JsString) :
    decodeQuotes (a ++ c :: b) = decodeQuotes a ++ c :: decodeQuotes b := by
  unfold decodeQuotes
  rw [replaceAll_append_cons (by decide), replaceAll_append_cons (by decide)]
  all_goals rcases hc with rfl | rfl <;> decide

theorem IsExampleText.framed (h : IsExampleText text) : Framed text := framed_iff.mpr ⟨h.nonempty, h.trimmed⟩

/-- What decoding makes of a text that can be taken for an input or an output. -/
structure IsReadable (text : JsString) : Prop where
  framed : Framed text
  noReturn : 13 ∉ text
  noOutput : LacksLabel (js "Output:") text
  noExplanation : LacksLabel (js "Explanation:") text

theorem IsExampleText.readable (h : IsExampleText text) : IsReadable (decodeQuotes text) := by
  have hlacks : ∀ label : JsString, LacksLabel label text → label ≠ [] → 34 ∉ label.map asciiLower →
      39 ∉ label.map asciiLower → LacksLabel label (decodeQuotes text) := by
    intro label hlabel hne hquot hsharp hcontained
    have hne' : label.map asciiLower ≠ [] := by simpa using hne
    exact hlabel (lacks_of_replaceAll (c := 34) (by decide) hquot hne'
      (lacks_of_replaceAll (c := 39) (by decide) hsharp hne' hcontained))
  refine ⟨?_, fun hm => ?_, ?_, ?_⟩
  · exact (h.framed.replaceAll (by decide) (by decide)).replaceAll (by decide) (by decide)
  · rcases mem_of_replaceAll (by decide) hm with hm | hm
    · exact absurd hm (by decide)
    · rcases mem_of_replaceAll (by decide) hm with hm | hm
      · exact absurd hm (by decide)
      · exact h.noReturn hm
  · exact hlacks _ h.noOutput (by decide) (by decide) (by decide)
  · exact hlacks _ h.noExplanation (by decide) (by decide) (by decide)

/-- The labelled texts of a block. -/
def labelled (input output : JsString) : JsString :=
  js "Input:" ++ 32 :: (input ++ 10 :: (js "Output:" ++ 32 :: output))

/-- What may follow the output. -/
def IsExplanation (tail : JsString) : Prop := tail = [] ∨ ∃ rest, tail = 10 :: (js "Explanation:" ++ rest)

section
variable {input output tail : JsString}

theorem labelled_framed (input : JsString) (h : Framed output) : Framed (labelled input output) := by
  obtain ⟨c, hlast, hc⟩ := h.last
  obtain ⟨init, rfl⟩ := List.getLast?_eq_some_iff.mp hlast
  refine ⟨⟨73, rfl, by decide⟩, c, ?_, hc⟩
  rw [List.getLast?_eq_some_iff]
  exact ⟨labelled input init, by simp [labelled]⟩

theorem IsExplanation.trimEnd (h : IsExplanation tail) : IsExplanation (tail.rdropWhile isRegexSpace) := by
  rcases h with rfl | ⟨rest, rfl⟩
  · exact .inl rfl
  · right
    have hlabel : ∃ c, (10 :: js "Explanation:").getLast? = some c ∧ isRegexSpace c = false := ⟨58, rfl, by decide⟩
    rw [← List.cons_append, rdropWhile_append hlabel]
    exact ⟨_, rfl⟩

theorem IsExplanation.filter (h : IsExplanation tail) : IsExplanation (tail.filter (· ≠ 13)) := by
  rcases h with rfl | ⟨rest, rfl⟩
  · exact .inl rfl
  · right
    rw [← List.cons_append, List.filter_append]
    exact ⟨_, rfl⟩

theorem labelled_filter (hinput : 13 ∉ input) (houtput : 13 ∉ output) :
    (labelled input output).filter (· ≠ 13) = labelled input output := by
  rw [List.filter_eq_self]
  intro c hc
  rw [decide_eq_true_eq]
  rintro rfl
  unfold labelled at hc
  simp only [List.mem_append, List.mem_cons] at hc
  rcases hc with h | h | h | h | h | h | h
  · exact absurd h (by decide)
  · exact absurd h (by decide)
  · exact hinput h
  · exact absurd h (by decide)
  · exact absurd h (by decide)
  · exact absurd h (by decide)
  · exact houtput h

theorem LacksLabel.space {label text : JsString} (h : LacksLabel label text) (hne : label ≠ [])
    (h32 : (label.map asciiLower).head? ≠ some 32) : LacksLabel label (32 :: text) := by
  intro hcontained
  rw [List.map_cons] at hcontained
  rcases List.infix_cons_iff.mp hcontained with hp | hi
  · cases hlower : label.map asciiLower with
    | nil => exact hne (List.map_eq_nil_iff.mp hlower)
    | cons c l =>
      rw [hlower, List.cons_prefix_cons] at hp
      rw [hlower] at h32
      exact h32 (congrArg some hp.1)
  · exact h hi

theorem LacksLabel.caselessIndex {label text : JsString} (h : LacksLabel label text) :
    caselessIndex label text = none := by
  unfold CodeShare.caselessIndex
  cases hfound : firstIndex (label.map asciiLower) (text.map asciiLower) with
  | none => rfl
  | some p => exact absurd ((firstIndex_eq_some hfound).1.isInfix.trans (List.drop_suffix p _).isInfix) h

/-- A label behind a text without it is found there. -/
theorem caselessIndex_behind {label text : JsString} (h : LacksLabel label (32 :: text)) (hne : label ≠ [])
    (h10 : 10 ∉ label.map asciiLower) (rest : JsString) :
    caselessIndex label ((32 :: text ++ [10]) ++ (label ++ rest)) = some (32 :: text ++ [10]).length := by
  refine caselessIndex_append ?_
  have hfirst : PassedBy (label.map asciiLower) ((32 :: text).map asciiLower)
      (10 :: (label ++ rest).map asciiLower) := PassedBy.of_not_infix h10 h
  rw [List.map_append]
  refine PassedBy.append hfirst ?_
  cases hlower : label.map asciiLower with
  | nil => exact absurd (List.map_eq_nil_iff.mp hlower) hne
  | cons c l =>
    refine .of_not_mem fun hm => h10 ?_
    rw [hlower, show c = 10 from List.mem_singleton.mp hm]
    exact List.mem_cons_self

theorem matchExample_labelled (hinput : IsReadable input) (houtput : IsReadable output) (htail : IsExplanation tail) :
    ∃ second, matchExample (labelled input output ++ tail) = some (input, second) ∧ jsTrim second = output := by
  have hspaces : ∀ c ∈ [32], isRegexSpace c = true := by decide
  have hnewline : ∀ c ∈ [10], isRegexSpace c = true := by decide
  have hsplit : labelled input output ++ tail =
      js "Input:" ++ ((32 :: input ++ [10]) ++ (js "Output:" ++ (32 :: output ++ tail))) := by
    simp [labelled]
  have hfirst : caselessIndex (js "Input:") (labelled input output ++ tail) = some 0 := by
    rw [hsplit]
    exact @caselessIndex_append (js "Input:") [] _ .nil
  have hdropInput : (labelled input output ++ tail).drop (0 + 6) =
      (32 :: input ++ [10]) ++ (js "Output:" ++ (32 :: output ++ tail)) := by
    rw [hsplit]
    exact List.drop_left' rfl
  have houtputAt := caselessIndex_behind (hinput.noOutput.space (by decide) (by decide)) (by decide) (by decide)
    (32 :: output ++ tail)
  have hdropOutput : ((32 :: input ++ [10]) ++ (js "Output:" ++ (32 :: output ++ tail))).drop
      ((32 :: input ++ [10]).length + 7) = 32 :: output ++ tail := by
    rw [← List.append_assoc]
    exact List.drop_left' (by rw [List.length_append]; rfl)
  have hinputGroup : jsTrim (32 :: input ++ [10]) = input := hinput.framed.jsTrim_around hspaces hnewline
  unfold matchExample
  rw [hfirst]
  dsimp only
  rw [hdropInput, houtputAt]
  dsimp only
  rw [hdropOutput, List.take_left, hinputGroup]
  have hlacks : LacksLabel (js "Explanation:") (32 :: output) := houtput.noExplanation.space (by decide) (by decide)
  rcases htail with rfl | ⟨rest, rfl⟩
  · rw [List.append_nil, hlacks.caselessIndex]
    refine ⟨_, rfl, ?_⟩
    obtain ⟨c, hhead, hc⟩ := houtput.framed.first
    obtain ⟨rest, rfl⟩ := List.head?_eq_some_iff.mp hhead
    rw [List.dropWhile_cons_of_pos (hspaces 32 List.mem_cons_self),
      List.dropWhile_cons_of_neg (by rw [hc]; exact Bool.false_ne_true), houtput.framed.jsTrim]
  · have hexplanation := caselessIndex_behind hlacks (by decide) (by decide) rest
    have hregroup : 32 :: output ++ 10 :: (js "Explanation:" ++ rest) =
        (32 :: output ++ [10]) ++ (js "Explanation:" ++ rest) := by simp
    have houtputGroup : jsTrim (32 :: output ++ [10]) = output := houtput.framed.jsTrim_around hspaces hnewline
    rw [hregroup, hexplanation]
    dsimp only
    rw [List.take_left, houtputGroup]
    exact ⟨_, rfl, houtput.framed.jsTrim⟩

theorem parseExampleBlock_labelled (hinput : IsReadable input) (houtput : IsReadable output)
    (htail : IsExplanation tail) :
    parseExampleBlock (jsTrim (labelled input output ++ tail)) = .ok ⟨input, output⟩ := by
  have hframed := labelled_framed input houtput.framed
  have hcleaned : jsTrim ((jsTrim (labelled input output ++ tail)).filter (· ≠ 13)) =
      labelled input output ++ ((tail.rdropWhile isRegexSpace).filter (· ≠ 13)).rdropWhile isRegexSpace := by
    rw [jsTrim_append_framed hframed, List.filter_append, labelled_filter hinput.noReturn houtput.noReturn,
      jsTrim_append_framed hframed]
  obtain ⟨second, hmatch, hsecond⟩ := matchExample_labelled hinput houtput htail.trimEnd.filter.trimEnd
  rw [parseExampleBlock, hcleaned, hmatch]
  dsimp only
  rw [hsecond, hinput.framed.jsTrim]

end

/-! ## Reading all blocks -/

theorem decodeQuotes_plain (x : ExampleSource) : ∃ tail, IsExplanation tail ∧
    decodeQuotes x.plain = labelled (decodeQuotes x.input) (decodeQuotes x.output) ++ tail := by
  have hlabel : ∀ label : JsString, (¬ js "&quot;" <:+: label ∧ ¬ js "&#39;" <:+: label) → ∀ rest,
      decodeQuotes (label ++ 32 :: rest) = label ++ 32 :: decodeQuotes rest := by
    intro label h rest
    rw [decodeQuotes_append_cons (Or.inl rfl), (decodeQuotes_eq_self_iff label).mpr h]
  unfold ExampleSource.plain
  rw [hlabel _ (by decide), decodeQuotes_append_cons (Or.inr rfl), hlabel _ (by decide)]
  cases x.explanation with
  | none => exact ⟨[], .inl rfl, by simp [labelled]⟩
  | some text =>
    refine ⟨10 :: (js "Explanation:" ++ 32 :: decodeQuotes text), .inr ⟨_, rfl⟩, ?_⟩
    dsimp only [Option.elim_some]
    rw [decodeQuotes_append_cons (Or.inr rfl), hlabel _ (by decide)]
    simp [labelled]

/-- What is read, whatever the texts are. -/
theorem extractExampleBlocks_examplesHtml {examples : List ExampleSource}
    (h : ∀ x ∈ examples, IsExampleText x.input ∧ IsExampleText x.output) :
    extractExampleBlocks (examplesHtml examples) =
      .ok (examples.map fun x => ⟨decodeQuotes x.input, decodeQuotes x.output⟩) := by
  rw [extractExampleBlocks, allMatches_examplesHtml]
  induction examples with
  | nil => rfl
  | cons x examples ih =>
    rw [List.forall_mem_cons] at h
    obtain ⟨tail, htail, hplain⟩ := decodeQuotes_plain x
    rw [List.map_cons, List.mapM_cons, hplain, parseExampleBlock_labelled h.1.1.readable h.1.2.readable htail, ih h.2]
    rfl

/-- None of the text's own words is the entity of a quote. -/
def LacksQuoteEntity (text : JsString) : Prop := ¬ js "&quot;" <:+: text ∧ ¬ js "&#39;" <:+: text

/-- **The examples of a problem** are read back exactly when no text contains `&quot;` or `&#39;`. -/
theorem example_blocks_iff {examples : List ExampleSource}
    (h : ∀ x ∈ examples, IsExampleText x.input ∧ IsExampleText x.output) :
    extractExampleBlocks (examplesHtml examples) = .ok (examples.map fun x => ⟨x.input, x.output⟩) ↔
      ∀ x ∈ examples, LacksQuoteEntity x.input ∧ LacksQuoteEntity x.output := by
  rw [extractExampleBlocks_examplesHtml h, Except.ok.injEq, List.map_inj_left]
  refine forall₂_congr fun x _ => ?_
  rw [ExampleBlock.mk.injEq, decodeQuotes_eq_self_iff, decodeQuotes_eq_self_iff]
  rfl

def exampleSources : List ExampleSource :=
  [⟨js "s = \"<a>\"", js "[1, 2]", some (js "a & b")⟩, ⟨js "n = 3", js "&lt;", none⟩]

theorem example_blocks_iff_example :
    extractExampleBlocks (examplesHtml exampleSources) = .ok (exampleSources.map fun x => ⟨x.input, x.output⟩) ↔
      ∀ x ∈ exampleSources, LacksQuoteEntity x.input ∧ LacksQuoteEntity x.output := by
  refine example_blocks_iff fun x hx => ?_
  unfold exampleSources at hx
  rcases List.mem_pair.mp hx with rfl | rfl
  · exact ⟨⟨by decide, by decide, by decide, by unfold LacksLabel; decide, by unfold LacksLabel; decide,
      by unfold LacksLabel; decide⟩, ⟨by decide, by decide, by decide, by unfold LacksLabel; decide,
      by unfold LacksLabel; decide, by unfold LacksLabel; decide⟩⟩
  · exact ⟨⟨by decide, by decide, by decide, by unfold LacksLabel; decide, by unfold LacksLabel; decide,
      by unfold LacksLabel; decide⟩, ⟨by decide, by decide, by decide, by unfold LacksLabel; decide,
      by unfold LacksLabel; decide, by unfold LacksLabel; decide⟩⟩

/-- The entity of a quote as a text: `&amp;quot;` comes back as a quote. -/
theorem quote_entity_decoded_twice : ¬ ∀ examples : List ExampleSource,
    (∀ x ∈ examples, IsExampleText x.input ∧ IsExampleText x.output) →
      extractExampleBlocks (examplesHtml examples) = .ok (examples.map fun x => ⟨x.input, x.output⟩) := by
  intro h
  have hreadable : ∀ x ∈ [ExampleSource.mk (js "c = 1") (js "&quot;") none],
      IsExampleText x.input ∧ IsExampleText x.output := by
    intro x hx
    obtain rfl := List.mem_singleton.mp hx
    exact ⟨⟨by decide, by decide, by decide, by unfold LacksLabel; decide, by unfold LacksLabel; decide,
      by unfold LacksLabel; decide⟩, ⟨by decide, by decide, by decide, by unfold LacksLabel; decide,
      by unfold LacksLabel; decide, by unfold LacksLabel; decide⟩⟩
  have hread := h _ hreadable
  rw [extractExampleBlocks_examplesHtml hreadable] at hread
  have hdecoded : decodeQuotes (js "&quot;") = js "\"" := by decide
  simp only [List.map_cons, List.map_nil, hdecoded, Except.ok.injEq, List.cons.injEq, ExampleBlock.mk.injEq] at hread
  exact absurd hread.1.2 (by decide)

end CodeShare
