import CodeShare.Services.HtmlPasses

/-! # What is read in the end

Entities do not reach over white space or over the signs that the conversion writes, so a text may be decoded
piece by piece, and the steps that tidy up its white space do not change what else is read.
-/

namespace CodeShare
open Rewriting Substitution
set_option autoImplicit false

variable {s text a b w : JsString} {pieces inner : List Piece} {c : ℕ}

/-! ## Decoding in pieces -/

theorem decode_append_cons (hc : ∀ entity ∈ entities, c ∉ entity) (a b : JsString) :
    decodeHtmlEntities (a ++ c :: b) = decodeHtmlEntities a ++ c :: decodeHtmlEntities b := by
  have hc' (entity : JsString) (h : entity ∈ entities) : entity ≠ [] ∧ c ∉ entity := by
    refine ⟨?_, hc entity h⟩
    revert entity
    decide
  have hstep {entity replacement : JsString} (h : entity ∈ entities) (a b : JsString) :
      replaceAll entity replacement (a ++ c :: b) =
        replaceAll entity replacement a ++ c :: replaceAll entity replacement b :=
    replaceAll_append_cons (hc' entity h).1 (hc' entity h).2 a b
  unfold decodeHtmlEntities
  rw [hstep (by decide), hstep (by decide), hstep (by decide), hstep (by decide), hstep (by decide), hstep (by decide)]

theorem decode_of_entityFree (h : EntityFree s) : decodeHtmlEntities s = s := by
  have hstep {entity replacement : JsString} (hmem : entity ∈ entities) : replaceAll entity replacement s = s :=
    replaceAll_of_lacks (h entity hmem)
  unfold decodeHtmlEntities
  rw [hstep (by decide), hstep (by decide), hstep (by decide), hstep (by decide), hstep (by decide), hstep (by decide)]

theorem EntityFree.of_infix (h : EntityFree s) (ha : a <:+: s) : EntityFree a :=
  fun entity hmem hcontained => h entity hmem (hcontained.trans ha)

/-- The signs that a text of a step begins and ends with. -/
theorem not_mem_entity (hc : c ∈ [10, 45, 94, 96]) : ∀ entity ∈ entities, c ∉ entity := by
  revert c
  decide

theorem Leaf.decode_append (h : Leaf s) (a b : JsString) :
    decodeHtmlEntities (a ++ (s ++ b)) = decodeHtmlEntities a ++ (s ++ decodeHtmlEntities b) := by
  obtain ⟨c, hfirst, hc⟩ := h.first
  obtain ⟨d, hlast, hd⟩ := h.last
  have hd' : d ∈ [10, 45, 94, 96] := by
    simp only [List.mem_cons, List.not_mem_nil, or_false] at hd ⊢
    omega
  obtain ⟨rest, rfl⟩ := List.head?_eq_some_iff.mp hfirst
  rcases List.eq_nil_or_concat rest with rfl | ⟨mid, x, rfl⟩
  · exact decode_append_cons (not_mem_entity hc) a b
  · rw [List.concat_eq_append, ← List.cons_append, List.getLast?_concat, Option.some.injEq] at hlast
    subst hlast
    have hmid : decodeHtmlEntities mid = mid := by
      apply decode_of_entityFree
      apply h.entityFree.of_infix
      exact ⟨[c], [x], by simp⟩
    have hsplit : c :: mid.concat x ++ b = c :: (mid ++ x :: b) := by simp
    rw [hsplit, decode_append_cons (not_mem_entity hc), decode_append_cons (not_mem_entity hd'), hmid]
    simp

/-- A text that spells the entity of no quote is read as it is. -/
theorem decode_pieces (front : JsString) (hplain : ∀ piece ∈ pieces, piece.isTag = false) (hleaves : Leaves pieces)
    (hquot : ¬ js "&quot;" <:+: front ++ contentOf pieces) (hsharp : ¬ js "&#39;" <:+: front ++ contentOf pieces) :
    decodeHtmlEntities (escapeHtml front ++ pieces.flatMap Piece.write) = front ++ contentOf pieces := by
  induction pieces generalizing front with
  | nil =>
    rw [contentOf, List.flatMap_nil, List.append_nil] at hquot hsharp
    rw [contentOf, List.flatMap_nil, List.flatMap_nil, List.append_nil, List.append_nil,
      decodeHtmlEntities_escapeHtml]
    exact (decodeQuotes_eq_self_iff front).mpr ⟨hquot, hsharp⟩
  | cons piece pieces ih =>
    rw [List.forall_mem_cons] at hplain
    have hrest : Leaves pieces := hleaves.of_suffix (List.suffix_cons piece pieces)
    have hcontent : contentOf (piece :: pieces) = piece.content ++ contentOf pieces := List.flatMap_cons
    rw [hcontent] at hquot hsharp ⊢
    rw [List.flatMap_cons]
    cases piece with
    | text s =>
      have hwritten : escapeHtml front ++ ((Piece.text s).write ++ pieces.flatMap Piece.write) =
          escapeHtml (front ++ s) ++ pieces.flatMap Piece.write := by
        rw [escapeHtml_append, List.append_assoc]
        rfl
      rw [← List.append_assoc] at hquot hsharp
      rw [hwritten, ← List.append_assoc]
      exact ih (front ++ s) hplain.2 hrest hquot hsharp
    | shown s =>
      have hleaf : Leaf s := hleaves s List.mem_cons_self
      have hbehind : ∀ {entity : JsString}, ¬ entity <:+: front ++ (s ++ contentOf pieces) →
          ¬ entity <:+: [] ++ contentOf pieces := by
        intro entity hnot hcontained
        apply hnot
        refine hcontained.trans (List.IsSuffix.isInfix ?_)
        exact (List.suffix_append s _).trans (List.suffix_append front _)
      have hfront : decodeHtmlEntities (escapeHtml front) = front := by
        rw [decodeHtmlEntities_escapeHtml, decodeQuotes_eq_self_iff]
        exact ⟨fun hm => hquot (hm.trans (List.prefix_append _ _).isInfix),
          fun hm => hsharp (hm.trans (List.prefix_append _ _).isInfix)⟩
      have hih := ih [] hplain.2 hrest (hbehind hquot) (hbehind hsharp)
      show decodeHtmlEntities (escapeHtml front ++ (s ++ pieces.flatMap Piece.write)) = _
      rw [hleaf.decode_append, hfront]
      exact congrArg (fun tail => front ++ (s ++ tail)) hih
    | opening tag => cases hplain.1
    | closing tag => cases hplain.1
    | br form => cases hplain.1

/-! ## What a step writes around a text -/

theorem matchTag_eq_none_iff : matchTag s = none ↔ ∀ rest, s = 60 :: rest → rest.head? = some 62 ∨ 62 ∉ rest := by
  have hname (rest : JsString) : rest.takeWhile (· ≠ 62) = [] ∨ 62 ∉ rest ↔ rest.head? = some 62 ∨ 62 ∉ rest := by
    cases rest with
    | nil => simp
    | cons c rest => by_cases hc : c = 62 <;> simp [hc]
  unfold matchTag
  split
  · rename_i rest
    dsimp only
    by_cases hnone : rest.takeWhile (· ≠ 62) = [] ∨ 62 ∉ rest
    · rw [if_pos hnone]
      refine ⟨fun _ other heq => ?_, fun _ => rfl⟩
      obtain rfl := (List.cons.inj heq).2
      exact (hname rest).mp hnone
    · rw [if_neg hnone]
      exact ⟨nofun, fun h => absurd ((hname rest).mpr (h rest rfl)) hnone⟩
  · rename_i hnot
    exact ⟨fun _ rest heq => absurd heq (hnot rest), fun _ => rfl⟩

theorem matchTag_of_append (h : matchTag (s ++ b) = none) : matchTag s = none := by
  rw [matchTag_eq_none_iff] at h ⊢
  rintro rest rfl
  cases rest with
  | nil => exact Or.inr List.not_mem_nil
  | cons c rest => exact (h (c :: rest ++ b) rfl).imp id fun hm hgt => hm (List.mem_append_left b hgt)

/-- Signs behind a text that are not `>` close no tag. -/
theorem matchTag_append_of_not_mem (hb : 62 ∉ b) (h : matchTag s = none) : matchTag (s ++ b) = none := by
  rw [matchTag_eq_none_iff] at h ⊢
  intro rest heq
  cases s with
  | nil =>
    rw [List.nil_append] at heq
    rw [heq, List.mem_cons, not_or] at hb
    exact Or.inr hb.2
  | cons c s =>
    rw [List.cons_append, List.cons.injEq] at heq
    obtain ⟨rfl, rfl⟩ := heq
    rcases h s rfl with hfirst | hgt
    · obtain ⟨rest, rfl⟩ := List.head?_eq_some_iff.mp hfirst
      exact Or.inl rfl
    · refine Or.inr fun hm => ?_
      rw [List.mem_append] at hm
      exact hm.elim hgt hb

/-- The part in the middle of a text. -/
theorem TagFree.of_infix (h : TagFree s []) (ha : a <:+: s) : TagFree a [] := by
  obtain ⟨front, back, rfl⟩ := ha
  intro u v hsplit hv
  have hnone := h (front ++ u) (v ++ back) (by rw [hsplit]; simp) fun hnil => hv (List.append_eq_nil_iff.mp hnil).1
  rw [List.append_nil] at hnone ⊢
  exact matchTag_of_append hnone

/-- Signs around a text. -/
theorem TagFree.around (h : TagFree s []) (ha : 60 ∉ a) (hb : 62 ∉ b) : TagFree (a ++ (s ++ b)) [] := by
  intro u v hsplit hv
  rw [List.append_nil]
  rcases List.append_eq_append_iff.mp hsplit with ⟨u', rfl, hsplit'⟩ | ⟨v', rfl, rfl⟩
  · rcases List.append_eq_append_iff.mp hsplit' with ⟨w, rfl, rfl⟩ | ⟨w, rfl, rfl⟩
    · -- the tag would have to end in the signs behind the text
      refine matchTag_append_of_not_mem (s := []) (fun hm => hb ?_) rfl
      exact List.mem_append_right _ hm
    · by_cases hw : w = []
      · rw [hw, List.nil_append]
        exact matchTag_append_of_not_mem (s := []) hb rfl
      · have hnone := h u' w rfl hw
        rw [List.append_nil] at hnone
        exact matchTag_append_of_not_mem hb hnone
  · by_cases hv' : v' = []
    · subst hv'
      rw [List.nil_append]
      by_cases hs : s = []
      · rw [hs, List.nil_append]
        exact matchTag_append_of_not_mem (s := []) hb rfl
      · have hnone := h [] s rfl hs
        rw [List.append_nil] at hnone
        exact matchTag_append_of_not_mem hb hnone
    · exact matchTag_of_not_mem (fun hm => ha (List.mem_append_right _ hm)) hv' _

theorem EntityFree.around (h : EntityFree s) (ha : ∀ c ∈ a, ∀ entity ∈ entities, c ∉ entity)
    (hb : ∀ c ∈ b, ∀ entity ∈ entities, c ∉ entity) : EntityFree (a ++ (s ++ b)) := by
  have hne : ∀ entity ∈ entities, entity ≠ [] := by decide
  intro entity hmem hcontained
  exact h entity hmem (infix_of_infix_between (hne entity hmem) (fun c hc => ha c hc entity hmem)
    (fun c hc => hb c hc entity hmem) hcontained)

/-! ## Texts without their tags -/

theorem dropTags_eq (pieces : List Piece) : dropTags pieces = pieces.filter fun piece => !piece.isTag := by
  unfold dropTags
  rw [rewrite_matchPiece]
  induction pieces with
  | nil => rfl
  | cons piece pieces ih =>
    rw [List.flatMap_cons, ih]
    cases hkind : piece.isTag <;> simp [hkind]

theorem contentOf_dropTags (pieces : List Piece) : contentOf (dropTags pieces) = contentOf pieces := by
  refine flatMap_rewrite sized_matchPiece fun a b _ hmatch => ?_
  obtain ⟨piece, rfl, hkind⟩ := matchPiece_eq_some hmatch
  cases piece with
  | text s => cases hkind
  | shown s => cases hkind
  | opening tag => rfl
  | closing tag => rfl
  | br form => rfl

/-- **What `stripTags` makes of an element's inside** is its content. -/
theorem stripTags_pieces (hleaves : Leaves pieces) (hquiet : Quiet pieces)
    (hquot : ¬ js "&quot;" <:+: contentOf pieces) (hsharp : ¬ js "&#39;" <:+: contentOf pieces) :
    stripTags (pieces.flatMap Piece.write) = contentOf pieces := by
  have hplain : ∀ piece ∈ dropTags pieces, piece.isTag = false := by
    intro piece hpiece
    rw [dropTags_eq, List.mem_filter] at hpiece
    simpa using hpiece.2
  have hleaves' : Leaves (dropTags pieces) := by
    intro s hs
    rw [dropTags_eq] at hs
    exact hleaves s (List.mem_of_mem_filter hs)
  have hdecoded := decode_pieces [] hplain hleaves'
  rw [contentOf_dropTags, List.nil_append] at hdecoded
  unfold stripTags
  rw [removeTags_pieces hquiet]
  exact hdecoded hquot hsharp

/-! ## White space -/

def nonSpace (text : JsString) : JsString := text.filter fun c => !isRegexSpace c

def AllSpace (text : JsString) : Prop := ∀ c ∈ text, isRegexSpace c = true

theorem nonSpace_append (a b : JsString) : nonSpace (a ++ b) = nonSpace a ++ nonSpace b :=
  List.filter_append a b

theorem nonSpace_of_allSpace (h : AllSpace a) : nonSpace a = [] := by
  rw [nonSpace, List.filter_eq_nil_iff]
  intro c hc
  simp [h c hc]

theorem space_not_mem_entity (hc : isRegexSpace c = true) : ∀ entity ∈ entities, c ∉ entity := by
  have hletters : ∀ entity ∈ entities, ∀ x ∈ entity, isRegexSpace x = false := by decide
  intro entity hmem hx
  rw [hletters entity hmem c hx] at hc
  cases hc

/-- White space separates. -/
theorem nonSpace_decode_append (hw : AllSpace w) (hne : w ≠ []) (a b : JsString) :
    nonSpace (decodeHtmlEntities (a ++ (w ++ b))) =
      nonSpace (decodeHtmlEntities a) ++ nonSpace (decodeHtmlEntities b) := by
  induction w generalizing a with
  | nil => exact absurd rfl hne
  | cons c w ih =>
    have hc := hw c List.mem_cons_self
    have hw' : AllSpace w := fun x hx => hw x (List.mem_cons_of_mem c hx)
    have htail : nonSpace (decodeHtmlEntities (w ++ b)) = nonSpace (decodeHtmlEntities b) := by
      by_cases hnil : w = []
      · rw [hnil, List.nil_append]
      · exact ih hw' hnil []
    have hspace : nonSpace (c :: decodeHtmlEntities (w ++ b)) = nonSpace (decodeHtmlEntities (w ++ b)) := by
      simp [nonSpace, hc]
    rw [List.cons_append, decode_append_cons (space_not_mem_entity hc), nonSpace_append, hspace, htail]

/-- A step that replaces white space by white space. -/
theorem nonSpace_decode_rewrite {matchSpace : JsString → Option ℕ} {replacement : JsString}
    (hsized : Sized matchSpace) (hspace : ∀ a b, matchSpace (a ++ b) = some a.length → AllSpace a)
    (hreplacement : AllSpace replacement) (hne : replacement ≠ []) (text : JsString) :
    nonSpace (decodeHtmlEntities (rewrite matchSpace (fun _ => replacement) text)) =
      nonSpace (decodeHtmlEntities text) := by
  have hbehind (front : JsString) :
      nonSpace (decodeHtmlEntities (front ++ rewrite matchSpace (fun _ => replacement) text)) =
        nonSpace (decodeHtmlEntities (front ++ text)) := by
    induction text using rewrite_induction hsized generalizing front with
    | nil => rfl
    | found a b ha hmatch ih =>
      have hb := ih []
      rw [List.nil_append, List.nil_append] at hb
      rw [rewrite_match ha hmatch, nonSpace_decode_append hreplacement hne,
        nonSpace_decode_append (hspace a b hmatch) ha, hb]
    | copied c b hmatch ih =>
      have hb := ih (front ++ [c])
      rw [List.append_assoc, List.append_assoc] at hb
      rw [rewrite_cons hmatch]
      exact hb
  exact hbehind []

/-- What `trim` takes away. -/
theorem exists_jsTrim (text : JsString) :
    ∃ a b, AllSpace a ∧ AllSpace b ∧ text = a ++ (jsTrim text ++ b) := by
  have hfront : text.takeWhile isRegexSpace ++ text.dropWhile isRegexSpace = text := List.takeWhile_append_dropWhile
  have hback (u : JsString) : (u.reverse.dropWhile isRegexSpace).reverse ++
      (u.reverse.takeWhile isRegexSpace).reverse = u := by
    rw [← List.reverse_append, List.takeWhile_append_dropWhile, List.reverse_reverse]
  refine ⟨text.takeWhile isRegexSpace, ((text.dropWhile isRegexSpace).reverse.takeWhile isRegexSpace).reverse,
    ?_, ?_, ?_⟩
  · exact fun c hc => List.mem_takeWhile_imp hc
  · exact fun c hc => List.mem_takeWhile_imp (List.mem_reverse.mp hc)
  · rw [jsTrim, hback, hfront]

theorem nonSpace_decode_jsTrim (text : JsString) :
    nonSpace (decodeHtmlEntities (jsTrim text)) = nonSpace (decodeHtmlEntities text) := by
  obtain ⟨a, b, ha, hb, htext⟩ := exists_jsTrim text
  have hfront (u : JsString) : nonSpace (decodeHtmlEntities (a ++ u)) = nonSpace (decodeHtmlEntities u) := by
    by_cases hnil : a = []
    · rw [hnil, List.nil_append]
    · exact nonSpace_decode_append ha hnil [] u
  have hback (u : JsString) : nonSpace (decodeHtmlEntities (u ++ b)) = nonSpace (decodeHtmlEntities u) := by
    by_cases hnil : b = []
    · rw [hnil, List.append_nil]
    · have hsplit := nonSpace_decode_append hb hnil u []
      have hempty : nonSpace (decodeHtmlEntities []) = [] := rfl
      rwa [hempty, List.append_nil, List.append_nil] at hsplit
  calc nonSpace (decodeHtmlEntities (jsTrim text))
      = nonSpace (decodeHtmlEntities (jsTrim text ++ b)) := (hback _).symm
    _ = nonSpace (decodeHtmlEntities (a ++ (jsTrim text ++ b))) := (hfront _).symm
    _ = nonSpace (decodeHtmlEntities text) := by rw [← htext]

theorem nonSpace_jsTrim (text : JsString) : nonSpace (jsTrim text) = nonSpace text := by
  obtain ⟨a, b, ha, hb, htext⟩ := exists_jsTrim text
  calc nonSpace (jsTrim text)
      = nonSpace a ++ (nonSpace (jsTrim text) ++ nonSpace b) := by
        rw [nonSpace_of_allSpace ha, nonSpace_of_allSpace hb, List.nil_append, List.append_nil]
    _ = nonSpace (a ++ (jsTrim text ++ b)) := by rw [nonSpace_append, nonSpace_append]
    _ = nonSpace text := by rw [← htext]

theorem sized_matchBlankEnd : Sized matchBlankEnd := by
  intro text n h
  unfold matchBlankEnd at h
  dsimp only at h
  split_ifs at h with hfound
  obtain rfl := Option.some.inj h
  refine ⟨Nat.succ_pos _, ?_⟩
  obtain ⟨rest, hrest⟩ := List.head?_eq_some_iff.mp hfound.2
  have hlength := congrArg List.length hrest
  rw [List.length_drop, List.length_cons] at hlength
  omega

theorem matchBlankEnd_allSpace (h : matchBlankEnd (a ++ b) = some a.length) : AllSpace a := by
  unfold matchBlankEnd at h
  dsimp only at h
  split_ifs at h with hfound
  have hlength := Option.some.inj h
  obtain ⟨rest, hrest⟩ := List.head?_eq_some_iff.mp hfound.2
  have hsplit := List.take_append_drop ((a ++ b).takeWhile fun c => decide (c = 32) || decide (c = 9)).length (a ++ b)
  rw [hrest, List.prefix_iff_eq_take.mp (List.takeWhile_prefix _) |>.symm, ← List.singleton_append,
    ← List.append_assoc] at hsplit
  have ha := (List.append_inj hsplit (by rw [List.length_append]; exact hlength)).1
  intro c hc
  rw [← ha, List.mem_append, List.mem_singleton] at hc
  rcases hc with hc | rfl
  · have hblank := List.mem_takeWhile_imp hc
    simp only [Bool.or_eq_true, decide_eq_true_eq] at hblank
    rcases hblank with rfl | rfl <;> decide
  · decide

theorem sized_matchBlankLines : Sized matchBlankLines := by
  intro text n h
  unfold matchBlankLines at h
  dsimp only at h
  split_ifs at h with hfound
  obtain rfl := Option.some.inj h
  exact ⟨by omega, (List.takeWhile_prefix _).length_le⟩

theorem matchBlankLines_allSpace (h : matchBlankLines (a ++ b) = some a.length) : AllSpace a := by
  unfold matchBlankLines at h
  dsimp only at h
  split_ifs at h with hfound
  have hlength := Option.some.inj h
  have hlines := List.prefix_of_prefix_length_le (List.takeWhile_prefix (fun c => decide (c = 10)))
    (List.prefix_append a b) hlength.le
  have ha := hlines.eq_of_length hlength
  intro c hc
  rw [← ha] at hc
  have hten := List.mem_takeWhile_imp hc
  rw [of_decide_eq_true hten]
  decide

end CodeShare
