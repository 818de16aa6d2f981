import CodeShare.Services.HtmlTree

/-! # The steps of the conversion, piece by piece

Each regular expression of the conversion finds in the written text what the step of the pieces finds among the
pieces, as long as no text that a step has written looks like a tag.
-/

namespace CodeShare
open Rewriting Substitution
set_option autoImplicit false

variable {s t text rest pattern word : JsString} {tag : Tag} {piece : Piece} {pieces inner : List Piece} {c : ℕ}

/-! ## Stretches without a match -/

/-- No match of the pattern starts in the word, in either letter case, whatever comes behind. -/
def Misses (pattern word : JsString) : Prop :=
  ∀ s t rest, word = s ++ t → t ≠ [] → ¬ pattern <+: (t ++ rest).map asciiLower

namespace Misses

theorem tail (h : Misses pattern (c :: word)) : Misses pattern word :=
  fun s t rest hsplit ht => h (c :: s) t rest (by rw [hsplit, List.cons_append]) ht

theorem passedBy (h : Misses pattern word) (rest : JsString) :
    PassedBy pattern (word.map asciiLower) (rest.map asciiLower) := by
  induction word with
  | nil => exact PassedBy.nil
  | cons c word ih =>
    refine PassedBy.cons ?_ (ih h.tail)
    have hhead := h [] (c :: word) rest rfl (List.cons_ne_nil _ _)
    rwa [List.map_append, List.map_cons, List.cons_append] at hhead

theorem matchCaseless (h : Misses (pattern.map asciiLower) (s ++ t)) (ht : t ≠ []) (rest : JsString) :
    matchCaseless pattern (t ++ rest) = none := by
  refine if_neg fun heq => h s t rest rfl ht ?_
  rw [heq]
  exact (List.take_prefix _ _).map _

end Misses

theorem Misses.of_not_mem {p : JsString} (h : 60 ∉ word) : Misses (60 :: p) word := by
  intro s t rest hsplit ht
  cases t with
  | nil => exact absurd rfl ht
  | cons c t =>
    rw [List.cons_append, List.map_cons, List.cons_prefix_cons]
    rintro ⟨hc, -⟩
    have hlt : c = 60 := asciiLower_eq (by decide) hc.symm
    apply h
    rw [hsplit, hlt]
    exact List.mem_append_right _ List.mem_cons_self

/-! ## Tags -/

theorem Piece.write_of_isTag (h : piece.isTag = true) : piece.write = 60 :: (piece.label ++ [62]) := by
  cases piece <;> first | rfl | cases h

/-- The labels of tags are lower-case words without angle brackets, and no step writes a text that ends like one. -/
theorem Piece.label_of_isTag (h : piece.isTag = true) : piece.label ≠ [] ∧ 60 ∉ piece.label ∧ 62 ∉ piece.label ∧
    piece.label.map asciiLower = piece.label ∧ ∀ c ∈ [10, 94, 96], c ∉ piece.label := by
  cases piece with
  | text s => cases h
  | shown s => cases h
  | opening tag => cases tag <;> decide
  | closing tag => cases tag <;> decide
  | br form => cases form <;> decide

theorem Piece.map_asciiLower_write (h : piece.isTag = true) : piece.write.map asciiLower = piece.write := by
  rw [Piece.write_of_isTag h, List.map_cons, List.map_append, (Piece.label_of_isTag h).2.2.2.1]
  rfl

/-- No label starts with another one. -/
theorem Piece.label_clash {other : Piece} (h : piece.isTag = true) (h' : other.isTag = true) (hne : piece ≠ other) :
    ¬ piece.label ++ [62] <+: other.label ++ [62] := by
  cases piece with
  | text s => cases h
  | shown s => cases h
  | opening tag =>
    cases other with
    | text s => cases h'
    | shown s => cases h'
    | opening tag' => cases tag <;> cases tag' <;> first | decide | exact absurd rfl hne
    | closing tag' => cases tag <;> cases tag' <;> decide
    | br form => cases tag <;> cases form <;> decide
  | closing tag =>
    cases other with
    | text s => cases h'
    | shown s => cases h'
    | opening tag' => cases tag <;> cases tag' <;> decide
    | closing tag' => cases tag <;> cases tag' <;> first | decide | exact absurd rfl hne
    | br form => cases tag <;> cases form <;> decide
  | br form =>
    cases other with
    | text s => cases h'
    | shown s => cases h'
    | opening tag' => cases form <;> cases tag' <;> decide
    | closing tag' => cases form <;> cases tag' <;> decide
    | br form' => cases form <;> cases form' <;> first | decide | exact absurd rfl hne

/-- Another tag. -/
theorem Misses.other_tag {other : Piece} (h : piece.isTag = true) (h' : other.isTag = true) (hne : piece ≠ other) :
    Misses piece.write other.write := by
  rw [Piece.write_of_isTag h, Piece.write_of_isTag h']
  obtain ⟨-, hlt, -, hlower, -⟩ := Piece.label_of_isTag h'
  have hrest : 60 ∉ other.label ++ [62] := by
    rw [List.mem_append, not_or]
    exact ⟨hlt, by decide⟩
  have hsame : (other.label ++ [62]).map asciiLower = other.label ++ [62] := by
    rw [List.map_append, hlower]
    rfl
  intro s t rest hsplit ht
  cases s with
  | nil =>
    rw [List.nil_append] at hsplit
    rw [← hsplit, List.map_append, List.map_cons, hsame, List.cons_append, List.cons_prefix_cons]
    rintro ⟨-, hp⟩
    rcases List.prefix_or_prefix_of_prefix hp (List.prefix_append _ _) with h1 | h1
    · exact Piece.label_clash h h' hne h1
    · exact Piece.label_clash h' h (Ne.symm hne) h1
  | cons c s =>
    rw [List.cons_append, List.cons.injEq] at hsplit
    exact Misses.of_not_mem hrest s t rest hsplit.2 ht

/-! ## Texts that a step has written -/

/-- A text that a step has written begins and ends with one of its own signs, and is not read again. -/
structure Leaf (s : JsString) : Prop where
  first : ∃ c, s.head? = some c ∧ c ∈ [10, 45, 94, 96]
  last : ∃ c, s.getLast? = some c ∧ c ∈ [10, 94, 96]
  entityFree : EntityFree s
  tagFree : TagFree s []

theorem matchTag_ne_none {b : JsString} (hc : c ≠ 62) (hb : 62 ∈ b) : matchTag (60 :: c :: b) ≠ none := by
  rw [matchTag, List.takeWhile_cons_of_pos (by simpa using hc), if_neg]
  · exact Option.some_ne_none _
  · rw [not_or]
    exact ⟨List.cons_ne_nil _ _, not_not.mpr (List.mem_cons_of_mem _ hb)⟩

theorem Misses.leaf (h : piece.isTag = true) (hs : Leaf s) : Misses piece.write s := by
  obtain ⟨hne, -, hgt, hlower, hend⟩ := Piece.label_of_isTag h
  rw [Piece.write_of_isTag h]
  intro a t rest hsplit ht hp
  rw [List.map_append] at hp
  rcases List.prefix_or_prefix_of_prefix hp (List.prefix_append (t.map asciiLower) _) with hshort | hlong
  · -- the whole tag would be in the text
    obtain ⟨c, name, hlabel⟩ := List.exists_cons_of_ne_nil hne
    rw [hlabel, List.cons_append] at hshort
    match t with
    | [] => exact ht rfl
    | [x] => exact absurd hshort.length_le (by simp)
    | x :: y :: b =>
      rw [List.map_cons, List.map_cons, List.cons_prefix_cons, List.cons_prefix_cons] at hshort
      obtain ⟨hx, hy, hb⟩ := hshort
      obtain rfl := asciiLower_eq (by decide) hx.symm
      have hy62 : y ≠ 62 := by
        rintro rfl
        apply hgt
        rw [hlabel, hy]
        exact List.mem_cons_self
      have hb62 : 62 ∈ b := by
        have hmem : 62 ∈ b.map asciiLower := hb.subset (List.mem_append_right _ List.mem_cons_self)
        obtain ⟨z, hz, hz62⟩ := List.mem_map.mp hmem
        rwa [asciiLower_eq (by decide) hz62] at hz
      have hnone := hs.tagFree a _ hsplit ht
      rw [List.append_nil] at hnone
      exact matchTag_ne_none hy62 hb62 hnone
  · -- the tag would reach beyond the text, and so contain its last sign
    obtain ⟨x, hlast, hx⟩ := hs.last
    have hxt : x ∈ t := by
      rw [hsplit, List.getLast?_append_of_ne_nil _ ht] at hlast
      exact List.mem_of_getLast? hlast
    have hlowx : asciiLower x = x ∧ x ≠ 60 ∧ x ≠ 62 := by
      simp only [List.mem_cons, List.not_mem_nil, or_false] at hx
      rcases hx with rfl | rfl | rfl <;> decide
    have hmem : x ∈ 60 :: (piece.label ++ [62]) := by
      apply hlong.subset
      rw [← hlowx.1]
      exact List.mem_map_of_mem hxt
    rw [List.mem_cons, List.mem_append, List.mem_singleton] at hmem
    rcases hmem with hmem | hmem | hmem
    · exact hlowx.2.1 hmem
    · exact hend x hx hmem
    · exact hlowx.2.2 hmem

/-- No tag is found in a piece that is not that tag. -/
theorem Misses.write {other : Piece} (h : piece.isTag = true) (hne : other ≠ piece)
    (hleaf : ∀ s, other = .shown s → Leaf s) : Misses piece.write other.write := by
  cases other with
  | text s =>
    rw [Piece.write_of_isTag h]
    exact Misses.of_not_mem (escapeHtml_not_mem (Or.inl rfl) s)
  | shown s => exact Misses.leaf h (hleaf s rfl)
  | opening tag => exact Misses.other_tag h rfl (Ne.symm hne)
  | closing tag => exact Misses.other_tag h rfl (Ne.symm hne)
  | br form => exact Misses.other_tag h rfl (Ne.symm hne)

/-! ## Elements -/

/-- Every text that a step has written is one that stays. -/
def Leaves (pieces : List Piece) : Prop := ∀ s, .shown s ∈ pieces → Leaf s

/-- The pieces between an opening tag and the next closing tag. -/
def Inside (tag : Tag) (pieces inner : List Piece) : Prop :=
  ∃ front back, pieces = front ++ .opening tag :: (inner ++ .closing tag :: back) ∧ .closing tag ∉ inner

theorem Leaves.of_suffix {a : List Piece} (h : Leaves pieces) (ha : a <:+ pieces) : Leaves a :=
  fun s hs => h s (ha.subset hs)

theorem sized_matchElement : Sized (matchElement tag) := by
  intro text n h
  unfold matchElement at h
  split at h
  · split_ifs at h with hclosed
    rename_i t rest
    obtain rfl := Option.some.inj h
    have hlt : (rest.takeWhile (· ≠ .closing tag)).length < rest.length := by
      have hsplit := congrArg List.length (List.takeWhile_append_dropWhile (p := (· ≠ .closing tag)) (l := rest))
      have hne : rest.dropWhile (· ≠ .closing tag) ≠ [] := by
        intro hnil
        have hall := List.dropWhile_eq_nil_iff.mp hnil _ hclosed.2
        simp at hall
      rw [List.length_append] at hsplit
      have hpos := List.length_pos_iff.mpr hne
      omega
    rw [List.length_cons]
    omega
  · cases h

/-- What is found is an element. -/
theorem matchElement_eq_some {a b : List Piece} (h : matchElement tag (a ++ b) = some a.length) :
    ∃ inner, a = .opening tag :: (inner ++ [.closing tag]) ∧ .closing tag ∉ inner := by
  cases a with
  | nil =>
    have hpos := (sized_matchElement _ _ h).1
    exact absurd hpos (Nat.lt_irrefl 0)
  | cons piece a =>
    unfold matchElement at h
    split at h
    · rename_i t rest heq
      rw [List.cons_append, List.cons.injEq] at heq
      obtain ⟨rfl, rfl⟩ := heq
      split_ifs at h with hclosed
      obtain ⟨rfl, hmem⟩ := hclosed
      have hlength := Option.some.inj h
      rw [List.length_cons] at hlength
      obtain ⟨inner, back, hsplit, hnot⟩ := List.eq_append_cons_of_mem hmem
      rw [hsplit, takeWhile_append_cons hnot] at hlength
      have hsplit' : a ++ b = (inner ++ [.closing t]) ++ back := by
        rw [hsplit, List.append_assoc]
        rfl
      have ha : a = inner ++ [.closing t] := by
        refine (List.append_inj hsplit' ?_).1
        rw [List.length_append, List.length_singleton]
        omega
      exact ⟨inner, by rw [ha], hnot⟩
    · cases h

theorem inside_element (opening closing : Piece) (inner : List Piece) :
    inside (opening :: (inner ++ [closing])) = inner := by
  unfold inside
  rw [List.tail_cons, List.dropLast_concat]

theorem inside_of_suffix {a b : List Piece} (hsuffix : a ++ b <:+ pieces)
    (ha : a = .opening tag :: (inner ++ [.closing tag])) (hnot : .closing tag ∉ inner) : Inside tag pieces inner := by
  obtain ⟨front, hfront⟩ := hsuffix
  refine ⟨front, b, ?_, hnot⟩
  rw [← hfront, ha]
  simp

theorem passedBy_pieces (h : piece.isTag = true) (hnot : piece ∉ inner) (hleaves : Leaves inner) (rest : JsString) :
    PassedBy (piece.write.map asciiLower) ((inner.flatMap Piece.write).map asciiLower) (rest.map asciiLower) := by
  rw [Piece.map_asciiLower_write h]
  induction inner with
  | nil => exact PassedBy.nil
  | cons x inner ih =>
    rw [List.mem_cons, not_or] at hnot
    have hx : Misses piece.write x.write :=
      Misses.write h (Ne.symm hnot.1) fun s hs => hleaves s (by rw [hs]; exact List.mem_cons_self)
    have hrest := ih hnot.2 (hleaves.of_suffix (List.suffix_cons x inner))
    rw [List.flatMap_cons, List.map_append]
    refine PassedBy.append ?_ hrest
    rw [← List.map_append]
    exact hx.passedBy _

/-- No element starts in a piece that starts none. -/
theorem matchBetween_copied {b : List Piece} (hleaves : Leaves (piece :: b))
    (hnone : matchElement tag (piece :: b) = none) (hsplit : piece.write = s ++ t) (ht : t ≠ []) :
    matchBetween (Piece.opening tag).write (Piece.closing tag).write (t ++ b.flatMap Piece.write) = none := by
  have hlower : (Piece.opening tag).write.map asciiLower = (Piece.opening tag).write :=
    Piece.map_asciiLower_write rfl
  have hmissed : Misses (Piece.opening tag).write (s ++ t) →
      matchBetween (Piece.opening tag).write (Piece.closing tag).write (t ++ b.flatMap Piece.write) = none := by
    intro hmisses
    rw [← hlower] at hmisses
    unfold matchBetween
    rw [hmisses.matchCaseless ht]
  by_cases hopening : piece = .opening tag
  · subst hopening
    have hopen : .closing tag ∉ b := by
      intro hmem
      rw [matchElement, if_pos ⟨rfl, hmem⟩] at hnone
      cases hnone
    cases s with
    | nil =>
      have hclosed := passedBy_pieces (rfl : (Piece.closing tag).isTag = true) hopen
        (hleaves.of_suffix (List.suffix_cons _ b)) []
      rw [PassedBy, List.map_nil, List.append_nil] at hclosed
      have hnil : firstIndex ((Piece.closing tag).write.map asciiLower) ([] : JsString) = none := rfl
      rw [hnil, Option.map_none] at hclosed
      rw [List.nil_append] at hsplit
      unfold matchBetween
      rw [← hsplit, matchCaseless_append]
      dsimp only
      rw [List.drop_left, caselessIndex, hclosed, Option.map_none]
    | cons c s =>
      -- inside the opening tag there is no angle bracket to start with
      have hword : Misses (Piece.opening tag).write (s ++ t) := by
        rw [Piece.write_of_isTag rfl, List.cons_append, List.cons.injEq] at hsplit
        rw [Piece.write_of_isTag rfl, ← hsplit.2]
        apply Misses.of_not_mem
        rw [List.mem_append, not_or]
        exact ⟨(Piece.label_of_isTag (rfl : (Piece.opening tag).isTag = true)).2.1, by decide⟩
      rw [← hlower] at hword
      unfold matchBetween
      rw [hword.matchCaseless ht]
  · apply hmissed
    rw [← hsplit]
    exact Misses.write rfl hopening fun s hs => hleaves s (by rw [hs]; exact List.mem_cons_self)

/-- **One step for the elements of a kind**: what `R` makes of the written element is what `out` makes of the pieces
in it. -/
theorem rewrite_elements (tag : Tag) (keep : JsString → Bool) (R : JsString → JsString)
    (out : List Piece → List Piece) (hleaves : Leaves pieces)
    (hkeep : ∀ inner, Inside tag pieces inner →
      keep ((Piece.opening tag).write ++ inner.flatMap Piece.write ++ (Piece.closing tag).write) = true)
    (hR : ∀ inner, Inside tag pieces inner →
      R ((Piece.opening tag).write ++ inner.flatMap Piece.write ++ (Piece.closing tag).write) =
        (out inner).flatMap Piece.write) :
    rewrite (fun text => (matchBetween (Piece.opening tag).write (Piece.closing tag).write text).filter
      fun n => keep (text.take n)) R (pieces.flatMap Piece.write) =
    (rewrite (matchElement tag) (fun element => out (inside element)) pieces).flatMap Piece.write := by
  refine rewrite_flatMap sized_matchElement ?_ ?_
  · intro a b hsuffix ha hmatch
    obtain ⟨inner, rfl, hnot⟩ := matchElement_eq_some hmatch
    have hinside : Inside tag pieces inner := inside_of_suffix hsuffix rfl hnot
    have hwritten : (Piece.opening tag :: (inner ++ [Piece.closing tag])).flatMap Piece.write =
        (Piece.opening tag).write ++ inner.flatMap Piece.write ++ (Piece.closing tag).write := by
      simp
    have hinner : Leaves inner := by
      intro s hs
      refine hleaves s (hsuffix.subset ?_)
      simp [hs]
    rw [hwritten, inside_element]
    refine ⟨?_, ?_, hR inner hinside⟩
    · rw [Piece.write_of_isTag rfl]
      simp
    · have hpassed := passedBy_pieces (rfl : (Piece.closing tag).isTag = true) hnot hinner
        ((Piece.closing tag).write ++ b.flatMap Piece.write)
      rw [matchBetween_append hpassed, Option.filter_some, List.take_left, if_pos (hkeep inner hinside)]
  · intro piece b hsuffix hnone s t hsplit ht
    rw [matchBetween_copied (hleaves.of_suffix hsuffix) hnone hsplit ht]
    rfl

/-! ## Single pieces -/

theorem sized_matchPiece {kind : Piece → Bool} : Sized (matchPiece kind) := by
  intro text n h
  unfold matchPiece at h
  split at h
  · split_ifs at h
    obtain rfl := Option.some.inj h
    rw [List.length_cons]
    omega
  · cases h

theorem matchPiece_eq_some {kind : Piece → Bool} {a b : List Piece}
    (h : matchPiece kind (a ++ b) = some a.length) : ∃ piece, a = [piece] ∧ kind piece = true := by
  match a with
  | [] => exact absurd (sized_matchPiece _ _ h).1 (Nat.lt_irrefl 0)
  | [piece] =>
    refine ⟨piece, rfl, ?_⟩
    by_contra hnot
    rw [List.singleton_append, matchPiece, if_neg hnot] at h
    cases h
  | piece :: other :: a =>
    rw [List.cons_append, matchPiece] at h
    split_ifs at h
    simp at h

theorem rewrite_matchPiece {kind : Piece → Bool} {replacement : List Piece} (pieces : List Piece) :
    rewrite (matchPiece kind) (fun _ => replacement) pieces =
      pieces.flatMap fun piece => if kind piece then replacement else [piece] := by
  induction pieces with
  | nil => rfl
  | cons piece pieces ih =>
    rw [List.flatMap_cons]
    by_cases hkind : kind piece = true
    · have hmatch : matchPiece kind ([piece] ++ pieces) = some [piece].length := if_pos hkind
      rw [if_pos hkind, ← List.singleton_append, rewrite_match (List.cons_ne_nil _ _) hmatch, ih]
    · rw [if_neg hkind, rewrite_cons (if_neg hkind), ih, List.singleton_append]

theorem rewrite_endParagraphs (hleaves : Leaves pieces) :
    rewrite (matchCaseless (js "</p>")) (fun _ => [10, 10]) (pieces.flatMap Piece.write) =
      (endParagraphs pieces).flatMap Piece.write := by
  have htag : (Piece.closing .p).isTag = true := rfl
  refine rewrite_flatMap sized_matchPiece ?_ ?_
  · intro a b _ ha hmatch
    obtain ⟨piece, rfl, hkind⟩ := matchPiece_eq_some hmatch
    obtain rfl := of_decide_eq_true hkind
    exact ⟨by decide, matchCaseless_append _ _, rfl⟩
  · intro piece b hsuffix hnone s t hsplit ht
    have hne : piece ≠ .closing .p := by
      rintro rfl
      cases hnone
    have hmisses : Misses (Piece.closing .p).write (s ++ t) := by
      rw [← hsplit]
      exact Misses.write htag hne fun s hs => hleaves s (hsuffix.subset (by rw [hs]; exact List.mem_cons_self))
    rw [← Piece.map_asciiLower_write htag] at hmisses
    exact hmisses.matchCaseless ht _

theorem removeTags_pieces (hquiet : Quiet pieces) :
    removeTags (pieces.flatMap Piece.write) = (dropTags pieces).flatMap Piece.write := by
  refine rewrite_flatMap sized_matchPiece ?_ ?_
  · intro a b _ ha hmatch
    obtain ⟨piece, rfl, hkind⟩ := matchPiece_eq_some hmatch
    obtain ⟨hne, -, hgt, -⟩ := Piece.label_of_isTag hkind
    rw [List.flatMap_singleton, Piece.write_of_isTag hkind]
    exact ⟨List.cons_ne_nil _ _, matchTag_append hne hgt _, rfl⟩
  · intro piece b hsuffix hnone s t hsplit ht
    have hkind : ¬ piece.isTag = true := by
      intro hkind
      rw [matchPiece, if_pos hkind] at hnone
      cases hnone
    cases piece with
    | text text =>
      refine matchTag_of_not_mem (fun hm => ?_) ht _
      have hwritten : Piece.write (.text text) = escapeHtml text := rfl
      apply escapeHtml_not_mem (Or.inl rfl) text (c := 60)
      rw [← hwritten, hsplit]
      exact List.mem_append_right _ hm
    | shown text =>
      obtain ⟨front, hfront⟩ := hsuffix
      exact hquiet front text b hfront.symm s t hsplit ht
    | opening tag => exact absurd rfl hkind
    | closing tag => exact absurd rfl hkind
    | br form => exact absurd rfl hkind

/-! ## Line breaks

`/<br\s*\/?>/i` may begin in one text that a step has written and end in another; what it finds then is a tag in the
end.
-/

theorem matchBr_br (form : BreakForm) (rest : JsString) :
    matchBr ((Piece.br form).write ++ rest) = some (Piece.br form).write.length := by
  have hcaseless (w : JsString) : matchCaseless (js "<br") (js "<br" ++ w) = some 3 := matchCaseless_append _ _
  cases form with
  | bare =>
    have hsplit : (Piece.br .bare).write ++ rest = js "<br" ++ 62 :: rest := rfl
    have hdrop : (js "<br" ++ 62 :: rest).drop 3 = 62 :: rest := rfl
    rw [hsplit, matchBr, hcaseless]
    dsimp only
    rw [hdrop, List.takeWhile_cons_of_neg (by decide), List.dropWhile_cons_of_neg (by decide)]
    rfl
  | closed =>
    have hsplit : (Piece.br .closed).write ++ rest = js "<br" ++ 47 :: 62 :: rest := rfl
    have hdrop : (js "<br" ++ 47 :: 62 :: rest).drop 3 = 47 :: 62 :: rest := rfl
    rw [hsplit, matchBr, hcaseless]
    dsimp only
    rw [hdrop, List.takeWhile_cons_of_neg (by decide), List.dropWhile_cons_of_neg (by decide)]
    rfl
  | spaced =>
    have hsplit : (Piece.br .spaced).write ++ rest = js "<br" ++ 32 :: 47 :: 62 :: rest := rfl
    have hdrop : (js "<br" ++ 32 :: 47 :: 62 :: rest).drop 3 = 32 :: 47 :: 62 :: rest := rfl
    rw [hsplit, matchBr, hcaseless]
    dsimp only
    rw [hdrop, List.takeWhile_cons_of_pos (by decide), List.takeWhile_cons_of_neg (by decide),
      List.dropWhile_cons_of_pos (by decide), List.dropWhile_cons_of_neg (by decide)]
    rfl

theorem mem_takeWhile_append {a b : JsString} (ha : 60 ∉ a) (hb : c ∈ b.takeWhile (· ≠ 60)) :
    c ∈ (a ++ b).takeWhile (· ≠ 60) := by
  rw [List.takeWhile_append_of_pos]
  · exact List.mem_append_right _ hb
  · intro x hx
    exact decide_eq_true fun heq => ha (heq ▸ hx)

theorem mem_of_mem_takeWhile_append {a b : JsString} (h : c ∈ (a ++ b).takeWhile (· ≠ 60)) :
    c ∈ a ∨ c ∈ b.takeWhile (· ≠ 60) := by
  rw [List.takeWhile_append] at h
  split_ifs at h
  · exact List.mem_append.mp h
  · exact Or.inl ((List.takeWhile_prefix _).subset h)

/-- Between the `<` of a match and the next `<` there is a `>`. -/
theorem matchBr_ne_none (h : matchBr text ≠ none) :
    ∃ c rest, text = 60 :: c :: rest ∧ asciiLower c = 98 ∧ 62 ∈ (c :: rest).takeWhile (· ≠ 60) := by
  have hcaseless : (js "<br").map asciiLower = (text.take 3).map asciiLower := by
    by_contra hnot
    apply h
    have hnone : matchCaseless (js "<br") text = none := if_neg hnot
    rw [matchBr, hnone]
  have hsome : matchCaseless (js "<br") text = some 3 := if_pos hcaseless
  rw [matchBr, hsome] at h
  match text, hcaseless with
  | [], hcaseless => cases hcaseless
  | [_], hcaseless => simp [js] at hcaseless
  | [_, _], hcaseless => simp [js] at hcaseless
  | x :: c :: d :: rest, hcaseless =>
    have hletters : 60 = asciiLower x ∧ 98 = asciiLower c ∧ 114 = asciiLower d := by
      have heq : [60, 98, 114] = [asciiLower x, asciiLower c, asciiLower d] := hcaseless
      simpa using heq
    obtain ⟨hx, hc, hd⟩ := hletters
    have hplain : c ≠ 60 ∧ d ≠ 60 := by
      refine ⟨?_, ?_⟩
      · rintro rfl
        revert hc
        decide
      · rintro rfl
        revert hd
        decide
    refine ⟨c, d :: rest, by rw [asciiLower_eq (by decide) hx.symm], hc.symm, ?_⟩
    have hdrop : (x :: c :: d :: rest).drop 3 = rest := rfl
    dsimp only at h
    rw [hdrop] at h
    have hspaces : 60 ∉ rest.takeWhile isRegexSpace := by
      intro hm
      have hspace := List.mem_takeWhile_imp hm
      revert hspace
      decide
    have hfound : 62 ∈ (rest.dropWhile isRegexSpace).takeWhile (· ≠ 60) := by
      split at h
      · rename_i heq
        rw [heq]
        simp
      · rename_i heq
        rw [heq]
        simp
      · exact absurd rfl h
    have hall : 62 ∈ ([c, d] ++ (rest.takeWhile isRegexSpace ++ rest.dropWhile isRegexSpace)).takeWhile (· ≠ 60) := by
      apply mem_takeWhile_append
      · simp [hplain.1.symm, hplain.2.symm]
      · exact mem_takeWhile_append hspaces hfound
    rwa [List.takeWhile_append_dropWhile] at hall

theorem breakLines_append (a b : List Piece) : breakLines (a ++ b) = breakLines a ++ breakLines b := by
  unfold breakLines
  rw [rewrite_matchPiece, rewrite_matchPiece, rewrite_matchPiece, List.flatMap_append]

theorem breakLines_cons (piece : Piece) (b : List Piece) :
    breakLines (piece :: b) = breakLines [piece] ++ breakLines b := breakLines_append [piece] b

/-- A `>` before the next `<` is in a text that a step has written, and stays. -/
theorem mem_breakLines {b : List Piece} (h : 62 ∈ (b.flatMap Piece.write).takeWhile (· ≠ 60)) :
    62 ∈ (breakLines b).flatMap Piece.write := by
  induction b with
  | nil => cases h
  | cons piece b ih =>
    rw [breakLines_cons, List.flatMap_append, List.mem_append]
    rw [List.flatMap_cons] at h
    have htag : piece.isTag = true → 62 ∉ (piece.write ++ b.flatMap Piece.write).takeWhile (· ≠ 60) := by
      intro hkind
      rw [Piece.write_of_isTag hkind, List.cons_append, List.takeWhile_cons_of_neg (by simp)]
      exact List.not_mem_nil
    have htext (s : JsString) (hs : 62 ∈ (s ++ b.flatMap Piece.write).takeWhile (· ≠ 60)) :
        62 ∈ s ∨ 62 ∈ (breakLines b).flatMap Piece.write := (mem_of_mem_takeWhile_append hs).imp_right ih
    cases piece with
    | text s =>
      refine (htext (escapeHtml s) h).imp_left fun hm => ?_
      exact absurd hm (escapeHtml_not_mem (Or.inr rfl) s)
    | shown s =>
      have hcopied : breakLines [.shown s] = [.shown s] := rfl
      refine (htext s h).imp_left fun hm => ?_
      rw [hcopied, List.flatMap_singleton]
      exact hm
    | opening tag => exact absurd h (htag rfl)
    | closing tag => exact absurd h (htag rfl)
    | br form => exact absurd h (htag rfl)

theorem matchBr_of_not_mem (h : 60 ∉ t) (ht : t ≠ []) (rest : JsString) : matchBr (t ++ rest) = none := by
  by_contra hne
  obtain ⟨c, behind, heq, -⟩ := matchBr_ne_none hne
  cases t with
  | nil => exact ht rfl
  | cons x t =>
    rw [List.cons_append, List.cons.injEq] at heq
    apply h
    rw [heq.1]
    exact List.mem_cons_self

/-- A tag whose name starts with another letter has no match in it. -/
theorem matchBr_tag (hkind : piece.isTag = true) (hb : ∀ c rest, piece.label = c :: rest → asciiLower c ≠ 98)
    (hsplit : piece.write = s ++ t) (ht : t ≠ []) (rest : JsString) : matchBr (t ++ rest) = none := by
  obtain ⟨hne, hlt, -⟩ := Piece.label_of_isTag hkind
  rw [Piece.write_of_isTag hkind] at hsplit
  cases s with
  | nil =>
    by_contra hmatch
    obtain ⟨c, behind, heq, hc, -⟩ := matchBr_ne_none hmatch
    obtain ⟨x, label, hlabel⟩ := List.exists_cons_of_ne_nil hne
    rw [List.nil_append] at hsplit
    rw [← hsplit, hlabel, List.cons_append, List.cons_append, List.cons_append, List.cons.injEq,
      List.cons.injEq] at heq
    rw [← heq.2.1] at hc
    exact hb x label hlabel hc
  | cons x s =>
    rw [List.cons_append, List.cons.injEq] at hsplit
    refine matchBr_of_not_mem (fun hm => ?_) ht _
    have hmem : 60 ∈ piece.label ++ [62] := by
      rw [hsplit.2]
      exact List.mem_append_right _ hm
    rw [List.mem_append] at hmem
    exact hmem.elim hlt (by decide)

/-- No match starts in a text that a step has written: its `>` would end a tag for the last step. -/
theorem matchBr_shown {b : List Piece} (hleaves : Leaves pieces) (hquiet : Quiet (breakLines pieces))
    (hsuffix : .shown text :: b <:+ pieces) (hsplit : text = s ++ t) (ht : t ≠ []) :
    matchBr (t ++ b.flatMap Piece.write) = none := by
  by_contra hne
  obtain ⟨c, rest, heq, hc, hgt⟩ := matchBr_ne_none hne
  obtain ⟨front, hfront⟩ := hsuffix
  have hlast := (hleaves text (by rw [← hfront]; simp)).last
  have hstays : breakLines pieces = breakLines front ++ .shown text :: breakLines b := by
    rw [← hfront, breakLines_append, breakLines_cons]
    rfl
  have hnone := hquiet _ _ _ hstays s t hsplit ht
  have hc62 : c ≠ 62 := by
    rintro rfl
    revert hc
    decide
  cases t with
  | nil => exact ht rfl
  | cons x t =>
    cases t with
    | nil =>
      -- the last sign of the text is no `<`
      obtain ⟨y, hy, hymem⟩ := hlast
      rw [hsplit, List.getLast?_concat, Option.some.injEq] at hy
      rw [List.singleton_append, List.cons.injEq] at heq
      rw [← hy, heq.1] at hymem
      revert hymem
      decide
    | cons y t =>
      rw [List.cons_append, List.cons_append, List.cons.injEq, List.cons.injEq] at heq
      obtain ⟨rfl, rfl, hrest⟩ := heq
      refine matchTag_ne_none hc62 ?_ hnone
      rw [← hrest, List.takeWhile_cons] at hgt
      split_ifs at hgt with hy60
      · rw [List.mem_cons] at hgt
        rcases hgt with hgt | hgt
        · exact absurd hgt.symm hc62
        · exact List.mem_append.mpr ((mem_of_mem_takeWhile_append hgt).imp_right mem_breakLines)
      · cases hgt

theorem rewrite_breakLines (hleaves : Leaves pieces) (hquiet : Quiet (breakLines pieces)) :
    rewrite matchBr (fun _ => [10]) (pieces.flatMap Piece.write) = (breakLines pieces).flatMap Piece.write := by
  refine rewrite_flatMap sized_matchPiece ?_ ?_
  · intro a b _ ha hmatch
    obtain ⟨piece, rfl, hkind⟩ := matchPiece_eq_some hmatch
    cases piece with
    | br form =>
      rw [List.flatMap_singleton]
      exact ⟨List.cons_ne_nil _ _, matchBr_br form _, rfl⟩
    | text s => cases hkind
    | shown s => cases hkind
    | opening tag => cases hkind
    | closing tag => cases hkind
  · intro piece b hsuffix hnone s t hsplit ht
    cases piece with
    | text text =>
      refine matchBr_of_not_mem (fun hm => ?_) ht _
      have hwritten : Piece.write (.text text) = escapeHtml text := rfl
      apply escapeHtml_not_mem (Or.inl rfl) text (c := 60)
      rw [← hwritten, hsplit]
      exact List.mem_append_right _ hm
    | shown text => exact matchBr_shown hleaves hquiet hsuffix hsplit ht
    | opening tag =>
      refine matchBr_tag rfl ?_ hsplit ht _
      intro c rest hlabel
      cases tag <;> cases hlabel <;> decide
    | closing tag =>
      refine matchBr_tag rfl ?_ hsplit ht _
      intro c rest hlabel
      cases hlabel
      decide
    | br form => cases hnone

end CodeShare
