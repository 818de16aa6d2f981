import CodeShare.Services.HtmlReading

/-! # Problem texts

What the conversion of a problem's HTML shows of it. The texts of `code`, `pre` and `li` are decoded before the tags
around them are gone: they are decoded once more, and a `<` in them is the beginning of a tag if a `>` comes later.
-/

namespace CodeShare
open Rewriting Substitution
set_option autoImplicit false

/-! ## What comes through -/

/-- The pieces show what they are to show once their tags are dropped and their entities decoded. -/
structure Readable (pieces : List Piece) : Prop where
  marked : ∀ piece ∈ pieces, piece.marked = piece.content
  quiet : Quiet pieces
  noQuot : ¬ js "&quot;" <:+: contentOf pieces
  noSharp : ¬ js "&#39;" <:+: contentOf pieces

/-- The same of the inside of an element, and that what it shows is not read again. -/
structure Settled (inner : List Piece) : Prop where
  readable : Readable inner
  entityFree : EntityFree (contentOf inner)
  tagFree : TagFree (contentOf inner) []

/-- Each element is in order when its turn comes, and so is what is left in the end. -/
structure Convertible (pieces : List Piece) : Prop where
  codes : ∀ inner, Inside .code (markSups pieces) inner → Settled inner
  blocks : ∀ inner, Inside .pre (quoteCodes (markSups pieces)) inner → Settled inner
  items : ∀ inner, Inside .li (setBlocks (quoteCodes (markSups pieces))) inner → Settled inner
  rest : Readable (breakLines (endParagraphs (listItems (setBlocks (quoteCodes (markSups pieces))))))

/-! ## Deciding it -/

/-- The insides of the elements of a kind. -/
def insides (tag : Tag) : List Piece → List (List Piece)
  | [] => []
  | piece :: rest =>
    if piece = .opening tag ∧ .closing tag ∈ rest then rest.takeWhile (· ≠ .closing tag) :: insides tag rest
    else insides tag rest

theorem inside_cons {pieces inner : List Piece} {tag : Tag} {piece : Piece} : Inside tag (piece :: pieces) inner ↔
    (piece = .opening tag ∧ ∃ back, pieces = inner ++ .closing tag :: back ∧ .closing tag ∉ inner) ∨
      Inside tag pieces inner := by
  constructor
  · rintro ⟨front, back, hsplit, hnot⟩
    cases front with
    | nil =>
      obtain ⟨rfl, rfl⟩ := List.cons.inj hsplit
      exact Or.inl ⟨rfl, back, rfl, hnot⟩
    | cons x front =>
      obtain ⟨-, rfl⟩ := List.cons.inj hsplit
      exact Or.inr ⟨front, back, rfl, hnot⟩
  · rintro (⟨rfl, back, rfl, hnot⟩ | ⟨front, back, rfl, hnot⟩)
    · exact ⟨[], back, rfl, hnot⟩
    · exact ⟨piece :: front, back, rfl, hnot⟩

theorem inside_iff {pieces inner : List Piece} {tag : Tag} : Inside tag pieces inner ↔ inner ∈ insides tag pieces := by
  induction pieces with
  | nil => simp [Inside, insides]
  | cons piece pieces ih =>
    rw [inside_cons, ih, insides]
    split_ifs with h
    · rw [List.mem_cons]
      refine or_congr_left ⟨?_, ?_⟩
      · rintro ⟨-, back, rfl, hnot⟩
        exact (takeWhile_append_cons hnot _).symm
      · rintro rfl
        obtain ⟨u, back, hsplit, hnot⟩ := List.eq_append_cons_of_mem h.2
        rw [hsplit, takeWhile_append_cons hnot]
        exact ⟨h.1, back, rfl, hnot⟩
    · refine ⟨fun hor => hor.resolve_left ?_, Or.inr⟩
      rintro ⟨hp, back, rfl, -⟩
      exact h ⟨hp, by simp⟩

instance (s rest : JsString) : Decidable (TagFree s rest) :=
  decidable_of_iff (∀ b ∈ s.tails, b ≠ [] → matchTag (b ++ rest) = none) <| by
    constructor
    · rintro h a b rfl hb
      exact h b ((List.mem_tails _ _).mpr (List.suffix_append a b)) hb
    · intro h b hb hne
      obtain ⟨a, rfl⟩ := (List.mem_tails _ _).mp hb
      exact h a b rfl hne

theorem quiet_cons {pieces : List Piece} {piece : Piece} : Quiet (piece :: pieces) ↔
    (∀ s, piece = .shown s → TagFree s (pieces.flatMap Piece.write)) ∧ Quiet pieces := by
  constructor
  · intro h
    exact ⟨fun s hs => h [] s pieces (by rw [hs]; rfl),
      fun front s back hsplit => h (piece :: front) s back (by rw [hsplit]; rfl)⟩
  · rintro ⟨hhead, htail⟩ front s back hsplit
    cases front with
    | nil =>
      obtain ⟨hs, rfl⟩ := List.cons.inj hsplit
      exact hhead s hs
    | cons x front => exact htail front s back (List.cons.inj hsplit).2

instance decidableQuiet : (pieces : List Piece) → Decidable (Quiet pieces)
  | [] => isTrue fun front s back h => by simp at h
  | piece :: pieces =>
    have : Decidable (∀ s, piece = .shown s → TagFree s (pieces.flatMap Piece.write)) :=
      match piece with
      | .shown s => decidable_of_iff (TagFree s (pieces.flatMap Piece.write)) (by simp)
      | .text _ => isTrue nofun
      | .opening _ => isTrue nofun
      | .closing _ => isTrue nofun
      | .br _ => isTrue nofun
    have := decidableQuiet pieces
    decidable_of_iff _ quiet_cons.symm

instance (s : JsString) : Decidable (EntityFree s) := inferInstanceAs (Decidable (∀ entity ∈ entities, _))

instance (pieces : List Piece) : Decidable (Readable pieces) :=
  decidable_of_iff ((∀ piece ∈ pieces, piece.marked = piece.content) ∧ Quiet pieces ∧
    ¬ js "&quot;" <:+: contentOf pieces ∧ ¬ js "&#39;" <:+: contentOf pieces)
    ⟨fun h => ⟨h.1, h.2.1, h.2.2.1, h.2.2.2⟩, fun h => ⟨h.marked, h.quiet, h.noQuot, h.noSharp⟩⟩

instance (inner : List Piece) : Decidable (Settled inner) :=
  decidable_of_iff (Readable inner ∧ EntityFree (contentOf inner) ∧ TagFree (contentOf inner) [])
    ⟨fun h => ⟨h.1, h.2.1, h.2.2⟩, fun h => ⟨h.readable, h.entityFree, h.tagFree⟩⟩

theorem forall_inside {pieces : List Piece} {tag : Tag} {good : List Piece → Prop}
    (h : ∀ inner ∈ insides tag pieces, good inner) : ∀ inner, Inside tag pieces inner → good inner :=
  fun inner hinside => h inner (inside_iff.mp hinside)

/-! ## Line breaks -/

mutual
/-- No text of the tree has a line break. -/
def Html.OneLine : Html → Prop
  | .text s => ∀ c ∈ s, isLineTerminator c = false
  | .br _ => True
  | .element _ children => OneLineAll children

def OneLineAll : List Html → Prop
  | [] => True
  | node :: nodes => node.OneLine ∧ OneLineAll nodes
end

mutual
/-- Every `sup` of the tree is without line breaks. -/
def Html.SupsOneLine : Html → Prop
  | .text _ => True
  | .br _ => True
  | .element tag children => (tag = .sup → OneLineAll children) ∧ SupsOneLineAll children

def SupsOneLineAll : List Html → Prop
  | [] => True
  | node :: nodes => node.SupsOneLine ∧ SupsOneLineAll nodes
end

variable {pieces inner : List Piece} {tag : Tag} {before after s : JsString}

/-! ## One kind of element -/

/-- The signs around a text that a step writes. -/
structure Signs (before after : JsString) : Prop where
  first : ∃ c, before.head? = some c ∧ c ∈ [10, 45, 94, 96]
  last : ∃ c, after.getLast? = some c ∧ c ∈ [10, 94, 96]
  plain : ∀ c ∈ before ++ after, c ∈ [10, 32, 45, 94, 96]

theorem Signs.leaf (h : Signs before after) (hentity : EntityFree s) (htag : TagFree s []) :
    Leaf (before ++ s ++ after) := by
  have hletters : ∀ c ∈ [10, 32, 45, 94, 96], ∀ entity ∈ entities, c ∉ entity := by decide
  have hbrackets : ∀ c ∈ [10, 32, 45, 94, 96], c ≠ 60 ∧ c ≠ 62 := by decide
  have hbefore (c : ℕ) (hc : c ∈ before) := h.plain c (List.mem_append_left _ hc)
  have hafter (c : ℕ) (hc : c ∈ after) := h.plain c (List.mem_append_right _ hc)
  rw [List.append_assoc]
  refine ⟨?_, ?_, ?_, ?_⟩
  · obtain ⟨c, hc, hmem⟩ := h.first
    obtain ⟨rest, rfl⟩ := List.head?_eq_some_iff.mp hc
    exact ⟨c, rfl, hmem⟩
  · obtain ⟨c, hc, hmem⟩ := h.last
    obtain ⟨rest, rfl⟩ := List.getLast?_eq_some_iff.mp hc
    exact ⟨c, by rw [← List.append_assoc, ← List.append_assoc, List.getLast?_concat], hmem⟩
  · exact hentity.around (fun c hc => hletters c (hbefore c hc)) (fun c hc => hletters c (hafter c hc))
  · exact htag.around (fun hm => (hbrackets 60 (hbefore 60 hm)).1 rfl) (fun hm => (hbrackets 62 (hafter 62 hm)).2 rfl)

theorem leaf_of_signs (hne : s ≠ []) (hsigns : ∀ c ∈ s, c ∈ [10, 94, 96]) : Leaf s := by
  have hletters : ∀ c ∈ [10, 94, 96], ∀ entity ∈ entities, c ∉ entity := by decide
  have hempty : EntityFree [] ∧ TagFree [] [] := by
    refine ⟨by unfold EntityFree; decide, fun u v hsplit hv => ?_⟩
    exact absurd (List.append_eq_nil_iff.mp hsplit.symm).2 hv
  have hentity := hempty.1.around (b := []) (fun c hc => hletters c (hsigns c hc)) nofun
  have htag := hempty.2.around (b := []) (fun hm => absurd (hsigns 60 hm) (by decide)) List.not_mem_nil
  rw [List.append_nil, List.append_nil] at hentity htag
  refine ⟨?_, ?_, hentity, htag⟩
  · obtain ⟨c, rest, rfl⟩ := List.exists_cons_of_ne_nil hne
    refine ⟨c, rfl, ?_⟩
    have hc := hsigns c List.mem_cons_self
    simp only [List.mem_cons, List.not_mem_nil, or_false] at hc ⊢
    omega
  · exact ⟨s.getLast hne, List.getLast?_eq_some_getLast hne, hsigns _ (List.getLast_mem hne)⟩

theorem Inside.leaves (h : Inside tag pieces inner) (hleaves : Leaves pieces) : Leaves inner := by
  obtain ⟨front, back, rfl, -⟩ := h
  intro s hs
  exact hleaves s (by simp [hs])

theorem markedOf_eq_contentOf (h : ∀ piece ∈ pieces, piece.marked = piece.content) : markedOf pieces = contentOf pieces :=
  List.flatMap_congr h

theorem nonSpace_markedOf (pieces : List Piece) :
    nonSpace (markedOf pieces) = pieces.flatMap fun piece => nonSpace piece.marked := List.filter_flatMap ..

section Elements
variable (before after : JsString) (tidy : JsString → JsString)

/-- **A step shows the contents of the elements**, when these are in order. -/
theorem rewrite_showContent (hleaves : Leaves pieces) (hsettled : ∀ inner, Inside tag pieces inner → Settled inner) :
    rewrite (matchBetween (Piece.opening tag).write (Piece.closing tag).write)
      (fun element =>
        before ++ tidy (stripTags (innerText (Piece.opening tag).write (Piece.closing tag).write element)) ++ after)
      (pieces.flatMap Piece.write) =
    (showContent tag before after tidy pieces).flatMap Piece.write := by
  have hfilter : (fun text => (matchBetween (Piece.opening tag).write (Piece.closing tag).write text).filter
      fun n => (fun _ => true) (text.take n)) = matchBetween (Piece.opening tag).write (Piece.closing tag).write := by
    funext text
    cases matchBetween (Piece.opening tag).write (Piece.closing tag).write text <;> rfl
  have hstep := rewrite_elements tag (fun _ => true)
    (fun element =>
      before ++ tidy (stripTags (innerText (Piece.opening tag).write (Piece.closing tag).write element)) ++ after)
    (fun inner => [.shown (before ++ tidy (contentOf inner) ++ after)]) hleaves (fun _ _ => rfl) ?_
  · rw [hfilter] at hstep
    exact hstep
  · intro inner hinside
    have hread := (hsettled inner hinside).readable
    rw [innerText_append, stripTags_pieces (hinside.leaves hleaves) hread.quiet hread.noQuot hread.noSharp,
      List.flatMap_singleton]
    rfl

theorem leaves_showContent (hleaves : Leaves pieces) (hsettled : ∀ inner, Inside tag pieces inner → Settled inner)
    (hsigns : Signs before after) (htidy : ∀ s, tidy s <:+: s) : Leaves (showContent tag before after tidy pieces) := by
  have hall : ∀ piece ∈ showContent tag before after tidy pieces, ∀ s, piece = .shown s → Leaf s := by
    refine forall_mem_rewrite sized_matchElement ?_ ?_
    · rintro piece hpiece s rfl
      exact hleaves s hpiece
    · intro a b hsuffix hmatch piece hpiece s hs
      obtain ⟨inner, ha, hnot⟩ := matchElement_eq_some hmatch
      have hinside := hsettled inner (inside_of_suffix hsuffix ha hnot)
      rw [List.mem_singleton, ha, inside_element] at hpiece
      rw [hpiece, Piece.shown.injEq] at hs
      rw [← hs]
      exact hsigns.leaf (hinside.entityFree.of_infix (htidy _)) (hinside.tagFree.of_infix (htidy _))
  exact fun s hs => hall _ hs s rfl

theorem nonSpace_showContent (hsettled : ∀ inner, Inside tag pieces inner → Settled inner)
    (htidy : ∀ s, nonSpace (tidy s) = nonSpace s)
    (hbefore : nonSpace before = nonSpace (Piece.opening tag).marked)
    (hafter : nonSpace after = nonSpace (Piece.closing tag).marked) :
    nonSpace (markedOf (showContent tag before after tidy pieces)) = nonSpace (markedOf pieces) := by
  rw [nonSpace_markedOf, nonSpace_markedOf]
  refine flatMap_rewrite sized_matchElement fun a b hsuffix hmatch => ?_
  obtain ⟨inner, rfl, hnot⟩ := matchElement_eq_some hmatch
  have hmarked := (hsettled inner (inside_of_suffix hsuffix rfl hnot)).readable.marked
  have hinner : inner.flatMap (fun piece => nonSpace piece.marked) = nonSpace (contentOf inner) := by
    rw [← nonSpace_markedOf, markedOf_eq_contentOf hmarked]
  rw [inside_element, List.flatMap_singleton, List.flatMap_cons, List.flatMap_append, List.flatMap_singleton, hinner]
  show nonSpace (before ++ tidy (contentOf inner) ++ after) = _
  rw [nonSpace_append, nonSpace_append, htidy, hbefore, hafter, List.append_assoc]

end Elements

/-! ## Trees -/

/-- A piece in one of two lists. -/
theorem append_eq_append_cons {a b front rest : List Piece} {piece : Piece} (h : a ++ b = front ++ piece :: rest) :
    (∃ rest', a = front ++ piece :: rest' ∧ rest = rest' ++ b) ∨
      ∃ front', front = a ++ front' ∧ b = front' ++ piece :: rest := by
  rcases List.append_eq_append_iff.mp h with ⟨front', rfl, hb⟩ | ⟨tail, rfl, htail⟩
  · exact Or.inr ⟨front', rfl, hb⟩
  · cases tail with
    | nil => exact Or.inr ⟨[], by simp, by simpa using htail.symm⟩
    | cons x tail =>
      rw [List.cons_append, List.cons.injEq] at htail
      obtain ⟨rfl, rfl⟩ := htail
      exact Or.inl ⟨tail, rfl, rfl⟩

mutual
theorem Html.shown_not_mem (node : Html) (s : JsString) : .shown s ∉ node.pieces := by
  cases node with
  | text s => simp [Html.pieces]
  | br form => simp [Html.pieces]
  | element tag children =>
    have hchildren := shown_not_mem_piecesOf children s
    simp [Html.pieces, hchildren]

theorem shown_not_mem_piecesOf (nodes : List Html) (s : JsString) : .shown s ∉ piecesOf nodes := by
  cases nodes with
  | nil => simp [piecesOf]
  | cons node nodes =>
    have hnode := Html.shown_not_mem node s
    have hnodes := shown_not_mem_piecesOf nodes s
    simp [piecesOf, hnode, hnodes]
end

mutual
theorem Html.markedOf_pieces (node : Html) : markedOf node.pieces = node.problemText := by
  cases node with
  | text s => exact List.append_nil s
  | br form => rfl
  | element tag children =>
    have hchildren : (piecesOf children).flatMap Piece.marked = problemTextOf children := markedOf_piecesOf children
    rw [markedOf, Html.pieces, Html.problemText, List.flatMap_cons, List.flatMap_append, hchildren,
      List.flatMap_singleton, List.append_assoc]

theorem markedOf_piecesOf (nodes : List Html) : markedOf (piecesOf nodes) = problemTextOf nodes := by
  cases nodes with
  | nil => rfl
  | cons node nodes =>
    have hnode : node.pieces.flatMap Piece.marked = node.problemText := Html.markedOf_pieces node
    have hnodes : (piecesOf nodes).flatMap Piece.marked = problemTextOf nodes := markedOf_piecesOf nodes
    rw [markedOf, piecesOf, problemTextOf, List.flatMap_append, hnode, hnodes]
end

mutual
/-- An opening tag is that of an element, which ends with its own closing tag. -/
theorem Html.exists_children (node : Html) {front rest : List Piece} (h : node.pieces = front ++ .opening tag :: rest)
    (hsups : node.SupsOneLine) :
    ∃ children back, rest = piecesOf children ++ .closing tag :: back ∧ (tag = .sup → OneLineAll children) := by
  cases node with
  | text s =>
    have hmem : Piece.opening tag ∈ (Html.text s).pieces := by
      rw [h]
      exact List.mem_append_right _ List.mem_cons_self
    simp [Html.pieces] at hmem
  | br form =>
    have hmem : Piece.opening tag ∈ (Html.br form).pieces := by
      rw [h]
      exact List.mem_append_right _ List.mem_cons_self
    simp [Html.pieces] at hmem
  | element t children =>
    rw [Html.pieces] at h
    rw [Html.SupsOneLine] at hsups
    cases front with
    | nil =>
      rw [List.nil_append, List.cons.injEq, Piece.opening.injEq] at h
      obtain ⟨rfl, rfl⟩ := h
      exact ⟨children, [], rfl, hsups.1⟩
    | cons piece front =>
      rw [List.cons_append, List.cons.injEq] at h
      rcases append_eq_append_cons h.2 with ⟨rest', hinside, rfl⟩ | ⟨front', -, hlast⟩
      · obtain ⟨inner, back, rfl, hline⟩ := exists_children_piecesOf children hinside hsups.2
        exact ⟨inner, back ++ [.closing t], by simp, hline⟩
      · have hmem : Piece.opening tag ∈ [Piece.closing t] := by
          rw [hlast]
          exact List.mem_append_right _ List.mem_cons_self
        simp at hmem

theorem exists_children_piecesOf (nodes : List Html) {front rest : List Piece}
    (h : piecesOf nodes = front ++ .opening tag :: rest) (hsups : SupsOneLineAll nodes) :
    ∃ children back, rest = piecesOf children ++ .closing tag :: back ∧ (tag = .sup → OneLineAll children) := by
  cases nodes with
  | nil => simp [piecesOf] at h
  | cons node nodes =>
    rw [piecesOf] at h
    rw [SupsOneLineAll] at hsups
    rcases append_eq_append_cons h with ⟨rest', hnode, rfl⟩ | ⟨front', -, hnodes⟩
    · obtain ⟨children, back, rfl, hline⟩ := Html.exists_children node hnode hsups.1
      exact ⟨children, back ++ piecesOf nodes, by simp, hline⟩
    · exact exists_children_piecesOf nodes hnodes hsups.2
end

theorem escapeHtml_oneLine {c : ℕ} (hc : isLineTerminator c = true) (hm : c ∈ escapeHtml s) : c ∈ s := by
  unfold escapeHtml escapeSome at hm
  obtain ⟨x, hx, hunit⟩ := List.mem_flatMap.mp hm
  unfold escapeUnit at hunit
  split at hunit
  · rename_i name hname
    rw [if_pos rfl] at hunit
    have hplain : ∀ y ∈ 38 :: name, isLineTerminator y = false := by
      unfold entityName at hname
      split at hname <;> cases hname <;> decide
    rw [hplain c hunit] at hc
    cases hc
  · obtain rfl := List.mem_singleton.mp hunit
    exact hx

theorem Piece.label_oneLine {piece : Piece} (h : piece.isTag = true) : ∀ c ∈ piece.write, isLineTerminator c = false := by
  cases piece with
  | text s => cases h
  | shown s => cases h
  | opening tag => cases tag <;> decide
  | closing tag => cases tag <;> decide
  | br form => cases form <;> decide

mutual
theorem Html.write_oneLine (node : Html) (h : node.OneLine) :
    ∀ piece ∈ node.pieces, ∀ c ∈ piece.write, isLineTerminator c = false := by
  cases node with
  | text s =>
    rw [Html.OneLine] at h
    intro piece hpiece c hc
    obtain rfl := List.mem_singleton.mp hpiece
    by_contra hline
    rw [Bool.not_eq_false] at hline
    have hfalse := h c (escapeHtml_oneLine hline hc)
    rw [hline] at hfalse
    cases hfalse
  | br form =>
    intro piece hpiece
    obtain rfl := List.mem_singleton.mp hpiece
    exact Piece.label_oneLine rfl
  | element tag children =>
    rw [Html.OneLine] at h
    intro piece hpiece
    rw [Html.pieces, List.mem_cons, List.mem_append, List.mem_singleton] at hpiece
    rcases hpiece with rfl | hpiece | rfl
    · exact Piece.label_oneLine rfl
    · exact write_oneLine_piecesOf children h piece hpiece
    · exact Piece.label_oneLine rfl

theorem write_oneLine_piecesOf (nodes : List Html) (h : OneLineAll nodes) :
    ∀ piece ∈ piecesOf nodes, ∀ c ∈ piece.write, isLineTerminator c = false := by
  cases nodes with
  | nil => exact fun piece hpiece => absurd hpiece List.not_mem_nil
  | cons node nodes =>
    rw [OneLineAll] at h
    intro piece hpiece
    rw [piecesOf, List.mem_append] at hpiece
    rcases hpiece with hpiece | hpiece
    · exact Html.write_oneLine node h.1 piece hpiece
    · exact write_oneLine_piecesOf nodes h.2 piece hpiece
end

/-- No line break between an opening `<sup>` and the next closing one. -/
theorem sup_oneLine {nodes : List Html} (hsups : SupsOneLineAll nodes) (h : Inside .sup (piecesOf nodes) inner) :
    ∀ piece ∈ inner, ∀ c ∈ piece.write, isLineTerminator c = false := by
  obtain ⟨front, back, hsplit, hnot⟩ := h
  obtain ⟨children, rest, hrest, hline⟩ := exists_children_piecesOf nodes hsplit hsups
  have hinner : ∃ tail, piecesOf children = inner ++ tail := by
    rcases append_eq_append_cons hrest with ⟨tail, hinner, -⟩ | ⟨tail, htail, -⟩
    · exact absurd (by rw [hinner]; simp) hnot
    · exact ⟨tail, htail⟩
  obtain ⟨tail, htail⟩ := hinner
  intro piece hpiece
  refine write_oneLine_piecesOf children (hline rfl) piece ?_
  rw [htail]
  exact List.mem_append_left _ hpiece

/-! ## All steps -/

theorem rewrite_markSups (hleaves : Leaves pieces)
    (hline : ∀ inner, Inside .sup pieces inner → ∀ piece ∈ inner, ∀ c ∈ piece.write, isLineTerminator c = false) :
    rewrite matchSup (fun element => js "^" ++ innerText (js "<sup>") (js "</sup>") element)
      (pieces.flatMap Piece.write) = (markSups pieces).flatMap Piece.write := by
  have hopening : js "<sup>" = (Piece.opening .sup).write := by decide
  have hclosing : js "</sup>" = (Piece.closing .sup).write := by decide
  unfold matchSup
  rw [hopening, hclosing]
  refine rewrite_elements .sup
    (fun element => !(innerText (Piece.opening .sup).write (Piece.closing .sup).write element).any isLineTerminator) _
    (fun inner => .shown (js "^") :: inner) hleaves ?_ ?_
  · intro inner hinside
    rw [innerText_append, Bool.not_eq_true', List.any_eq_false]
    intro c hc
    obtain ⟨piece, hpiece, hmem⟩ := List.mem_flatMap.mp hc
    rw [hline inner hinside piece hpiece c hmem]
    exact Bool.false_ne_true
  · intro inner hinside
    rw [innerText_append, List.flatMap_cons]
    rfl

theorem leaves_markSups (hleaves : Leaves pieces) : Leaves (markSups pieces) := by
  have hall : ∀ piece ∈ markSups pieces, ∀ s, piece = .shown s → Leaf s := by
    refine forall_mem_rewrite sized_matchElement ?_ ?_
    · rintro piece hpiece s rfl
      exact hleaves s hpiece
    · intro a b hsuffix hmatch piece hpiece s hs
      obtain ⟨inner, ha, hnot⟩ := matchElement_eq_some hmatch
      have hinside := inside_of_suffix hsuffix ha hnot
      rw [ha, inside_element, List.mem_cons] at hpiece
      rcases hpiece with rfl | hpiece
      · rw [Piece.shown.injEq] at hs
        rw [← hs]
        exact leaf_of_signs (by decide) (by decide)
      · rw [hs] at hpiece
        exact hinside.leaves hleaves s hpiece
  exact fun s hs => hall _ hs s rfl

theorem markedOf_markSups (pieces : List Piece) : markedOf (markSups pieces) = markedOf pieces := by
  refine flatMap_rewrite sized_matchElement fun a b _ hmatch => ?_
  obtain ⟨inner, rfl, -⟩ := matchElement_eq_some hmatch
  rw [inside_element, List.flatMap_cons, List.flatMap_cons, List.flatMap_append, List.flatMap_singleton]
  exact congrArg (js "^" ++ ·) (List.append_nil _).symm

theorem leaves_matchPiece (kind : Piece → Bool) {signs : JsString} (hsigns : Leaf signs) (hleaves : Leaves pieces) :
    Leaves (rewrite (matchPiece kind) (fun _ => [.shown signs]) pieces) := by
  intro s hs
  rw [rewrite_matchPiece, List.mem_flatMap] at hs
  obtain ⟨piece, hpiece, hmem⟩ := hs
  split_ifs at hmem
  · rw [List.mem_singleton, Piece.shown.injEq] at hmem
    rw [hmem]
    exact hsigns
  · rw [List.mem_singleton] at hmem
    rw [← hmem] at hpiece
    exact hleaves s hpiece

theorem nonSpace_matchPiece {kind : Piece → Bool} {signs : JsString} (hsigns : AllSpace signs)
    (hkind : ∀ piece, kind piece = true → piece.marked = []) (pieces : List Piece) :
    nonSpace (markedOf (rewrite (matchPiece kind) (fun _ => [.shown signs]) pieces)) = nonSpace (markedOf pieces) := by
  rw [nonSpace_markedOf, nonSpace_markedOf]
  refine flatMap_rewrite sized_matchPiece fun a b _ hmatch => ?_
  obtain ⟨piece, rfl, hpiece⟩ := matchPiece_eq_some hmatch
  rw [List.flatMap_singleton, List.flatMap_singleton, hkind piece hpiece]
  exact nonSpace_of_allSpace hsigns

theorem signs_code : Signs (js "`") (js "`") := by
  refine ⟨⟨96, rfl, by decide⟩, ⟨96, rfl, by decide⟩, by decide⟩

theorem signs_pre : Signs [10, 10] [10, 10] := by
  refine ⟨⟨10, rfl, by decide⟩, ⟨10, rfl, by decide⟩, by decide⟩

theorem signs_li : Signs (js "- ") [10] := by
  refine ⟨⟨45, rfl, by decide⟩, ⟨10, rfl, by decide⟩, by decide⟩

theorem jsTrim_infix (s : JsString) : jsTrim s <:+: s := by
  obtain ⟨a, b, -, -, hs⟩ := exists_jsTrim s
  exact ⟨a, b, by rw [List.append_assoc, ← hs]⟩

theorem rewrite_quoteCodes (hleaves : Leaves pieces) (h : ∀ inner, Inside .code pieces inner → Settled inner) :
    rewrite (matchBetween (js "<code>") (js "</code>"))
      (fun element => js "`" ++ stripTags (innerText (js "<code>") (js "</code>") element) ++ js "`")
      (pieces.flatMap Piece.write) = (quoteCodes pieces).flatMap Piece.write := by
  have hopening : js "<code>" = (Piece.opening .code).write := by decide
  have hclosing : js "</code>" = (Piece.closing .code).write := by decide
  have hstep := rewrite_showContent (js "`") (js "`") id hleaves h
  simp only [id_eq] at hstep
  rw [hopening, hclosing]
  exact hstep

theorem rewrite_setBlocks (hleaves : Leaves pieces) (h : ∀ inner, Inside .pre pieces inner → Settled inner) :
    rewrite (matchBetween (js "<pre>") (js "</pre>"))
      (fun element => [10, 10] ++ jsTrim (stripTags (innerText (js "<pre>") (js "</pre>") element)) ++ [10, 10])
      (pieces.flatMap Piece.write) = (setBlocks pieces).flatMap Piece.write := by
  have hopening : js "<pre>" = (Piece.opening .pre).write := by decide
  have hclosing : js "</pre>" = (Piece.closing .pre).write := by decide
  rw [hopening, hclosing]
  exact rewrite_showContent [10, 10] [10, 10] jsTrim hleaves h

theorem rewrite_listItems (hleaves : Leaves pieces) (h : ∀ inner, Inside .li pieces inner → Settled inner) :
    rewrite (matchBetween (js "<li>") (js "</li>"))
      (fun element => js "- " ++ jsTrim (stripTags (innerText (js "<li>") (js "</li>") element)) ++ [10])
      (pieces.flatMap Piece.write) = (listItems pieces).flatMap Piece.write := by
  have hopening : js "<li>" = (Piece.opening .li).write := by decide
  have hclosing : js "</li>" = (Piece.closing .li).write := by decide
  rw [hopening, hclosing]
  exact rewrite_showContent (js "- ") [10] jsTrim hleaves h

/-- The marks and texts that the steps write are those they are to write. -/
theorem nonSpace_steps (h : Convertible pieces) :
    nonSpace (markedOf (breakLines (endParagraphs (listItems (setBlocks (quoteCodes (markSups pieces))))))) =
      nonSpace (markedOf pieces) := by
  have hsup : nonSpace (markedOf (markSups pieces)) = nonSpace (markedOf pieces) := by rw [markedOf_markSups]
  have hcodes : nonSpace (markedOf (quoteCodes (markSups pieces))) = nonSpace (markedOf (markSups pieces)) :=
    nonSpace_showContent _ _ _ h.codes (fun _ => rfl) (by decide) (by decide)
  have hblocks := nonSpace_showContent [10, 10] [10, 10] _ h.blocks nonSpace_jsTrim (by decide) (by decide)
  have hitems := nonSpace_showContent (js "- ") [10] _ h.items nonSpace_jsTrim (by decide) (by decide)
  have hparagraphs (pieces : List Piece) : nonSpace (markedOf (endParagraphs pieces)) = nonSpace (markedOf pieces) := by
    refine nonSpace_matchPiece (by unfold AllSpace; decide) (fun piece hkind => ?_) pieces
    obtain rfl := of_decide_eq_true hkind
    rfl
  have hbreaks (pieces : List Piece) : nonSpace (markedOf (breakLines pieces)) = nonSpace (markedOf pieces) := by
    refine nonSpace_matchPiece (by unfold AllSpace; decide) (fun piece hkind => ?_) pieces
    split at hkind
    · rfl
    · cases hkind
  rw [hbreaks, hparagraphs]
  exact hitems.trans (hblocks.trans (hcodes.trans hsup))

/-- **Problem texts come through.** What is not white space in the text of a problem is, in order, that of its tree
with the marks, when the tree is `Convertible`. -/
theorem problem_text_survives (nodes : List Html) (hsups : SupsOneLineAll nodes)
    (h : Convertible (piecesOf nodes)) :
    nonSpace (htmlToProblemText (htmlOf nodes)) = nonSpace (problemTextOf nodes) := by
  have hid (s : JsString) : id s <:+: s := List.infix_refl s
  have hleaves : Leaves (piecesOf nodes) := fun s hs => absurd hs (shown_not_mem_piecesOf nodes s)
  have hsup := leaves_markSups hleaves
  have hcodes : Leaves (quoteCodes (markSups (piecesOf nodes))) :=
    leaves_showContent _ _ _ hsup h.codes signs_code hid
  have hblocks : Leaves (setBlocks (quoteCodes (markSups (piecesOf nodes)))) :=
    leaves_showContent _ _ _ hcodes h.blocks signs_pre jsTrim_infix
  have hitems : Leaves (listItems (setBlocks (quoteCodes (markSups (piecesOf nodes))))) :=
    leaves_showContent _ _ _ hblocks h.items signs_li jsTrim_infix
  have hparagraphs : Leaves (endParagraphs (listItems (setBlocks (quoteCodes (markSups (piecesOf nodes)))))) :=
    leaves_matchPiece _ (leaf_of_signs (by decide) (by decide)) hitems
  have hbreaks : Leaves (breakLines (endParagraphs (listItems (setBlocks (quoteCodes (markSups (piecesOf nodes))))))) :=
    leaves_matchPiece _ (leaf_of_signs (by decide) (by decide)) hparagraphs
  have hstripped := stripTags_pieces hbreaks h.rest.quiet h.rest.noQuot h.rest.noSharp
  unfold htmlToProblemText
  dsimp only
  rw [htmlOf, rewrite_markSups hleaves fun inner hinside => sup_oneLine hsups hinside, rewrite_quoteCodes hsup h.codes,
    rewrite_setBlocks hcodes h.blocks, rewrite_listItems hblocks h.items, rewrite_endParagraphs hitems,
    rewrite_breakLines hparagraphs h.rest.quiet, nonSpace_decode_jsTrim,
    nonSpace_decode_rewrite sized_matchBlankLines (fun _ _ => matchBlankLines_allSpace) (by unfold AllSpace; decide)
      (List.cons_ne_nil _ _),
    nonSpace_decode_rewrite sized_matchBlankEnd (fun _ _ => matchBlankEnd_allSpace) (by unfold AllSpace; decide)
      (List.cons_ne_nil _ _)]
  have hread : decodeHtmlEntities (removeTags ((breakLines (endParagraphs (listItems (setBlocks (quoteCodes
      (markSups (piecesOf nodes))))))).flatMap Piece.write)) = _ := hstripped
  rw [hread, ← markedOf_eq_contentOf h.rest.marked, nonSpace_steps h, markedOf_piecesOf]

/-- `<p>2<sup>n</sup> <code>a&lt;b</code></p>` -/
theorem problem_text_survives_example :
    nonSpace (htmlToProblemText (htmlOf [.element .p [.text (js "2"), .element .sup [.text (js "n")], .text (js " "),
      .element .code [.text (js "a<b")]]])) = nonSpace (js "2^n `a<b`") := by
  refine problem_text_survives _ ?_ ⟨?_, ?_, ?_, ?_⟩
  · have hline : ∀ c ∈ js "n", isLineTerminator c = false := by decide
    simpa [SupsOneLineAll, Html.SupsOneLine, OneLineAll, Html.OneLine] using hline
  · exact forall_inside (by decide)
  · exact forall_inside (by decide)
  · exact forall_inside (by decide)
  · decide

/-- `<p><code>a&lt;b</code></p><p>c</p>`: what stands between the decoded `<` and the end of the next `<p>` is gone. -/
theorem decoded_bracket_cuts : ¬ ∀ nodes : List Html, SupsOneLineAll nodes →
    nonSpace (htmlToProblemText (htmlOf nodes)) = nonSpace (problemTextOf nodes) := by
  intro h
  have hcut := h [.element .p [.element .code [.text (js "a<b")]], .element .p [.text (js "c")]]
    (by simp [SupsOneLineAll, Html.SupsOneLine])
  revert hcut
  decide +kernel

end CodeShare
