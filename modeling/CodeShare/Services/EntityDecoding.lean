import CodeShare.Services.HtmlText
import CodeShare.Text.Replacement

/-! # Entities

`decodeHtmlEntities` replaces the entities one after another. On a text whose special characters are all written as
entities every step but the last two finds what belongs to it; `&quot;` and `&#39;` are replaced when the ampersands
of the text are already there.
-/

namespace CodeShare
open Rewriting
set_option autoImplicit false

/-- The entity of a special character, without its ampersand. -/
def entityName : ℕ → Option JsString
  | 38 => some (js "amp;")
  | 60 => some (js "lt;")
  | 62 => some (js "gt;")
  | 34 => some (js "quot;")
  | 39 => some (js "#39;")
  | _ => none

def escapeUnit (special : ℕ → Bool) (c : ℕ) : JsString :=
  match entityName c with
  | some name => if special c then 38 :: name else [c]
  | none => [c]

/-- Some of the special characters written as entities. -/
def escapeSome (special : ℕ → Bool) (text : JsString) : JsString := text.flatMap (escapeUnit special)

/-- A text in HTML. -/
def escapeHtml (text : JsString) : JsString := escapeSome (fun _ => true) text

/-- What is done to a text beyond decoding its entities. -/
def decodeQuotes (text : JsString) : JsString :=
  replaceAll (js "&#39;") (js "'") (replaceAll (js "&quot;") (js "\"") text)

variable {special : ℕ → Bool} {text a b : JsString} {c : ℕ}

theorem escapeSome_cons (c : ℕ) (text : JsString) :
    escapeSome special (c :: text) = escapeUnit special c ++ escapeSome special text := List.flatMap_cons

theorem escapeSome_append (a b : JsString) :
    escapeSome special (a ++ b) = escapeSome special a ++ escapeSome special b := List.flatMap_append

/-! ## One step -/

theorem entityName_eq {x : ℕ} {name : JsString} (h : entityName x = some name) :
    ∃ z q, name = z :: q ∧ 38 ∉ z :: q := by
  unfold entityName at h
  split at h <;> cases h <;> exact ⟨_, _, rfl, by decide⟩

/-- The entities have different first letters. -/
theorem entityName_inj {x y z : ℕ} {p q : JsString} (hx : entityName x = some (z :: p))
    (hy : entityName y = some (z :: q)) : x = y := by
  unfold entityName at hx hy
  split at hx <;> cases hx <;> split at hy <;> first | rfl | cases hy

/-- A unit that is another one's, or none's, is copied. -/
theorem replaceAll_escapeUnit {x y : ℕ} {p replacement : JsString} (hamp : x = 38 → special 38 = true)
    (hother : ∀ q, entityName x ≠ some (y :: q)) (b : JsString) :
    replaceAll (38 :: y :: p) replacement (escapeUnit special x ++ b) =
      escapeUnit special x ++ replaceAll (38 :: y :: p) replacement b := by
  unfold escapeUnit
  split
  · rename_i name hname
    split_ifs with hspecial
    · obtain ⟨z, q, rfl, hx⟩ := entityName_eq hname
      refine replaceAll_append_of_clash (fun heq => ?_) hx
      exact hother q (by rw [heq]; exact hname)
    · refine replaceAll_append_of_not_mem fun hm => hspecial ?_
      obtain rfl := List.mem_singleton.mp hm
      exact hamp rfl
  · rename_i hname
    refine replaceAll_append_of_not_mem fun hm => ?_
    obtain rfl := List.mem_singleton.mp hm
    cases hname

theorem replaceAll_nbsp (hamp : special 38 = true) (text : JsString) :
    replaceAll (js "&nbsp;") (js " ") (escapeSome special text) = escapeSome special text := by
  induction text with
  | nil => rfl
  | cons x text ih =>
    rw [escapeSome_cons]
    show replaceAll (38 :: 110 :: js "bsp;") _ _ = _
    rw [replaceAll_escapeUnit (fun _ => hamp)]
    · exact congrArg _ ih
    · intro q h
      unfold entityName at h
      split at h <;> cases h

/-- An entity is replaced where it stands for its character, when the ampersands are still entities. -/
theorem replaceAll_entity {name : JsString} (hname : entityName c = some name) (hc : special c = true)
    (hamp : special 38 = true) (text : JsString) :
    replaceAll (38 :: name) [c] (escapeSome special text) =
      escapeSome (fun x => special x && decide (x ≠ c)) text := by
  obtain ⟨y, p, rfl, -⟩ := entityName_eq hname
  induction text with
  | nil => rfl
  | cons x text ih =>
    rw [escapeSome_cons, escapeSome_cons]
    by_cases hx : x = c
    · subst hx
      have hunit : escapeUnit special x = 38 :: y :: p := by
        rw [escapeUnit, hname]
        exact if_pos hc
      have hunit' : escapeUnit (fun x' => special x' && decide (x' ≠ x)) x = [x] := by
        simp [escapeUnit, hname]
      rw [hunit, hunit', replaceAll_pattern (List.cons_ne_nil _ _), ih]
    · have hunit : escapeUnit (fun x => special x && decide (x ≠ c)) x = escapeUnit special x := by
        simp [escapeUnit, hx]
      rw [hunit, replaceAll_escapeUnit (fun _ => hamp), ih]
      exact fun q h => hx (entityName_inj h hname)

/-! ## Behind the ampersands -/

theorem prefix_of_escapeSome {p : JsString} (hp : 38 ∉ p) (h : p <+: escapeSome special text) : p <+: text := by
  induction text generalizing p with
  | nil => exact h
  | cons x text ih =>
    cases p with
    | nil => exact List.nil_prefix
    | cons c p =>
      rw [List.mem_cons, not_or] at hp
      rw [escapeSome_cons] at h
      unfold escapeUnit at h
      have hcopied : c :: p <+: [x] ++ escapeSome special text → c :: p <+: x :: text := by
        rw [List.singleton_append, List.cons_prefix_cons, List.cons_prefix_cons]
        exact And.imp_right (ih hp.2)
      split at h
      · split_ifs at h
        · rw [List.cons_append, List.cons_prefix_cons] at h
          exact absurd h.1.symm hp.1
        · exact hcopied h
      · exact hcopied h

/-- An entity behind the ampersands: the text's own ampersands may begin one. -/
theorem replaceAll_quote {name : JsString} (hname : entityName c = some name) (hc : special c = true)
    (hplain : ∀ x ∈ name, entityName x = none) (hamp : special 38 = false) (text : JsString) :
    replaceAll (38 :: name) [c] (escapeSome special text) =
      escapeSome (fun x => special x && decide (x ≠ c)) (replaceAll (38 :: name) [c] text) := by
  obtain ⟨y, p, rfl, hamp'⟩ := entityName_eq hname
  have hcne : c ≠ 38 := by
    rintro rfl
    rw [hc] at hamp
    cases hamp
  have hunit : escapeUnit special c = 38 :: y :: p := by
    rw [escapeUnit, hname]
    exact if_pos hc
  have hunit' : escapeUnit (fun x => special x && decide (x ≠ c)) c = [c] := by
    simp [escapeUnit, hname]
  have hcopy : escapeSome special (38 :: y :: p) = 38 :: y :: p := by
    have hall : ∀ q : JsString, (∀ x ∈ q, entityName x = none) → escapeSome special q = q := by
      intro q hq
      induction q with
      | nil => rfl
      | cons x q ih =>
        rw [List.forall_mem_cons] at hq
        rw [escapeSome_cons, ih hq.2, escapeUnit, hq.1]
        rfl
    rw [escapeSome_cons, hall _ hplain]
    simp [escapeUnit, entityName, hamp]
  induction text using replaceAll_induction (List.cons_ne_nil 38 (y :: p)) with
  | nil => rfl
  | found text ih =>
    rw [escapeSome_append, hcopy, replaceAll_pattern (List.cons_ne_nil _ _),
      replaceAll_pattern (List.cons_ne_nil _ _), ih, List.singleton_append, List.singleton_append, escapeSome_cons,
      hunit']
    rfl
  | copied x text hnot ih =>
    rw [replaceAll_cons hnot, escapeSome_cons, escapeSome_cons, ← ih]
    by_cases hx : x = c
    · subst hx
      rw [hunit, hunit', replaceAll_pattern (List.cons_ne_nil _ _)]
    · have hsame : escapeUnit (fun x => special x && decide (x ≠ c)) x = escapeUnit special x := by
        simp [escapeUnit, hx]
      rw [hsame]
      by_cases h38 : x = 38
      · subst h38
        have hself : escapeUnit special 38 = [38] := by simp [escapeUnit, entityName, hamp]
        rw [hself, List.singleton_append, replaceAll_cons]
        · rfl
        · rw [List.cons_prefix_cons]
          rintro ⟨-, hp⟩
          exact hnot (List.cons_prefix_cons.mpr ⟨rfl, prefix_of_escapeSome hamp' hp⟩)
      · exact replaceAll_escapeUnit (fun h => absurd h h38) (fun q h => hx (entityName_inj h hname)) _

/-! ## All steps -/

theorem escapeSome_eq_self (h : ∀ x, special x = true → entityName x = none) (text : JsString) :
    escapeSome special text = text := by
  induction text with
  | nil => rfl
  | cons x text ih =>
    rw [escapeSome_cons, ih]
    unfold escapeUnit
    split
    · rename_i name hname
      rw [if_neg fun hx => by rw [h x hx] at hname; cases hname]
      rfl
    · rfl

/-- **Decoding an escaped text** gives the text back, but for what the last two steps find in it. -/
theorem decodeHtmlEntities_escapeHtml (text : JsString) :
    decodeHtmlEntities (escapeHtml text) = decodeQuotes text := by
  unfold decodeHtmlEntities escapeHtml
  rw [replaceAll_nbsp rfl]
  show replaceAll (38 :: js "#39;") [39] (replaceAll (38 :: js "quot;") [34] (replaceAll (38 :: js "amp;") [38]
    (replaceAll (38 :: js "gt;") [62] (replaceAll (38 :: js "lt;") [60] (escapeSome (fun _ => true) text))))) = _
  rw [replaceAll_entity (c := 60) ?_ ?_ ?_, replaceAll_entity (c := 62) ?_ ?_ ?_, replaceAll_entity (c := 38) ?_ ?_ ?_,
    replaceAll_quote (c := 34) ?_ ?_ ?_ ?_, replaceAll_quote (c := 39) ?_ ?_ ?_ ?_, escapeSome_eq_self ?_]
  · rfl
  · intro x hx
    unfold entityName
    split <;> first | rfl | cases hx
  all_goals first | rfl | decide

/-- An escaped text is read as itself exactly when none of its own words is the entity of a quote. -/
theorem decodeQuotes_eq_self_iff (text : JsString) :
    decodeQuotes text = text ↔ ¬ js "&quot;" <:+: text ∧ ¬ js "&#39;" <:+: text := by
  unfold decodeQuotes
  constructor
  · intro h
    have hquot : ¬ js "&quot;" <:+: text := by
      intro hcontained
      have hlt : (replaceAll (js "&quot;") (js "\"") text).length < text.length :=
        length_replaceAll_lt (by decide) hcontained
      have hle : (replaceAll (js "&#39;") (js "'") (replaceAll (js "&quot;") (js "\"") text)).length ≤
          (replaceAll (js "&quot;") (js "\"") text).length := length_replaceAll_le (by decide) (by decide) _
      rw [h] at hle
      exact absurd hlt (Nat.not_lt.mpr hle)
    rw [replaceAll_of_lacks hquot] at h
    exact ⟨hquot, (replaceAll_eq_self_iff (by decide)).mp h⟩
  · rintro ⟨hquot, hsharp⟩
    rw [replaceAll_of_lacks hquot, replaceAll_of_lacks hsharp]

/-! ## Tags -/

theorem matchTag_of_not_mem (h : 60 ∉ a) (ha : a ≠ []) (b : JsString) : matchTag (a ++ b) = none := by
  cases a with
  | nil => exact absurd rfl ha
  | cons c a =>
    have hc : c ≠ 60 := by
      rintro rfl
      exact h List.mem_cons_self
    unfold matchTag
    split
    · rename_i heq
      exact absurd (List.cons.inj heq).1 hc
    · rfl

theorem matchTag_append {name : JsString} (hne : name ≠ []) (hname : 62 ∉ name) (b : JsString) :
    matchTag ((60 :: (name ++ [62])) ++ b) = some (60 :: (name ++ [62])).length := by
  have htake : (name ++ 62 :: b).takeWhile (· ≠ 62) = name := takeWhile_append_cons hname b
  have hsplit : (60 :: (name ++ [62])) ++ b = 60 :: (name ++ 62 :: b) := by simp
  rw [hsplit, matchTag, htake]
  simp [hne]

theorem removeTags_append (h : 60 ∉ a) (b : JsString) : removeTags (a ++ b) = a ++ removeTags b := by
  refine rewrite_append fun s t hsplit ht => matchTag_of_not_mem (fun hm => h ?_) ht b
  rw [hsplit]
  exact List.mem_append_right _ hm

theorem removeTags_tag {tag name : JsString} (htag : tag = 60 :: (name ++ [62])) (hne : name ≠ []) (hname : 62 ∉ name)
    (b : JsString) : removeTags (tag ++ b) = removeTags b := by
  subst htag
  rw [removeTags, rewrite_match (List.cons_ne_nil _ _) (matchTag_append hne hname b)]
  rfl

theorem innerText_append (opening inner closing : JsString) :
    innerText opening closing (opening ++ inner ++ closing) = inner := by
  have hlength : (opening ++ inner ++ closing).length - opening.length - closing.length = inner.length := by
    rw [List.length_append, List.length_append]
    omega
  rw [innerText, hlength, List.append_assoc, List.drop_left, List.take_left]

theorem escapeHtml_not_mem (hc : c = 60 ∨ c = 62) (text : JsString) : c ∉ escapeHtml text := by
  unfold escapeHtml escapeSome
  rw [List.mem_flatMap]
  rintro ⟨x, -, hx⟩
  unfold escapeUnit at hx
  split at hx
  · rename_i name hname
    rw [if_pos rfl] at hx
    unfold entityName at hname
    rcases hc with rfl | rfl <;> split at hname <;> cases hname <;> exact absurd hx (by decide)
  · rename_i hname
    obtain rfl := List.mem_singleton.mp hx
    rcases hc with rfl | rfl <;> cases hname

theorem escapeHtml_append (a b : JsString) : escapeHtml (a ++ b) = escapeHtml a ++ escapeHtml b := escapeSome_append a b

theorem escapeHtml_cons_of_plain (h : entityName c = none) (text : JsString) :
    escapeHtml (c :: text) = c :: escapeHtml text := by
  unfold escapeHtml
  rw [escapeSome_cons, escapeUnit, h]
  rfl

end CodeShare
