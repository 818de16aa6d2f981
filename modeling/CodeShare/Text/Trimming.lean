import CodeShare.Text.JsString

/-! # Trimming

What `trim` leaves of a text that is framed: it starts and ends with something that is no white space.
-/

namespace CodeShare
set_option autoImplicit false

/-- The text starts and ends with something that is no white space. -/
structure Framed (text : JsString) : Prop where
  first : ∃ c, text.head? = some c ∧ isRegexSpace c = false
  last : ∃ c, text.getLast? = some c ∧ isRegexSpace c = false

variable {text a b : JsString}

theorem rdropWhile_append (h : ∃ c, a.getLast? = some c ∧ isRegexSpace c = false) (b : JsString) :
    (a ++ b).rdropWhile isRegexSpace = a ++ b.rdropWhile isRegexSpace := by
  obtain ⟨c, hlast, hc⟩ := h
  obtain ⟨init, rfl⟩ := List.getLast?_eq_some_iff.mp hlast
  have hstays : (init ++ [c]).reverse.dropWhile isRegexSpace = (init ++ [c]).reverse := by
    rw [List.reverse_append, List.reverse_singleton, List.singleton_append,
      List.dropWhile_cons_of_neg (by rw [hc]; exact Bool.false_ne_true)]
  unfold List.rdropWhile
  rw [List.reverse_append, List.dropWhile_append, hstays]
  split_ifs with hempty
  · rw [List.isEmpty_iff] at hempty
    rw [hempty, List.reverse_reverse, List.reverse_nil, List.append_nil]
  · rw [List.reverse_append, List.reverse_reverse]

theorem jsTrim_append_framed (h : Framed a) (b : JsString) : jsTrim (a ++ b) = a ++ b.rdropWhile isRegexSpace := by
  obtain ⟨c, hfirst, hc⟩ := h.first
  obtain ⟨rest, rfl⟩ := List.head?_eq_some_iff.mp hfirst
  have hdrop : (c :: rest ++ b).dropWhile isRegexSpace = c :: rest ++ b :=
    List.dropWhile_cons_of_neg (by rw [hc]; exact Bool.false_ne_true)
  show ((c :: rest ++ b).dropWhile isRegexSpace).rdropWhile isRegexSpace = _
  rw [hdrop, rdropWhile_append h.last]

theorem jsTrim_spaces_append (ha : ∀ c ∈ a, isRegexSpace c = true) (b : JsString) : jsTrim (a ++ b) = jsTrim b := by
  unfold jsTrim
  rw [List.dropWhile_append_of_pos ha]

theorem Framed.jsTrim (h : Framed text) : jsTrim text = text := by
  have htrim := jsTrim_append_framed h []
  rwa [List.append_nil, List.rdropWhile_nil, List.append_nil] at htrim

/-- White space around a text. -/
theorem Framed.jsTrim_around (h : Framed text) (ha : ∀ c ∈ a, isRegexSpace c = true)
    (hb : ∀ c ∈ b, isRegexSpace c = true) : CodeShare.jsTrim (a ++ (text ++ b)) = text := by
  rw [jsTrim_spaces_append ha, jsTrim_append_framed h, List.rdropWhile_eq_nil_iff.mpr hb, List.append_nil]

theorem framed_iff : Framed text ↔ text ≠ [] ∧ jsTrim text = text := by
  refine ⟨fun h => ⟨?_, h.jsTrim⟩, ?_⟩
  · obtain ⟨c, hfirst, -⟩ := h.first
    rintro rfl
    cases hfirst
  · rintro ⟨hne, htrim⟩
    have hfront : (text.dropWhile isRegexSpace).length = text.length := by
      have hle := (List.dropWhile_suffix (l := text) isRegexSpace).length_le
      have hback : (jsTrim text).length ≤ (text.dropWhile isRegexSpace).length :=
        (List.rdropWhile_prefix isRegexSpace (text.dropWhile isRegexSpace)).length_le
      rw [htrim] at hback
      omega
    have hdrop : text.dropWhile isRegexSpace = text :=
      (List.dropWhile_suffix isRegexSpace).eq_of_length hfront
    have hrdrop : text.rdropWhile isRegexSpace = text := by
      have hunfold : jsTrim text = (text.dropWhile isRegexSpace).rdropWhile isRegexSpace := rfl
      rw [hdrop, htrim] at hunfold
      exact hunfold.symm
    refine ⟨?_, ?_⟩
    · cases text with
      | nil => exact absurd rfl hne
      | cons c rest =>
        refine ⟨c, rfl, ?_⟩
        have hnot := List.dropWhile_eq_self_iff.mp hdrop (Nat.succ_pos _)
        simpa using hnot
    · refine ⟨text.getLast hne, List.getLast?_eq_some_getLast hne, ?_⟩
      have hnot := List.rdropWhile_eq_self_iff.mp hrdrop hne
      simpa using hnot

end CodeShare
