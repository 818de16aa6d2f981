import CodeShare.Services.PythonSource

/-! # Stripping comments

`stripCodeComments` finds triple quotes and `#` without telling comments, strings and code apart. It is right for texts
in which these never hide each other, and wrong for every text with a `#` in a string of one line.
-/

namespace CodeShare.HintService
open PythonSource Rewriting
set_option autoImplicit false

/-! ## Texts that fit -/

/-- What the regular expressions need of the place of a unit: a match in a comment is within it, and the comment ends
at a line feed; nothing matches in a string of one line; no escaped quote begins three quotes. -/
def unitFits : LexState → JsString → Bool
  | .comment, text =>
    text.head? ≠ some 13 && (matchDocstring text).all fun n => (text.take n).all fun c => !isLineEnd c
  | .line _ _, text => (matchDocstring text).isNone
  | .long quote true, text => ¬ tripleQuote quote <+: text
  | _, _ => true

/-- The units behind this one in a match within a comment. -/
def matchedBehind (state : LexState) (text : JsString) : ℕ :=
  match state with
  | .comment => (matchDocstring text).getD 1 - 1
  | _ => 0

/-- Every unit fits that is not part of a match already. -/
def fits : ℕ → LexState → JsString → Bool
  | _, _, [] => true
  | matched + 1, state, c :: rest => (lexUnit state c rest).all fun next => fits matched next.2 rest
  | 0, state, c :: rest =>
    unitFits state (c :: rest) &&
      (lexUnit state c rest).all fun next => fits (matchedBehind state (c :: rest)) next.2 rest

variable {c quote n : ℕ} {text rest kept a b : JsString}

/-! ## Line comments -/

/-- `removeLineComments` without the look behind. -/
def dropComments : Bool → JsString → JsString
  | _, [] => []
  | inComment, c :: rest =>
    if inComment ∧ c ≠ 10 then dropComments true rest
    else if c = 35 then dropComments true rest
    else c :: dropComments false rest

/-- There is no `#` before without a line feed behind it. -/
def NoOpenComment (before : JsString) : Prop := ∀ u t, before = u ++ 35 :: t → 10 ∈ u

/-- The look behind never applies: its own `#` has started a comment. -/
theorem removeLineComments_eq (before : JsString) (inComment : Bool)
    (h : inComment = false → NoOpenComment before) (text : JsString) :
    removeLineComments before inComment text = dropComments inComment text := by
  induction text generalizing before inComment with
  | nil => rfl
  | cons c rest ih =>
    unfold removeLineComments dropComments
    by_cases hcomment : inComment = true ∧ c ≠ 10
    · rw [if_pos hcomment, if_pos hcomment]
      exact ih _ _ (nofun)
    · rw [if_neg hcomment, if_neg hcomment]
      have hclosed : c ≠ 35 → NoOpenComment (c :: before) := by
        intro hc u t heq
        cases u with
        | nil => exact absurd (List.cons.inj heq).1 hc
        | cons d u =>
          obtain ⟨rfl, hbefore⟩ := List.cons.inj heq
          by_cases hten : c = 10
          · exact hten ▸ List.mem_cons_self
          · have hopen : inComment = false := by
              rw [not_and_not_right] at hcomment
              exact Bool.eq_false_iff.mpr fun htrue => hten (hcomment htrue)
            exact List.mem_cons_of_mem _ (h hopen u t hbefore)
      by_cases hhash : c = 35
      · have hopen : inComment = false := by
          rw [not_and_not_right] at hcomment
          refine Bool.eq_false_iff.mpr fun htrue => ?_
          have hten := hcomment htrue
          omega
        have hbehind : ¬ afterShebang before = true := by
          intro hshebang
          match before, hshebang with
          | 33 :: 35 :: t, _ =>
            have hten := h hopen [33] t rfl
            simp at hten
        rw [if_pos ⟨hhash, hbehind⟩, if_pos hhash]
        exact ih _ _ (nofun)
      · rw [if_neg fun h => hhash h.1, if_neg hhash, ih _ _ fun _ => hclosed hhash]

/-! ## Matches -/

theorem closeTriple_bounds (h : closeTriple (tripleQuote quote) text = some n) : 3 ≤ n ∧ n ≤ text.length := by
  induction text generalizing n with
  | nil => cases h
  | cons c rest ih =>
    rw [closeTriple] at h
    split_ifs at h with hprefix
    · obtain rfl := Option.some.inj h
      exact ⟨le_refl 3, hprefix.length_le⟩
    · obtain ⟨m, hm, rfl⟩ := Option.map_eq_some_iff.mp h
      obtain ⟨hlow, hhigh⟩ := ih hm
      rw [List.length_cons]
      omega

theorem matchTriple_bounds (h : matchTriple (tripleQuote quote) text = some n) : 0 < n ∧ n ≤ text.length := by
  unfold matchTriple at h
  split_ifs at h with hprefix
  obtain ⟨m, hm, rfl⟩ := Option.map_eq_some_iff.mp h
  obtain ⟨hlow, hhigh⟩ := closeTriple_bounds hm
  have hlength := hprefix.length_le
  rw [List.length_drop] at hhigh
  omega

theorem matchDocstring_eq (text : JsString) :
    matchDocstring text = (matchTriple (tripleQuote 34) text).or (matchTriple (tripleQuote 39) text) := rfl

theorem matchDocstring_bounds (h : matchDocstring text = some n) : 0 < n ∧ n ≤ text.length := by
  rw [matchDocstring_eq, Option.or_eq_some_iff] at h
  rcases h with h | ⟨-, h⟩
  · exact matchTriple_bounds h
  · exact matchTriple_bounds h

theorem matchTriple_eq_none (h : ¬ tripleQuote quote <+: text) : matchTriple (tripleQuote quote) text = none := if_neg h

theorem head_of_tripleQuote (h : tripleQuote quote <+: c :: rest) : c = quote := (List.cons_prefix_cons.mp h).1.symm

/-- Nothing matches where no three quotes are. -/
theorem matchDocstring_eq_none (h : isQuote c = true → ¬ tripleQuote c <+: c :: rest) :
    matchDocstring (c :: rest) = none := by
  have hnot : ∀ quote, isQuote quote = true → ¬ tripleQuote quote <+: c :: rest := by
    intro quote hquote hprefix
    obtain rfl := head_of_tripleQuote hprefix
    exact h hquote hprefix
  rw [matchDocstring_eq, matchTriple_eq_none (hnot 34 rfl), matchTriple_eq_none (hnot 39 rfl)]
  rfl

/-- Three quotes match up to the next three of them. -/
theorem matchDocstring_triple (hquote : isQuote quote = true) (text : JsString) :
    matchDocstring (tripleQuote quote ++ text) = (closeTriple (tripleQuote quote) text).map (3 + ·) := by
  have hself : ∀ q, matchTriple (tripleQuote q) (tripleQuote q ++ text) =
      (closeTriple (tripleQuote q) text).map (3 + ·) := by
    intro q
    unfold matchTriple
    rw [if_pos (List.prefix_append _ _), List.drop_left]
    rfl
  have hother : ∀ q, q ≠ quote → matchTriple (tripleQuote q) (tripleQuote quote ++ text) = none := by
    intro q hne
    refine matchTriple_eq_none fun hprefix => hne ?_
    have hhead : quote = q := head_of_tripleQuote hprefix
    exact hhead.symm
  rw [matchDocstring_eq]
  simp only [isQuote, Bool.or_eq_true, decide_eq_true_eq] at hquote
  rcases hquote with rfl | rfl
  · rw [hself, hother 39 (by decide), Option.or_none]
  · rw [hself, hother 34 (by decide), Option.none_or]

/-! ## Triple-quoted strings -/

/-- What the first pass leaves. -/
def withoutDocstrings (text : JsString) : JsString := rewrite matchDocstring (fun _ => []) text

theorem withoutDocstrings_copied (h : matchDocstring (c :: rest) = none) :
    withoutDocstrings (c :: rest) = c :: withoutDocstrings rest := rewrite_cons h

theorem withoutDocstrings_matched (ha : a ≠ []) (h : matchDocstring (a ++ b) = some a.length) :
    withoutDocstrings (a ++ b) = withoutDocstrings b := rewrite_match ha h

/-- A string between triple quotes ends at the first three quotes, as none of them is escaped. -/
theorem long_closes {escaped : Bool} (hquote : isQuote quote = true) (hfits : fits 0 (.long quote escaped) text = true)
    (hkept : keptUnits (.long quote escaped) text = some kept) :
    ∃ a b, text = a ++ b ∧ closeTriple (tripleQuote quote) text = some a.length ∧
      fits 0 .code b = true ∧ keptUnits .code b = some kept := by
  induction text generalizing escaped with
  | nil => cases hkept
  | cons c rest ih =>
    -- a unit of the string at which it does not close
    have hinside : ∀ {escaped'}, ¬ tripleQuote quote <+: c :: rest →
        lexUnit (.long quote escaped) c rest = some (false, .long quote escaped') →
        ∃ a b, c :: rest = a ++ b ∧ closeTriple (tripleQuote quote) (c :: rest) = some a.length ∧
          fits 0 .code b = true ∧ keptUnits .code b = some kept := by
      intro escaped' hnot hlex
      rw [fits, hlex, Bool.and_eq_true] at hfits
      rw [keptUnits_cons hlex] at hkept
      obtain ⟨a, b, rfl, hclose, hrest⟩ := ih hfits.2 (by simpa using hkept)
      refine ⟨c :: a, b, rfl, ?_, hrest⟩
      rw [closeTriple, if_neg hnot, hclose]
      rfl
    cases escaped with
    | true =>
      refine hinside ?_ rfl
      rw [fits, Bool.and_eq_true] at hfits
      simpa [unitFits] using hfits.1
    | false =>
      by_cases hslash : c = 92
      · refine hinside (fun hprefix => ?_) (show lexUnit (.long quote false) c rest = some (false, .long quote true) by
          rw [lexUnit, if_pos hslash])
        rw [← head_of_tripleQuote hprefix, hslash] at hquote
        cases hquote
      · by_cases hprefix : tripleQuote quote <+: c :: rest
        · have hlex : lexUnit (.long quote false) c rest = some (false, .closing false) := by
            rw [lexUnit, if_neg hslash, if_pos hprefix]
          have hclose : closeTriple (tripleQuote quote) (c :: rest) = some 3 := if_pos hprefix
          rw [fits, hlex, Bool.and_eq_true] at hfits
          rw [keptUnits_cons hlex] at hkept
          obtain ⟨b, hb⟩ := hprefix
          obtain rfl : rest = quote :: quote :: b := (List.cons.inj hb).2.symm
          refine ⟨[c, quote, quote], b, rfl, hclose, hfits.2, ?_⟩
          simpa [keptUnits, lexUnit] using hkept
        · exact hinside hprefix (by rw [lexUnit, if_neg hslash, if_neg hprefix])

/-! ## Both passes -/

/-- The unit does not stand in a string between triple quotes. -/
def isShort : LexState → Bool
  | .code | .comment | .line _ _ => true
  | _ => false

def isComment : LexState → Bool
  | .comment => true
  | _ => false

theorem dropComments_hash (text : JsString) : dropComments false (35 :: text) = dropComments true text := by
  simp [dropComments]

theorem dropComments_kept (hc : c ≠ 35) (text : JsString) :
    dropComments false (c :: text) = c :: dropComments false text := by
  simp [dropComments, hc]

theorem dropComments_dropped (hc : c ≠ 10) (text : JsString) :
    dropComments true (c :: text) = dropComments true text := by
  simp [dropComments, hc]

theorem dropComments_lineFeed (text : JsString) : dropComments true (10 :: text) = 10 :: dropComments false text := by
  simp [dropComments]

/-- A comment goes on up to the end of its line. -/
theorem comment_run (ha : ∀ c ∈ a, isLineEnd c = false) (b : JsString) :
    keptUnits .comment (a ++ b) = keptUnits .comment b ∧ fits a.length .comment (a ++ b) = fits 0 .comment b := by
  induction a with
  | nil => exact ⟨rfl, rfl⟩
  | cons c a ih =>
    obtain ⟨hc, ha⟩ := List.forall_mem_cons.mp ha
    obtain ⟨hkept, hfits⟩ := ih ha
    have hlex : lexUnit .comment c (a ++ b) = some (false, .comment) := by
      rw [lexUnit, if_neg (by rw [hc]; exact Bool.false_ne_true)]
    constructor
    · rw [List.cons_append, keptUnits_cons hlex, hkept]
      simp
    · rw [List.cons_append, List.length_cons, fits, hlex]
      exact hfits

/-- A string of one line keeps its units and is followed by code. -/
theorem lexUnit_line {escaped keep : Bool} {next : LexState}
    (h : lexUnit (.line quote escaped) c rest = some (keep, next)) :
    keep = true ∧ isShort next = true ∧ isComment next = false := by
  unfold lexUnit at h
  cases escaped with
  | true =>
    cases h
    exact ⟨rfl, rfl, rfl⟩
  | false =>
    dsimp only at h
    split_ifs at h <;> cases h <;> exact ⟨rfl, rfl, rfl⟩

/-- The first pass and the lexer skip the same string. -/
theorem skip_docstring (hquote : isQuote c = true) (htriple : tripleQuote c <+: c :: rest) (hhash : c ≠ 35)
    (hfits : fits 0 .code (c :: rest) = true) (hkept : keptUnits .code (c :: rest) = some kept) :
    ∃ b, b.length < (c :: rest).length ∧ withoutDocstrings (c :: rest) = withoutDocstrings b ∧
      fits 0 .code b = true ∧ keptUnits .code b = some kept := by
  have hlex : lexUnit .code c rest = some (false, .opening c false) := by
    rw [lexUnit, if_neg hhash, if_pos hquote, if_pos htriple]
  rw [fits, hlex, Bool.and_eq_true] at hfits
  rw [keptUnits_cons hlex] at hkept
  obtain ⟨text, htext⟩ := htriple
  obtain rfl : rest = c :: c :: text := (List.cons.inj htext).2.symm
  have hlong : keptUnits (.long c false) text = some kept := by simpa [keptUnits, lexUnit] using hkept
  obtain ⟨a, b, rfl, hclose, hrest⟩ := long_closes hquote hfits.2 hlong
  have hmatch : matchDocstring (tripleQuote c ++ a ++ b) = some (tripleQuote c ++ a).length := by
    rw [List.append_assoc, matchDocstring_triple hquote, hclose, List.length_append]
    rfl
  refine ⟨b, ?_, withoutDocstrings_matched (List.cons_ne_nil _ _) hmatch, hrest⟩
  simp only [List.length_cons, List.length_append]
  omega

/-- A match in a comment is a part of it. -/
theorem comment_match (hmatch : matchDocstring (c :: a ++ b) = some (c :: a).length)
    (hfits : fits 0 .comment (c :: a ++ b) = true) :
    keptUnits .comment (c :: a ++ b) = keptUnits .comment b ∧ fits 0 .comment b = true := by
  rw [List.cons_append, fits, Bool.and_eq_true] at hfits
  obtain ⟨hunit, hrest⟩ := hfits
  rw [List.cons_append] at hmatch
  have hline : ∀ d ∈ c :: a, isLineEnd d = false := by
    rw [unitFits, hmatch, Option.all_some, Bool.and_eq_true, ← List.cons_append, List.take_left,
      List.all_eq_true] at hunit
    intro d hd
    simpa using hunit.2 d hd
  have hlex : lexUnit .comment c (a ++ b) = some (false, .comment) := by
    rw [lexUnit, if_neg (by rw [hline c List.mem_cons_self]; exact Bool.false_ne_true)]
  rw [hlex, matchedBehind, hmatch] at hrest
  refine ⟨(comment_run hline b).1, ?_⟩
  rw [← (comment_run (fun d hd => hline d (List.mem_cons_of_mem c hd)) b).2]
  exact hrest

theorem skip_in_comment (hmatch : matchDocstring (c :: rest) = some n) (hfits : fits 0 .comment (c :: rest) = true)
    (hkept : keptUnits .comment (c :: rest) = some kept) :
    ∃ b, b.length < (c :: rest).length ∧ withoutDocstrings (c :: rest) = withoutDocstrings b ∧
      fits 0 .comment b = true ∧ keptUnits .comment b = some kept := by
  obtain ⟨hpos, hle⟩ := matchDocstring_bounds hmatch
  obtain ⟨n, rfl⟩ := Nat.exists_eq_succ_of_ne_zero hpos.ne'
  obtain ⟨a, b, rfl, rfl⟩ : ∃ a b, rest = a ++ b ∧ a.length = n :=
    ⟨_, _, (List.take_append_drop n rest).symm, List.length_take_of_le (Nat.le_of_succ_le_succ hle)⟩
  obtain ⟨hsame, hrest⟩ := comment_match hmatch hfits
  refine ⟨b, ?_, withoutDocstrings_matched (a := c :: a) (List.cons_ne_nil _ _) hmatch, hrest, hsame.symm.trans hkept⟩
  simp only [List.length_cons, List.length_append]
  omega

/-- Two passes over a text that fits leave what the lexer keeps. -/
def PassesExact (state : LexState) (text : JsString) : Prop :=
  ∀ kept : JsString, fits 0 state text = true → keptUnits state text = some kept → 35 ∉ kept →
    dropComments (isComment state) (withoutDocstrings text) = kept

/-- They do so for the texts that are shorter. -/
def PassesExactBelow (bound : ℕ) : Prop :=
  ∀ (state : LexState) (text : JsString), text.length < bound → isShort state = true → PassesExact state text

namespace PassesExactBelow

/-- A unit outside of comments that both passes leave alone. -/
theorem copied {state next : LexState} (ih : PassesExactBelow (c :: rest).length) (hcode : isComment state = false)
    (hnone : matchDocstring (c :: rest) = none) (hlex : lexUnit state c rest = some (true, next))
    (hshort : isShort next = true) (hcomment : isComment next = false) : PassesExact state (c :: rest) := by
  intro kept hfits hkept hhashes
  rw [fits, hlex, Bool.and_eq_true] at hfits
  rw [keptUnits_cons hlex] at hkept
  obtain ⟨units, hunits, rfl⟩ := Option.map_eq_some_iff.mp hkept
  obtain ⟨hhash, hhashes⟩ := not_or.mp (mt List.mem_cons.mpr hhashes)
  have hbehind : matchedBehind state (c :: rest) = 0 := by
    cases state with
    | comment => cases hcode
    | _ => rfl
  rw [hbehind] at hfits
  have hrest := ih next rest (Nat.lt_succ_self _) hshort units hfits.2 hunits hhashes
  rw [hcomment] at hrest
  rw [hcode, withoutDocstrings_copied hnone, dropComments_kept (Ne.symm hhash), hrest]
  rfl

/-- A `#` of the code starts a comment for both. -/
theorem hash (ih : PassesExactBelow (35 :: rest).length) : PassesExact .code (35 :: rest) := by
  intro kept hfits hkept hhashes
  have hlex : lexUnit .code 35 rest = some (false, .comment) := rfl
  rw [fits, hlex, Bool.and_eq_true] at hfits
  rw [keptUnits_cons hlex] at hkept
  have hrest := ih .comment rest (Nat.lt_succ_self _) rfl kept hfits.2 (by simpa using hkept) hhashes
  have hnone : matchDocstring (35 :: rest) = none := matchDocstring_eq_none nofun
  rw [withoutDocstrings_copied hnone]
  exact (dropComments_hash _).trans hrest

theorem code (ih : PassesExactBelow (c :: rest).length) : PassesExact .code (c :: rest) := by
  by_cases hhash : c = 35
  · subst hhash
    exact ih.hash
  · by_cases htriple : isQuote c = true ∧ tripleQuote c <+: c :: rest
    · intro kept hfits hkept hhashes
      obtain ⟨b, hlt, hsame, hfits, hkept⟩ := skip_docstring htriple.1 htriple.2 hhash hfits hkept
      rw [hsame]
      exact ih .code b hlt rfl kept hfits hkept hhashes
    · have hnone : matchDocstring (c :: rest) = none :=
        matchDocstring_eq_none fun hquote hprefix => htriple ⟨hquote, hprefix⟩
      by_cases hquote : isQuote c = true
      · have hlex : lexUnit .code c rest = some (true, .line c false) := by
          rw [lexUnit, if_neg hhash, if_pos hquote, if_neg fun hprefix => htriple ⟨hquote, hprefix⟩]
        exact ih.copied rfl hnone hlex rfl rfl
      · have hlex : lexUnit .code c rest = some (true, .code) := by
          rw [lexUnit, if_neg hhash, if_neg hquote]
        exact ih.copied rfl hnone hlex rfl rfl

theorem comment (ih : PassesExactBelow (c :: rest).length) : PassesExact .comment (c :: rest) := by
  intro kept hfits hkept hhashes
  cases hmatch : matchDocstring (c :: rest) with
  | some n =>
    obtain ⟨b, hlt, hsame, hfits, hkept⟩ := skip_in_comment hmatch hfits hkept
    rw [hsame]
    exact ih .comment b hlt rfl kept hfits hkept hhashes
  | none =>
    rw [fits, matchedBehind, hmatch, Bool.and_eq_true] at hfits
    rw [withoutDocstrings_copied hmatch]
    by_cases hten : c = 10
    · subst hten
      have hlex : lexUnit .comment 10 rest = some (true, .code) := rfl
      rw [hlex] at hfits
      rw [keptUnits_cons hlex] at hkept
      obtain ⟨units, hunits, rfl⟩ := Option.map_eq_some_iff.mp hkept
      have hrest := ih .code rest (Nat.lt_succ_self _) rfl units hfits.2 hunits
        fun h => hhashes (List.mem_cons_of_mem 10 h)
      exact (dropComments_lineFeed _).trans (congrArg (List.cons 10) hrest)
    · have hreturn : c ≠ 13 := by
        have hunit := hfits.1
        simp only [unitFits, Bool.and_eq_true] at hunit
        simpa using hunit.1
      have hend : isLineEnd c = false := by simp [isLineEnd, hten, hreturn]
      have hlex : lexUnit .comment c rest = some (false, .comment) := by
        rw [lexUnit, if_neg (by rw [hend]; exact Bool.false_ne_true)]
      rw [hlex] at hfits
      rw [keptUnits_cons hlex] at hkept
      have hrest := ih .comment rest (Nat.lt_succ_self _) rfl kept hfits.2 (by simpa using hkept) hhashes
      exact (dropComments_dropped hten _).trans hrest

theorem line {escaped : Bool} (ih : PassesExactBelow (c :: rest).length) :
    PassesExact (.line quote escaped) (c :: rest) := by
  intro kept hfits hkept hhashes
  obtain ⟨keep, next, hlex⟩ := exists_lexUnit hkept
  obtain ⟨rfl, hshort, hcomment⟩ := lexUnit_line hlex
  have hunit := hfits
  rw [fits, Bool.and_eq_true] at hunit
  have hnone : matchDocstring (c :: rest) = none := by simpa [unitFits] using hunit.1
  exact ih.copied rfl hnone hlex hshort hcomment kept hfits hkept hhashes

end PassesExactBelow

/-- The induction is on the length, since a match skips several units. -/
theorem passes_exact (state : LexState) (text : JsString) (hstate : isShort state = true) :
    PassesExact state text := by
  have hbelow : ∀ bound, PassesExactBelow bound := by
    intro bound
    induction bound with
    | zero => exact fun _ _ hlt => absurd hlt (Nat.not_lt_zero _)
    | succ bound ih =>
      intro state text hlt hstate
      cases text with
      | nil =>
        intro kept _ hkept _
        cases state with
        | code => exact Option.some.inj hkept
        | comment => exact Option.some.inj hkept
        | line quote escaped => cases hkept
        | opening quote last => cases hstate
        | long quote escaped => cases hstate
        | closing last => cases hstate
      | cons c rest =>
        have hshorter : PassesExactBelow (c :: rest).length := fun state text hshort =>
          ih state text (Nat.lt_of_lt_of_le hshort (Nat.le_of_lt_succ hlt))
        cases state with
        | code => exact hshorter.code
        | comment => exact hshorter.comment
        | line quote escaped => exact hshorter.line
        | opening quote last => cases hstate
        | long quote escaped => cases hstate
        | closing last => cases hstate
  exact hbelow _ state text (Nat.lt_succ_self _) hstate

/-! ## Hashes -/

theorem hash_not_mem_dropComments (inComment : Bool) (text : JsString) : 35 ∉ dropComments inComment text := by
  induction text generalizing inComment with
  | nil => exact List.not_mem_nil
  | cons c rest ih =>
    unfold dropComments
    split_ifs with hcomment hhash
    · exact ih true
    · exact ih true
    · exact List.not_mem_cons_of_ne_of_not_mem (Ne.symm hhash) (ih false)

theorem mem_collapseBlankLines (hc : c ≠ 10) (read : ℕ) (text : JsString) :
    c ∈ collapseBlankLines read text ↔ c ∈ text := by
  induction text generalizing read with
  | nil => exact Iff.rfl
  | cons d rest ih =>
    unfold collapseBlankLines
    split_ifs with hd hread
    · rw [List.mem_cons, List.mem_cons, ih]
    · rw [ih, List.mem_cons, or_iff_right fun h => hc (h.trans hd)]
    · rw [List.mem_cons, List.mem_cons, ih]

theorem mem_dropWhile_iff {p : ℕ → Bool} (hc : p c = false) (text : JsString) : c ∈ text.dropWhile p ↔ c ∈ text := by
  refine ⟨fun h => (List.dropWhile_suffix p).subset h, fun h => ?_⟩
  rw [← List.takeWhile_append_dropWhile (p := p) (l := text), List.mem_append] at h
  refine h.resolve_left fun hstart => ?_
  rw [List.mem_takeWhile_imp hstart] at hc
  cases hc

theorem mem_jsTrim (hc : isRegexSpace c = false) (text : JsString) : c ∈ jsTrim text ↔ c ∈ text := by
  unfold jsTrim
  rw [List.mem_reverse, mem_dropWhile_iff hc, List.mem_reverse, mem_dropWhile_iff hc]

theorem hash_mem_tidy (text : JsString) : 35 ∈ tidy text ↔ 35 ∈ text := by
  unfold tidy
  rw [mem_jsTrim rfl, mem_collapseBlankLines (by decide)]

theorem stripCodeComments_eq (code : JsString) :
    stripCodeComments code = tidy (dropComments false (withoutDocstrings code)) := by
  unfold stripCodeComments tidy
  rw [removeLineComments_eq [] false fun _ u t h => absurd h (by simp)]
  rfl

/-- **Comments are stripped as Python has them** from texts whose quotes fit, if no string of one line has a `#`; if
one has, they are not. -/
theorem strips_python_comments {code kept : JsString} (hpython : withoutComments code = some kept) :
    (fits 0 .code code = true → 35 ∉ kept → stripCodeComments code = tidy kept) ∧
      (stripCodeComments code = tidy kept → 35 ∉ kept) := by
  constructor
  · intro hfits hhashes
    rw [stripCodeComments_eq]
    exact congrArg tidy (passes_exact .code code rfl kept hfits hpython hhashes)
  · intro hsame hhash
    rw [← hash_mem_tidy, ← hsame, stripCodeComments_eq, hash_mem_tidy] at hhash
    exact hash_not_mem_dropComments _ _ hhash

def exampleSource : JsString :=
  js "def f(s):  # an 'example'\n    \"\"\"Split # here.\"\"\"\n    return s.split(',')\n"

theorem strips_python_comments_example :
    stripCodeComments exampleSource = tidy (js "def f(s):  \n    \n    return s.split(',')\n") :=
  (strips_python_comments (show withoutComments exampleSource = some _ by decide)).1 (by decide) (by decide)

/-- A match that swallows the end of a comment does no harm where line feeds are trimmed. -/
example : fits 0 .code (js "# '''\n# '''\nx") = false ∧
    withoutComments (js "# '''\n# '''\nx") = some (js "\n\nx") ∧
    stripCodeComments (js "# '''\n# '''\nx") = tidy (js "\n\nx") := by decide

/-- `s.split("#")` loses the string. -/
theorem hash_in_string_stripped : ¬ ∀ code kept : JsString, withoutComments code = some kept →
    stripCodeComments code = tidy kept := by
  intro h
  exact absurd (h (js "s.split(\"#\")") (js "s.split(\"#\")") (by decide)) (by decide)

end CodeShare.HintService
