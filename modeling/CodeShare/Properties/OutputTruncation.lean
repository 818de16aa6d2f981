import CodeShare.Properties.HarnessAlignment
import Mathlib.Data.List.Chain

/-! # Output is truncated twice

A child keeps the first characters of what the user code prints, and the parent keeps the first of what
the children report. The two limits are the same, and the result is that of one truncation, as long as
a text arrives at the parent as it was. `json.loads` joins two surrogates that stand for one character,
and a text that has them arrives shorter than it was cut.
-/

namespace CodeShare.Harness
set_option autoImplicit false

/-! ## Pieces -/

section
variable {α : Type} (limit : ℕ)

theorem take_append_take (l l' : List α) :
    (l.take limit ++ l').take limit = (l ++ l').take limit := by
  rw [List.take_append, List.take_append, List.take_take, Nat.min_self, List.length_take]
  congr 2
  omega

theorem take_flatten_map_take (pieces : List (List α)) :
    (pieces.map (List.take limit)).flatten.take limit = pieces.flatten.take limit := by
  induction pieces with
  | nil => rfl
  | cons piece pieces ih =>
    rw [List.map_cons, List.flatten_cons, List.flatten_cons, take_append_take, List.take_append,
      List.take_append]
    congr 1
    have htake := congrArg (List.take (limit - piece.length)) ih
    rwa [List.take_take, List.take_take, Nat.min_eq_left (Nat.sub_le _ _)] at htake

/-- The pieces are too long together exactly when their beginnings are, or one of them is alone. -/
theorem lt_length_flatten_iff (pieces : List (List α)) :
    limit < pieces.flatten.length ↔ limit < (pieces.map (List.take limit)).flatten.length ∨
      ∃ piece ∈ pieces, limit < piece.length := by
  by_cases hlong : ∃ piece ∈ pieces, limit < piece.length
  · obtain ⟨piece, hmem, hlt⟩ := hlong
    have hpiece : piece.length ≤ pieces.flatten.length := (List.sublist_flatten_of_mem hmem).length_le
    exact iff_of_true (by omega) (Or.inr ⟨piece, hmem, hlt⟩)
  · have hshort : ∀ piece ∈ pieces, List.take limit piece = piece := by
      intro piece hmem
      apply List.take_of_length_le
      by_contra hlt
      exact hlong ⟨piece, hmem, by omega⟩
    have hwhole : pieces.map (List.take limit) = pieces :=
      (List.map_congr_left hshort).trans (List.map_id pieces)
    rw [hwhole, or_iff_left hlong]

end

/-! ## A bounded buffer -/

namespace BoundedStdout

/-- The buffer has been given `text`; `lost` says that more has been lost before. -/
structure Captures (out : BoundedStdout) (text : PyText) (lost : Prop) : Prop where
  getvalue_eq : out.getvalue = text.take out.limit
  size_eq : out.size = min out.limit text.length
  truncated_iff : out.truncated ↔ out.limit < text.length ∨ lost

variable {out : BoundedStdout} {text : PyText} {lost : Prop}

theorem new_captures (limit : ℕ) : (new limit).Captures [] False where
  getvalue_eq := List.take_nil.symm
  size_eq := (Nat.min_eq_right (Nat.zero_le _)).symm
  truncated_iff := by simp [new]

@[simp] theorem write_limit (piece : PyText) : (out.write piece).limit = out.limit := rfl

theorem getvalue_write (piece : PyText) :
    (out.write piece).getvalue = out.getvalue ++ piece.take (out.limit - out.size) := by
  by_cases hroom : 0 < out.limit - out.size
  · simp [getvalue, write, hroom]
  · have hfull : out.limit - out.size = 0 := by omega
    simp [getvalue, write, hfull]

theorem Captures.write (h : out.Captures text lost) (piece : PyText) :
    (out.write piece).Captures (text ++ piece) lost where
  getvalue_eq := by
    rw [getvalue_write, write_limit, List.take_append, h.getvalue_eq, h.size_eq]
    congr 2
    omega
  size_eq := by
    have hsize := h.size_eq
    simp only [BoundedStdout.write, List.length_take, List.length_append]
    split_ifs <;> omega
  truncated_iff := by
    have hsize := h.size_eq
    have hlonger : out.limit - out.size < piece.length ∨ out.limit < text.length ↔
        out.limit < (text ++ piece).length := by
      rw [List.length_append]
      omega
    rw [write_limit, ← hlonger, or_assoc, ← h.truncated_iff, or_comm]
    simp [BoundedStdout.write]

/-- The flag may be raised for what was lost elsewhere. -/
theorem Captures.raise (h : out.Captures text lost) :
    ({ out with truncated := true } : BoundedStdout).Captures text True where
  getvalue_eq := h.getvalue_eq
  size_eq := h.size_eq
  truncated_iff := by simp

theorem Captures.foldl_write (h : out.Captures text lost) (prints : List PyText) :
    (prints.foldl BoundedStdout.write out).Captures (text ++ prints.flatten) lost := by
  induction prints generalizing out text with
  | nil => simpa using h
  | cons piece prints ih =>
    rw [List.foldl_cons, List.flatten_cons, ← List.append_assoc]
    exact ih (h.write piece)

@[simp] theorem foldl_write_limit (prints : List PyText) :
    (prints.foldl BoundedStdout.write out).limit = out.limit := by
  induction prints generalizing out with
  | nil => rfl
  | cons piece prints ih => rw [List.foldl_cons, ih, write_limit]

end BoundedStdout

/-! ## One child -/

section
variable (R : Runtime)

/-- All that the user code prints. -/
def ChildBehaviour.printed {Double : Type} : ChildBehaviour Double → PyText
  | .completes run _ _ => run.prints.flatten
  | _ => []

/-- What the parent is given of a text. -/
def received (text : PyText) : PyText := codePoints (text.take userStdoutChars)

def ReportsOk (index : ℕ) (child : ChildBehaviour R.Double) : Prop :=
  ∃ status, (runChild R (child.processEnd R index)).get "status" = some status ∧
    isText status "ok" = true

theorem not_reportsOk_childError {error stderr : PyText} {status : Option (PyVal R.Double)}
    (h : (childError R error stderr).get "status" = some status) : isText status "ok" = false := by
  obtain rfl := Option.some.inj h
  rfl

theorem not_reportsOk_runtimeError {traceback : PyText} {status : Option (PyVal R.Double)}
    (h : (reread (runtimeErrorReply R traceback)).get "status" = some status) :
    isText status "ok" = false := by
  unfold runtimeErrorReply at h
  generalize truncateText R (.str traceback) caseErrorChars = cut at h
  obtain ⟨text, truncated⟩ := cut
  cases truncated <;> (obtain rfl := Option.some.inj h; rfl)

/-- A child that reports `ok` has run its case to the end. -/
theorem ReportsOk.completes {index : ℕ} {child : ChildBehaviour R.Double}
    (h : ReportsOk R index child) : ∃ run length stderr result,
      child = .completes run length stderr ∧ childCase R index run.ending = .ok result ∧
        runChild R (child.processEnd R index) =
          reread (okReply R result (run.prints.foldl .write (.new userStdoutChars))) := by
  obtain ⟨status, hstatus, hok⟩ := h
  have hnot : ∀ {error stderr : PyText},
      runChild R (child.processEnd R index) = childError R error stderr → False := by
    intro error stderr herror
    rw [herror] at hstatus
    rw [not_reportsOk_childError R hstatus] at hok
    exact absurd hok Bool.false_ne_true
  cases child with
  | completes run length stderr =>
    by_cases hlong : harnessPayloadChars < length
    · exact (hnot (by rw [ChildBehaviour.processEnd, runChild, if_neg (not_not.mpr rfl), if_pos hlong])).elim
    · have hrun : runChild R ((ChildBehaviour.completes run length stderr).processEnd R index) =
          reread (childMain R index run) := by
        rw [ChildBehaviour.processEnd, runChild, if_neg (not_not.mpr rfl), if_neg hlong]
      rw [hrun, childMain] at hstatus
      cases hcase : childCase R index run.ending with
      | ok result =>
        refine ⟨run, length, stderr, result, rfl, hcase, ?_⟩
        rw [hrun, childMain, hcase]
      | error traceback =>
        rw [hcase] at hstatus
        rw [not_reportsOk_runtimeError R hstatus] at hok
        exact absurd hok Bool.false_ne_true
  | garbles length stderr =>
    refine (?_ : False).elim
    by_cases hlong : harnessPayloadChars < length
    · exact hnot (by rw [ChildBehaviour.processEnd, runChild, if_neg (not_not.mpr rfl), if_pos hlong])
    · exact hnot (by rw [ChildBehaviour.processEnd, runChild, if_neg (not_not.mpr rfl), if_neg hlong])
  | exits returncode nonzero stdout stderr =>
    exact (hnot (by rw [ChildBehaviour.processEnd, runChild, if_pos nonzero])).elim
  | timesOut stderr => exact (hnot rfl).elim
  | fails traceback => exact (hnot rfl).elim

theorem collect_okReply_output (collected : Collected R) (index : ℕ) (result : PyVal R.Double)
    (stdoutCapture : BoundedStdout) :
    collect R collected index (reread (okReply R result stdoutCapture)) =
      some (collected.1 ++ [reread result],
        if stdoutCapture.truncated then
          { collected.2.write (codePoints stdoutCapture.getvalue) with truncated := true }
        else collected.2.write (codePoints stdoutCapture.getvalue)) := rfl

/-- The parent adds the child's output to its own. -/
theorem collect_captures {collected collected' : Collected R} {index : ℕ} {child : ChildBehaviour R.Double}
    {text : PyText} {lost : Prop} (hok : ReportsOk R index child)
    (h : collect R collected index (runChild R (child.processEnd R index)) = some collected')
    (hlimit : collected.2.limit = userStdoutChars) (hcaptures : collected.2.Captures text lost) :
    collected'.2.limit = userStdoutChars ∧
      collected'.2.Captures (text ++ received child.printed)
        (lost ∨ userStdoutChars < child.printed.length) := by
  obtain ⟨run, length, stderr, result, rfl, -, hreply⟩ := hok.completes R
  have hchild := (BoundedStdout.new_captures userStdoutChars).foldl_write run.prints
  have hvalue : codePoints (run.prints.foldl BoundedStdout.write (.new userStdoutChars)).getvalue =
      received run.prints.flatten := by
    rw [hchild.getvalue_eq, BoundedStdout.foldl_write_limit]
    rfl
  have hflag : (run.prints.foldl BoundedStdout.write (.new userStdoutChars)).truncated = true ↔
      userStdoutChars < run.prints.flatten.length := by
    rw [hchild.truncated_iff, BoundedStdout.foldl_write_limit, or_false]
    rfl
  rw [hreply, collect_okReply_output, hvalue] at h
  obtain rfl := Option.some.inj h
  have hwritten := hcaptures.write (received run.prints.flatten)
  dsimp only [ChildBehaviour.printed]
  by_cases hlost : userStdoutChars < run.prints.flatten.length
  · rw [if_pos (hflag.mpr hlost)]
    refine ⟨hlimit, ?_⟩
    rw [show (lost ∨ userStdoutChars < run.prints.flatten.length) = True from
      eq_true (Or.inr hlost)]
    exact hwritten.raise
  · rw [if_neg (mt hflag.mp hlost)]
    refine ⟨hlimit, ?_⟩
    rw [show (lost ∨ userStdoutChars < run.prints.flatten.length) = lost from
      propext (or_iff_left hlost)]
    exact hwritten

/-! ## All children -/

/-- Every child reports `ok`, the first of them with the given index. -/
def AllReportOk (index : ℕ) (children : List (ChildBehaviour R.Double)) : Prop :=
  ∀ (i : ℕ) (child : ChildBehaviour R.Double), children[i]? = some child → ReportsOk R (index + i) child

theorem allReportOk_cons {index : ℕ} {child : ChildBehaviour R.Double}
    {rest : List (ChildBehaviour R.Double)} (h : AllReportOk R index (child :: rest)) :
    ReportsOk R index child ∧ AllReportOk R (index + 1) rest := by
  refine ⟨h 0 child rfl, fun i other hother => ?_⟩
  rw [Nat.add_assoc, Nat.add_comm 1 i]
  exact h (i + 1) other hother

theorem collectAll_captures {children : List (ChildBehaviour R.Double)} {collected collected' : Collected R}
    {index : ℕ} {text : PyText} {lost : Prop} (hok : AllReportOk R index children)
    (h : collectAll R collected index (processEnds R index children) = some collected')
    (hlimit : collected.2.limit = userStdoutChars) (hcaptures : collected.2.Captures text lost) :
    collected'.2.limit = userStdoutChars ∧
      collected'.2.Captures
        (text ++ (children.map fun child => received child.printed).flatten)
        (lost ∨ ∃ child ∈ children, userStdoutChars < child.printed.length) := by
  induction children generalizing collected index text lost with
  | nil =>
    obtain rfl := Option.some.inj h
    refine ⟨hlimit, ?_⟩
    simpa using hcaptures
  | cons child rest ih =>
    obtain ⟨hchild, hrest⟩ := allReportOk_cons R hok
    rw [processEnds, collectAll] at h
    cases hcollect : collect R collected index (runChild R (child.processEnd R index)) with
    | none =>
      rw [hcollect] at h
      cases h
    | some next =>
      rw [hcollect] at h
      obtain ⟨hnext, hnextCaptures⟩ := collect_captures R hchild hcollect hlimit hcaptures
      rw [List.map_cons, List.flatten_cons, ← List.append_assoc, List.exists_mem_cons_iff, ← or_assoc]
      exact ih hrest h hnext hnextCaptures

/-- The output that a payload carries. -/
structure CarriesOutput (payload : PyVal R.Double) (userStdout : PyText) (truncated : Prop) : Prop where
  userStdout_eq : payload.get "userStdout" = some (some (.str userStdout))
  metadata_eq : payload.get "metadata" = some (some (.dict [(js "userStdoutTruncated", .bool true)])) ∨
    payload.get "metadata" = some none
  truncated_iff : payload.get "metadata" =
    some (some (.dict [(js "userStdoutTruncated", .bool true)])) ↔ truncated

theorem resultPayload_carries {collected : Collected R} {text : PyText} {lost : Prop}
    (hlimit : collected.2.limit = userStdoutChars) (h : collected.2.Captures text lost) :
    CarriesOutput R (resultPayload R collected) (text.take userStdoutChars)
      (userStdoutChars < text.length ∨ lost) := by
  have hvalue := h.getvalue_eq
  have hflag := h.truncated_iff
  rw [hlimit] at hvalue hflag
  rw [← hvalue, resultPayload]
  cases htruncated : collected.2.truncated with
  | true =>
    refine ⟨rfl, Or.inl rfl, iff_of_true rfl (hflag.mp htruncated)⟩
  | false =>
    refine ⟨rfl, Or.inr rfl, iff_of_false (fun heq => by cases heq) ?_⟩
    intro hlost
    rw [hflag.mpr hlost] at htruncated
    cases htruncated

theorem handlePreflightFailure_ne_result {result payload : PyVal R.Double} {outcome : HarnessOutcome}
    (h : handlePreflightFailure R result = some (some (outcome, payload))) : outcome ≠ .result := by
  unfold handlePreflightFailure at h
  cases herror : result.get "error" with
  | none =>
    rw [herror] at h
    cases h
  | some error =>
    cases hstatus : result.get "status" with
    | none =>
      rw [herror, hstatus] at h
      cases h
    | some status =>
      rw [herror, hstatus] at h
      simp only [Option.bind_eq_bind, Option.bind_some] at h
      split_ifs at h
      · obtain ⟨rfl, -⟩ := Prod.mk.inj (Option.some.inj (Option.some.inj h))
        decide
      · split at h
        · cases h
        · cases h
        · split_ifs at h
          · obtain ⟨rfl, -⟩ := Prod.mk.inj (Option.some.inj (Option.some.inj h))
            decide
          · cases h

/-- The first characters of what arrives of the texts, and whether a text or what arrives is too long. -/
theorem parentMain_output {preflight : ProcessEnd R.Double} {children : List (ChildBehaviour R.Double)}
    {payload : PyVal R.Double} (hok : AllReportOk R 0 children)
    (h : parentMain R preflight (processEnds R 0 children) = some (.result, payload)) :
    CarriesOutput R payload
      ((children.map fun child => received child.printed).flatten.take userStdoutChars)
      (userStdoutChars < (children.map fun child => received child.printed).flatten.length ∨
        ∃ child ∈ children, userStdoutChars < child.printed.length) := by
  unfold parentMain at h
  cases hpreflight : handlePreflightFailure R (runChild R preflight) with
  | none =>
    rw [hpreflight] at h
    cases h
  | some failure =>
    rw [hpreflight] at h
    cases failure with
    | some failure =>
      dsimp only at h
      rw [emitTaggedPayload] at h
      split_ifs at h
      obtain rfl := Option.some.inj h
      exact absurd rfl (handlePreflightFailure_ne_result R hpreflight)
    | none =>
      dsimp only at h
      cases hall : collectAll R ([], .new userStdoutChars) 0 (processEnds R 0 children) with
      | none =>
        rw [hall] at h
        cases h
      | some collected =>
        rw [hall] at h
        dsimp only at h
        rw [emitTaggedPayload] at h
        split_ifs at h
        obtain rfl := (Prod.mk.inj (Option.some.inj h)).2
        obtain ⟨hlimit, hcaptures⟩ :=
          collectAll_captures R hok hall rfl (BoundedStdout.new_captures userStdoutChars)
        rw [List.nil_append, false_or] at hcaptures
        exact resultPayload_carries R hlimit hcaptures

/-! ## Texts that arrive as they are -/

/-- No two surrogates stand for one character; Unicode texts hold no surrogates at all. -/
def Pairless (text : PyText) : Prop :=
  text.IsChain fun high low => (isHighSurrogate high && isLowSurrogate low) = false

theorem Pairless.codePoints_eq {text : PyText} (h : Pairless text) : codePoints text = text := by
  induction text using codePoints.induct with
  | case1 high low rest hpair ih =>
    rw [Pairless, List.isChain_cons_cons, hpair] at h
    cases h.1
  | case2 high low rest hpair ih =>
    rw [Pairless, List.isChain_cons_cons] at h
    rw [codePoints, if_neg hpair, ih h.2]
  | case3 short hshort =>
    rw [codePoints]
    exact hshort

theorem Pairless.received_eq {text : PyText} (h : Pairless text) :
    received text = text.take userStdoutChars :=
  Pairless.codePoints_eq (List.IsChain.take h userStdoutChars)

/-- Two truncations are one: the output is the beginning of all that arrives, and for texts that arrive
as they are it is the beginning of all that is printed. -/
theorem output_truncated_once (preflight : ProcessEnd R.Double)
    (children : List (ChildBehaviour R.Double)) (payload : PyVal R.Double)
    (hok : AllReportOk R 0 children)
    (h : parentMain R preflight (processEnds R 0 children) = some (.result, payload)) :
    CarriesOutput R payload
        ((children.map fun child => received child.printed).flatten.take userStdoutChars)
        (userStdoutChars < (children.map fun child => received child.printed).flatten.length ∨
          ∃ child ∈ children, userStdoutChars < child.printed.length) ∧
      ((∀ child ∈ children, Pairless child.printed) →
        CarriesOutput R payload
          ((children.map ChildBehaviour.printed).flatten.take userStdoutChars)
          (userStdoutChars < (children.map ChildBehaviour.printed).flatten.length)) := by
  have houtput := parentMain_output R hok h
  refine ⟨houtput, fun hpairless => ?_⟩
  have hreceived : (children.map fun child => received child.printed) =
      (children.map ChildBehaviour.printed).map (List.take userStdoutChars) := by
    rw [List.map_map]
    exact List.map_congr_left fun child hchild => (hpairless child hchild).received_eq
  have hlong : (∃ child ∈ children, userStdoutChars < child.printed.length) ↔
      ∃ piece ∈ children.map ChildBehaviour.printed, userStdoutChars < piece.length := by
    simp
  rw [hreceived, hlong, take_flatten_map_take, ← lt_length_flatten_iff] at houtput
  exact houtput

end

/-! ## Three texts -/

/-- No high surrogate, no pair. -/
theorem pairless_of_low {text : PyText} (h : ∀ c ∈ text, isHighSurrogate c = false) : Pairless text := by
  induction text with
  | nil => exact .nil
  | cons c rest ih =>
    refine List.isChain_cons.mpr ⟨fun low _ => ?_, ih fun c' hc => h c' (List.mem_cons_of_mem c hc)⟩
    rw [h c List.mem_cons_self, Bool.false_and]

theorem reread_true : reread (.bool true : PyVal ℕ) = .bool true := rfl

/-- The user code prints texts and returns `True`. -/
def printsTexts (texts : List PyText) : ChildBehaviour exampleRuntime.Double :=
  .completes ⟨texts, .returned (3 : ℕ) (some ⟨.bool true, reread_true⟩) (some (js "True"))⟩ 20000 []

theorem printsTexts_reportsOk (index : ℕ) (texts : List PyText) :
    ReportsOk exampleRuntime index (printsTexts texts) := ⟨_, rfl, rfl⟩

theorem printsTexts_allReportOk (printed : List (List PyText)) :
    AllReportOk exampleRuntime 0 (printed.map printsTexts) := by
  intro i child hchild
  rw [List.getElem?_map, Option.map_eq_some_iff] at hchild
  obtain ⟨texts, -, rfl⟩ := hchild
  exact printsTexts_reportsOk _ texts

/-- What such children return arrives. -/
theorem printsTexts_emitted (printed : List (List PyText)) : ∃ payload,
    parentMain exampleRuntime passedPreflight
      (processEnds exampleRuntime 0 (printed.map printsTexts)) = some (.result, payload) := by
  obtain ⟨entries, userStdout, hemit, hgots⟩ :=
    parentMain_passes exampleRuntime passedPreflight_passes (printed.map printsTexts)
  have hnesting := (pyNesting_resultPayload exampleRuntime entries userStdout).mpr fun entry hentry got hgot => by
    have hm : entry.got ∈ (printed.map printsTexts).map ChildBehaviour.returned := by
      rw [← hgots]
      exact List.mem_map_of_mem hentry
    rw [List.map_map] at hm
    obtain ⟨texts, -, htexts⟩ := List.mem_map.mp hm
    rw [← htexts] at hgot
    obtain rfl := Option.some.inj hgot
    decide
  exact ⟨_, by rw [hemit, emitTaggedPayload, if_pos hnesting]⟩

/-- The first text is one too long, the second is empty, and nothing is left of the third. -/
def exampleTexts : List (List PyText) :=
  [[[97], List.replicate userStdoutChars 98], [], [[104, 105]]]

/-- A text, cut where a longer one begins to differ. -/
theorem take_long (n : ℕ) :
    ([97] ++ List.replicate (n + 1) 98 ++ [104, 105]).take (n + 1) = 97 :: List.replicate n 98 := by
  have hsplit : [97] ++ List.replicate (n + 1) 98 ++ [104, 105] =
      (97 :: List.replicate n 98) ++ [98, 104, 105] := by
    rw [List.replicate_succ']
    simp
  rw [hsplit]
  exact List.take_left' (by simp)

theorem exampleTexts_pairless : ∀ texts ∈ exampleTexts, Pairless texts.flatten := by
  have hhigh : ∀ c ∈ [97, 98, 104, 105], isHighSurrogate c = false := by decide
  intro texts htexts
  refine pairless_of_low fun c hc => hhigh c ?_
  obtain ⟨text, htext, hc⟩ := List.mem_flatten.mp hc
  simp only [exampleTexts, List.mem_cons, List.not_mem_nil, or_false] at htexts
  rcases htexts with rfl | rfl | rfl
  · rcases List.mem_pair.mp htext with rfl | rfl
    · simp at hc
      simp [hc]
    · simp [List.eq_of_mem_replicate hc]
  · cases htext
  · obtain rfl := List.mem_singleton.mp htext
    simp at hc
    rcases hc with rfl | rfl <;> simp

theorem output_truncated_once_example : ∃ payload,
    parentMain exampleRuntime passedPreflight
      (processEnds exampleRuntime 0 (exampleTexts.map printsTexts)) = some (.result, payload) ∧
    CarriesOutput exampleRuntime payload (97 :: List.replicate (userStdoutChars - 1) 98) True := by
  obtain ⟨payload, hmain⟩ := printsTexts_emitted exampleTexts
  have houtput := (output_truncated_once exampleRuntime passedPreflight (exampleTexts.map printsTexts)
    payload (printsTexts_allReportOk exampleTexts) hmain).2 fun child hchild => by
      obtain ⟨texts, htexts, rfl⟩ := List.mem_map.mp hchild
      exact exampleTexts_pairless texts htexts
  have hprinted : ((exampleTexts.map printsTexts).map ChildBehaviour.printed).flatten =
      [97] ++ List.replicate userStdoutChars 98 ++ [104, 105] := by
    simp [exampleTexts, printsTexts, ChildBehaviour.printed]
  obtain ⟨n, hn⟩ : ∃ n, userStdoutChars = n + 1 := ⟨userStdoutChars - 1, rfl⟩
  have hlong : userStdoutChars <
      ([97] ++ List.replicate userStdoutChars 98 ++ [104, 105]).length := by
    rw [List.length_append, List.length_append, List.length_replicate]
    change userStdoutChars < 1 + userStdoutChars + 2
    omega
  rw [hprinted, eq_true hlong, hn, take_long] at houtput
  refine ⟨payload, hmain, ?_⟩
  rwa [hn, Nat.add_sub_cancel]

/-- Two surrogates that are printed arrive as the one character they stand for. -/
theorem surrogates_are_joined :
    ¬ ∀ (R : Runtime) (preflight : ProcessEnd R.Double) (children : List (ChildBehaviour R.Double))
      (payload : PyVal R.Double), AllReportOk R 0 children →
      parentMain R preflight (processEnds R 0 children) = some (.result, payload) →
        CarriesOutput R payload
          ((children.map ChildBehaviour.printed).flatten.take userStdoutChars)
          (userStdoutChars < (children.map ChildBehaviour.printed).flatten.length) := by
  intro hclaim
  have houtput := hclaim exampleRuntime passedPreflight [printsTexts [[0xD83D, 0xDE00]]] _
    (printsTexts_allReportOk [[[0xD83D, 0xDE00]]]) rfl
  have htexts : [0x1F600] = [0xD83D, 0xDE00] :=
    PyVal.str.inj (Option.some.inj (Option.some.inj houtput.userStdout_eq))
  exact absurd htexts (by decide)

end CodeShare.Harness
