import CodeShare.Harness.ParentMain

/-! # What the parent collects

Whatever the child of a test case does, the parent appends one entry with the index of that test case.
`CaseEntry` lists the forms of an entry, and `collectAll_behaviours` says that a run of the loop
collects one for each child, in order.
-/

namespace CodeShare.Harness
set_option autoImplicit false

variable (R : Runtime)

/-- The entries of `results`, without their index. An error without a time is one that the parent
reports. -/
inductive CaseEntry (Double : Type) where
  | ok (elapsed : Double) (got : LoadedValue Double) (repr : PyText)
  | unserializable (elapsed : Double) (repr : PyText)
  | error (elapsed : Option Double) (text : PyText) (truncated : Bool)

def errorEntry (index : ℕ) (elapsedMs : PyVal R.Double) (text : PyText) (truncated : Bool) :
    PyVal R.Double :=
  .dict ([(js "index", .int index), (js "status", .str (js "error")), (js "elapsed_ms", elapsedMs),
    (js "error", .str text)] ++ if truncated then [(js "error_truncated", .bool true)] else [])

def CaseEntry.toPy (index : ℕ) : CaseEntry R.Double → PyVal R.Double
  | ok elapsed got repr => okCaseResult R index elapsed got.value repr
  | unserializable elapsed repr => unserializableCaseResult R index elapsed repr
  | error elapsed text truncated =>
    errorEntry R index (elapsed.elim (.int 0) (.float false)) text truncated

/-- The entry behind another trip through `json.dumps` and `json.loads`. -/
def CaseEntry.rejoin : CaseEntry R.Double → CaseEntry R.Double
  | ok elapsed got repr => .ok elapsed got (codePoints repr)
  | unserializable elapsed repr => .unserializable elapsed (codePoints repr)
  | error elapsed text truncated => .error elapsed (codePoints text) truncated

def CaseEntry.got {Double : Type} : CaseEntry Double → Option (LoadedValue Double)
  | ok _ got _ => some got
  | _ => none

def CaseRun.got {Double : Type} : CaseRun Double → Option (LoadedValue Double)
  | returned _ got _ => got
  | _ => none

/-- The value that a child returns, when its answer is read. -/
def ChildBehaviour.returned {Double : Type} : ChildBehaviour Double → Option (LoadedValue Double)
  | completes run length _ => if harnessPayloadChars < length then none else run.ending.got
  | _ => none

/-- The entries from an index on. -/
def entriesFrom (index : ℕ) : List (CaseEntry R.Double) → List (PyVal R.Double)
  | [] => []
  | entry :: rest => entry.toPy R index :: entriesFrom (index + 1) rest

theorem reread_toPy (index : ℕ) (entry : CaseEntry R.Double) :
    reread (entry.toPy R index) = (entry.rejoin R).toPy R index := by
  cases entry with
  | ok elapsed got repr =>
    rw [CaseEntry.toPy, okCaseResult, reread]
    simp only [reread.rereadEntries, got.reread_value]
    rfl
  | unserializable elapsed repr => rfl
  | error elapsed text truncated => cases elapsed <;> cases truncated <;> rfl

/-! ## One child -/

section
variable (collected : Collected R) (index : ℕ)

theorem collect_okReply (result : PyVal R.Double) (stdoutCapture : BoundedStdout) :
    ∃ userStdout, collect R collected index (reread (okReply R result stdoutCapture)) =
      some (collected.1 ++ [reread result], userStdout) := ⟨_, rfl⟩

/-- An answer that reports an error ends in a failure of the parent's own. -/
theorem collect_childError (error stderr : PyText) :
    collect R collected index (childError R error stderr) =
      some (collected.1 ++ [(CaseEntry.error none (truncateText R (.str error) caseErrorChars).1
        (truncateText R (.str error) caseErrorChars).2).toPy R index], collected.2) := rfl

theorem collect_runtimeErrorReply (traceback : PyText) :
    ∃ text truncated, collect R collected index (reread (runtimeErrorReply R traceback)) =
      some (collected.1 ++ [(CaseEntry.error none text truncated).toPy R index], collected.2) := by
  unfold runtimeErrorReply
  generalize truncateText R (.str traceback) caseErrorChars = cut
  obtain ⟨text, truncated⟩ := cut
  cases truncated <;> exact ⟨_, _, rfl⟩

/-- The entry of a case that ran to its end arrives as it was made. -/
theorem collect_childCase {ending : CaseRun R.Double} {result : PyVal R.Double}
    (h : childCase R index ending = .ok result) (stdoutCapture : BoundedStdout) :
    ∃ entry userStdout, collect R collected index (reread (okReply R result stdoutCapture)) =
        some (collected.1 ++ [CaseEntry.toPy R index entry], userStdout) ∧
      entry.got = ending.got := by
  obtain ⟨userStdout, hcollect⟩ := collect_okReply R collected index result stdoutCapture
  have hentry : ∀ entry : CaseEntry R.Double, result = entry.toPy R index →
      collect R collected index (reread (okReply R result stdoutCapture)) =
        some (collected.1 ++ [(entry.rejoin R).toPy R index], userStdout) := by
    intro entry hresult
    rw [hcollect, hresult, reread_toPy]
  cases ending with
  | returned elapsed got repr =>
    cases got with
    | some got =>
      exact ⟨_, _, hentry (.ok elapsed got (safeRepr R repr)) (Except.ok.inj h).symm, rfl⟩
    | none =>
      exact ⟨_, _, hentry (.unserializable elapsed (safeRepr R repr)) (Except.ok.inj h).symm, rfl⟩
  | raised elapsed traceback =>
    exact ⟨_, _, hentry (.error (some elapsed) _ _) (Except.ok.inj h).symm, rfl⟩
  | escaped traceback => cases h

/-- Whatever the child does, one entry with its index is added. -/
theorem collect_behaviour (child : ChildBehaviour R.Double) :
    ∃ entry userStdout,
      collect R collected index (runChild R (child.processEnd R index)) =
        some (collected.1 ++ [CaseEntry.toPy R index entry], userStdout) ∧
      entry.got = child.returned := by
  have herror : ∀ error stderr, ∃ entry userStdout,
      collect R collected index (childError R error stderr) =
        some (collected.1 ++ [CaseEntry.toPy R index entry], userStdout) ∧ entry.got = none :=
    fun error stderr => ⟨_, _, collect_childError R collected index error stderr, rfl⟩
  cases child with
  | completes run length stderr =>
    rw [ChildBehaviour.processEnd, runChild, if_neg (not_not.mpr rfl), ChildBehaviour.returned]
    by_cases hlong : harnessPayloadChars < length
    · rw [if_pos hlong]
      obtain ⟨entry, userStdout, hcollect, hgot⟩ :=
        herror (js "Execution process produced too much harness output.") stderr
      exact ⟨entry, userStdout, hcollect, hgot.trans (if_pos hlong).symm⟩
    · rw [if_neg hlong, if_neg hlong]
      dsimp only
      unfold childMain
      cases hcase : childCase R index run.ending with
      | ok result =>
        obtain ⟨entry, userStdout, hcollect, hgot⟩ :=
          collect_childCase R collected index hcase (run.prints.foldl .write (.new userStdoutChars))
        exact ⟨entry, userStdout, hcollect, hgot⟩
      | error traceback =>
        obtain ⟨text, truncated, hcollect⟩ := collect_runtimeErrorReply R collected index traceback
        refine ⟨_, _, hcollect, ?_⟩
        cases hending : run.ending with
        | returned elapsed got repr =>
          rw [hending] at hcase
          cases got <;> cases hcase
        | raised elapsed traceback' => rfl
        | escaped traceback' => rfl
  | garbles length stderr =>
    rw [ChildBehaviour.processEnd, runChild, if_neg (not_not.mpr rfl)]
    split_ifs
    · exact herror _ stderr
    · exact herror _ stderr
  | exits returncode nonzero stdout stderr =>
    rw [ChildBehaviour.processEnd, runChild, if_pos nonzero]
    exact herror _ stderr
  | timesOut stderr => exact herror _ stderr
  | fails traceback => exact herror traceback []

end

/-! ## All children -/

/-- The processes of the test cases, from an index on. -/
def processEnds (index : ℕ) : List (ChildBehaviour R.Double) → List (ProcessEnd R.Double)
  | [] => []
  | child :: rest => child.processEnd R index :: processEnds (index + 1) rest

/-- The loop adds an entry for each child, in order, and never fails. -/
theorem collectAll_behaviours (children : List (ChildBehaviour R.Double)) (collected : Collected R)
    (index : ℕ) :
    ∃ entries userStdout,
      collectAll R collected index (processEnds R index children) =
        some (collected.1 ++ entriesFrom R index entries, userStdout) ∧
      entries.map CaseEntry.got = children.map ChildBehaviour.returned := by
  induction children generalizing collected index with
  | nil => exact ⟨[], collected.2, by rw [entriesFrom, List.append_nil]; rfl, rfl⟩
  | cons child rest ih =>
    obtain ⟨entry, userStdout, hcollect, hgot⟩ := collect_behaviour R collected index child
    obtain ⟨entries, userStdout', hall, hgots⟩ :=
      ih (collected.1 ++ [entry.toPy R index], userStdout) (index + 1)
    refine ⟨entry :: entries, userStdout', ?_, ?_⟩
    · rw [processEnds, collectAll, hcollect]
      dsimp only
      rw [hall, List.append_assoc, List.singleton_append, entriesFrom]
    · rw [List.map_cons, List.map_cons, hgot, hgots]

end CodeShare.Harness
