import CodeShare.Harness.PythonHarness
import CodeShare.Text.Occurrence

/-! # What the seven replacements put into the script

The limits stand before the user's code, so their placeholders are always the first ones. The four
JSON texts are different: each is searched by the replacements after it, and each is read as a
replacement text, in which `$` has a meaning. `buildPythonHarness_exact_iff` says when the result is
the intended script.
-/

namespace CodeShare.Harness
open Substitution
set_option autoImplicit false
set_option maxRecDepth 100000

/-! ## The text before the user's code -/

/-- The template up to the user's code. -/
def scriptHead (userStdoutLimit caseErrorLimit harnessPayloadLimit : JsString) : JsString :=
  (templateHead ++ js "_USER_STDOUT_LIMIT = ") ++ (userStdoutLimit ++
    (newline :: js "_CASE_ERROR_LIMIT = " ++ (caseErrorLimit ++
      (newline :: js "_HARNESS_PAYLOAD_LIMIT = " ++ (harnessPayloadLimit ++
        (newline :: pythonLines ["_CHILD_TIMEOUT_SECONDS = 10"] ++ js "_USER_CODE = "))))))

def markedHead : JsString :=
  scriptHead userStdoutLimitMark caseErrorLimitMark harnessPayloadLimitMark

/-- Texts of the fixed template lines between the JSON texts. -/
def testCasesLine : JsString := newline :: js "_TEST_CASES = "
def methodNameLine : JsString := newline :: js "_METHOD_NAME = "
def nonceLine : JsString := newline :: js "_NONCE = "

theorem fillTemplate_eq (l1 l2 l3 u t m n : JsString) :
    fillTemplate l1 l2 l3 u t m n = scriptHead l1 l2 l3 ++ (u ++ (testCasesLine ++ (t ++
      (methodNameLine ++ (m ++ (nonceLine ++ (n ++ templateTail))))))) := by
  simp [fillTemplate, scriptHead, testCasesLine, methodNameLine, nonceLine]

/-- The placeholders that JSON texts replace. -/
def jsonMarks : List JsString := [userCodeMark, testCasesMark, methodNameMark, nonceMark]

/-- A placeholder of a JSON text is not found before the user's code. -/
theorem passedBy_markedHead {mark : JsString} (hmark : mark ∈ jsonMarks) (word : JsString) :
    PassedBy mark markedHead word := by
  simp only [jsonMarks, List.mem_cons, List.not_mem_nil, or_false] at hmark
  have hfixed : ∀ {p w : JsString}, PassedBy (123 :: p) (templateHead ++ js "_USER_STDOUT_LIMIT = ") w :=
    PassedBy.of_not_mem (by decide)
  have hline1 : ∀ {p w : JsString}, PassedBy (123 :: p) (newline :: js "_CASE_ERROR_LIMIT = ") w :=
    PassedBy.of_not_mem (by decide)
  have hline2 : ∀ {p w : JsString}, PassedBy (123 :: p) (newline :: js "_HARNESS_PAYLOAD_LIMIT = ") w :=
    PassedBy.of_not_mem (by decide)
  have hline3 : ∀ {p w : JsString}, PassedBy (123 :: p)
      (newline :: pythonLines ["_CHILD_TIMEOUT_SECONDS = 10"] ++ js "_USER_CODE = ") w :=
    PassedBy.of_not_mem (by decide)
  have hmarks : ∀ w, PassedBy mark userStdoutLimitMark w ∧ PassedBy mark caseErrorLimitMark w ∧
      PassedBy mark harnessPayloadLimitMark w := by
    intro w
    rcases hmark with rfl | rfl | rfl | rfl <;>
      exact ⟨PassedBy.of_clash (by decide) (by decide) (by decide),
        PassedBy.of_clash (by decide) (by decide) (by decide),
        PassedBy.of_clash (by decide) (by decide) (by decide)⟩
  obtain ⟨p, rfl⟩ : ∃ p, mark = 123 :: p := by
    rcases hmark with rfl | rfl | rfl | rfl <;> exact ⟨_, rfl⟩
  exact hfixed.append ((hmarks _).1.append (hline1.append ((hmarks _).2.1.append
    (hline2.append ((hmarks _).2.2.append hline3)))))

/-! ## One replacement -/

theorem replace_passed {x mark word : JsString} (hx : PassedBy mark x (mark ++ word))
    (replacement : JsString) :
    replace (x ++ (mark ++ word)) mark replacement =
      x ++ (getSubstitution mark (x ++ (mark ++ word)) x.length replacement ++ word) := by
  rw [replace_eq_substitute _ _ _ hx.firstIndex_eq, hx.substitute, substitute_append_pattern]

/-- Whatever the escapes of a replacement text stand for, the value keeps its first letter. -/
theorem exists_replace_markedHead {mark : JsString} (hmark : mark ∈ jsonMarks) {h : ℕ}
    (hh : h ≠ dollar) (r word : JsString) :
    ∃ s, replace (markedHead ++ word) mark (h :: r) = markedHead ++ substitute mark (h :: s) word := by
  cases hi : firstIndex mark (markedHead ++ word) with
  | none =>
    refine ⟨[], ?_⟩
    rw [← (passedBy_markedHead hmark word).substitute, substitute_eq_splice, hi, replace, hi]
  | some position =>
    have hhead : ∀ f, ∃ s, expand dollar f (h :: r) = h :: s := by
      intro f
      cases r with
      | nil => exact ⟨[], rfl⟩
      | cons c r => exact ⟨_, by rw [expand, if_neg hh]⟩
    obtain ⟨s, hs⟩ := hhead (substitutionEscape mark (markedHead ++ word) position)
    refine ⟨s, ?_⟩
    rw [← (passedBy_markedHead hmark word).substitute, replace_eq_substitute _ _ _ hi,
      getSubstitution, hs]

/-- The first letters of what the escapes stand for, when the head of the script stands before the
placeholder and a line end behind it. -/
theorem substitutionEscape_head {p x word : JsString} (c : ℕ) (r : JsString)
    (hc : c ≠ dollar)
    (hr : substitutionEscape (123 :: p) (105 :: x ++ (123 :: p ++ newline :: word))
      (105 :: x).length c = some r) : ∃ h t, r = h :: t ∧ h ≠ dollar := by
  unfold substitutionEscape at hr
  rw [if_neg hc, List.take_left, ← List.drop_drop, List.drop_left, List.drop_left] at hr
  split_ifs at hr
  · exact ⟨123, p, (Option.some.inj hr).symm, by decide⟩
  · exact ⟨105, x, (Option.some.inj hr).symm, by decide⟩
  · exact ⟨newline, word, (Option.some.inj hr).symm, by decide⟩

/-! ## The replacements still to come -/

/-- `after` is `before` rewritten by a transparent function that writes no brace at `marks`. -/
def Rewrites (marks : List JsString) (before after : JsString) : Prop :=
  ∃ R, Transparent 123 dollar R ∧ R before = after ∧ ∀ p ∈ marks, ∀ w s, R (p ++ w) ≠ 123 :: s

theorem Rewrites.refl (word : JsString) : Rewrites [] word word :=
  ⟨id, Transparent.id_transparent 123 dollar, rfl, by simp⟩

theorem Rewrites.step {marks : List JsString} {p before after s : JsString} (h : ℕ)
    (hh : h ≠ 123) (hd : h ≠ dollar)
    (hclash : ∀ q ∈ marks, ∀ w, PassedBy (123 :: p) q w)
    (hnext : Rewrites marks (substitute (123 :: p) (h :: s) before) after) :
    Rewrites ((123 :: p) :: marks) before after := by
  obtain ⟨R, hR, he, hmarks⟩ := hnext
  refine ⟨R ∘ substitute (123 :: p) (h :: s), hR.comp (Transparent.of_substitute rfl hh hd), he, ?_⟩
  intro q hq w t
  rw [Function.comp_apply]
  rcases List.mem_cons.mp hq with rfl | hq
  · rw [substitute_append_pattern, List.cons_append, hR.other h _ hh]
    exact fun heq => hh (List.cons.inj heq).1
  · rw [(hclash q hq w).substitute]
    exact hmarks q hq _ t

/-- If the replacements to come turn the expansion of `text` back into `text`, there was nothing to
expand and they found nothing in it. -/
theorem Rewrites.exact {marks : List JsString} {mark head rest y text t : JsString}
    (hmark : ∃ p, mark = 123 :: p) (hhead : ∃ x, head = 105 :: x) (hrest : ∃ w, rest = newline :: w)
    (h : Rewrites marks (y ++ (getSubstitution mark (head ++ (mark ++ rest)) head.length text ++ rest))
      (y ++ (text ++ t))) :
    DollarFree text ∧ ∀ q ∈ marks, (∃ r, q = 123 :: r) → ¬ q <:+: text := by
  obtain ⟨p, rfl⟩ := hmark
  obtain ⟨x, rfl⟩ := hhead
  obtain ⟨word, rfl⟩ := hrest
  obtain ⟨R, hR, he, hmarks⟩ := h
  have he' := hR.peel_append he
  obtain ⟨hfree, -⟩ := Transparent.expand_exact hR (by decide) (by simp [substitutionEscape])
    substitutionEscape_head (fun t => hR.head_ne (by decide)) he'
  have hdollar := (escapeFree_iff_dollarFree _ _ _ _).mp hfree
  rw [getSubstitution_of_dollarFree hdollar] at he'
  refine ⟨hdollar, ?_⟩
  rintro q hq ⟨r, rfl⟩
  exact hR.not_infix_of_copied (hmarks _ hq) he'

/-! ## The whole chain -/

/-- The fixed text and placeholders behind the user's code, and behind each JSON text after it. -/
def nonceRest : JsString := nonceLine ++ (nonceMark ++ templateTail)
def methodNameRest : JsString := methodNameLine ++ (methodNameMark ++ nonceRest)
def testCasesRest : JsString := testCasesLine ++ (testCasesMark ++ methodNameRest)

theorem pythonHarnessTemplate_eq :
    pythonHarnessTemplate = markedHead ++ (userCodeMark ++ testCasesRest) := by
  rw [pythonHarnessTemplate, fillTemplate_eq]
  rfl

/-- The last three replacements fill in the limits and nothing else. -/
theorem replace_limits (word : JsString) :
    replace (replace (replace (markedHead ++ word) userStdoutLimitMark (digitUnits userStdoutChars))
      caseErrorLimitMark (digitUnits caseErrorChars))
      harnessPayloadLimitMark (digitUnits harnessPayloadChars) =
    scriptHead (digitUnits userStdoutChars) (digitUnits caseErrorChars)
      (digitUnits harnessPayloadChars) ++ word := by
  have h1 : ∀ w, PassedBy userStdoutLimitMark (templateHead ++ js "_USER_STDOUT_LIMIT = ") w :=
    fun w => PassedBy.of_not_mem (by decide)
  have h2 : ∀ w, PassedBy caseErrorLimitMark (templateHead ++ js "_USER_STDOUT_LIMIT = " ++
      (digitUnits userStdoutChars ++ (newline :: js "_CASE_ERROR_LIMIT = "))) w :=
    fun w => PassedBy.of_not_mem (by decide)
  have h3 : ∀ w, PassedBy harnessPayloadLimitMark (templateHead ++ js "_USER_STDOUT_LIMIT = " ++
      (digitUnits userStdoutChars ++ (newline :: js "_CASE_ERROR_LIMIT = " ++
        (digitUnits caseErrorChars ++ (newline :: js "_HARNESS_PAYLOAD_LIMIT = "))))) w :=
    fun w => PassedBy.of_not_mem (by decide)
  have hplace : ∀ {mark x limit : JsString}, (∀ w, PassedBy mark x w) → DollarFree limit →
      ∀ w, replace (x ++ (mark ++ w)) mark limit = x ++ (limit ++ w) := by
    intro mark x limit hx hlimit w
    rw [replace_passed (hx _), getSubstitution_of_dollarFree hlimit]
  have e1 := hplace h1 (by decide : DollarFree (digitUnits userStdoutChars))
  have e2 := hplace h2 (by decide : DollarFree (digitUnits caseErrorChars))
  have e3 := hplace h3 (by decide : DollarFree (digitUnits harnessPayloadChars))
  simp only [List.append_assoc, List.cons_append] at e1 e2 e3
  simp only [markedHead, scriptHead, List.append_assoc, List.cons_append]
  rw [e1, e2, e3]

/-- When the embedding is exact: no JSON text has a dollar escape, and none has the placeholder of a
text that is filled in after it. -/
structure EmbedsCleanly (userCode testCases methodName nonce : JsString) : Prop where
  userCode_dollar : DollarFree userCode
  testCases_dollar : DollarFree testCases
  methodName_dollar : DollarFree methodName
  nonce_dollar : DollarFree nonce
  userCode_testCases : ¬ testCasesMark <:+: userCode
  userCode_methodName : ¬ methodNameMark <:+: userCode
  userCode_nonce : ¬ nonceMark <:+: userCode
  testCases_methodName : ¬ methodNameMark <:+: testCases
  testCases_nonce : ¬ nonceMark <:+: testCases
  methodName_nonce : ¬ nonceMark <:+: methodName

section Chain
variable {u t m n : JsString}

theorem Rewrites.of_nonce {before after : JsString}
    (h : replace (markedHead ++ before) nonceMark (34 :: n) = markedHead ++ after) :
    Rewrites [nonceMark] before after := by
  obtain ⟨s, hs⟩ := exists_replace_markedHead (by decide : nonceMark ∈ jsonMarks)
    (by decide : 34 ≠ dollar) n before
  rw [hs, List.append_cancel_left_eq] at h
  subst h
  exact Rewrites.step 34 (by decide) (by decide) (by simp) (Rewrites.refl _)

theorem Rewrites.of_methodName {before after : JsString}
    (h : replace (replace (markedHead ++ before) methodNameMark (34 :: m)) nonceMark (34 :: n) =
      markedHead ++ after) : Rewrites [methodNameMark, nonceMark] before after := by
  obtain ⟨s, hs⟩ := exists_replace_markedHead (by decide : methodNameMark ∈ jsonMarks)
    (by decide : 34 ≠ dollar) m before
  rw [hs] at h
  refine Rewrites.step 34 (by decide) (by decide) ?_ (Rewrites.of_nonce h)
  intro q hq w
  rw [List.mem_singleton] at hq
  subst hq
  exact PassedBy.of_clash (by decide) (by decide) (by decide)

theorem Rewrites.of_testCases {before after : JsString}
    (h : replace (replace (replace (markedHead ++ before) testCasesMark (91 :: t))
      methodNameMark (34 :: m)) nonceMark (34 :: n) = markedHead ++ after) :
    Rewrites [testCasesMark, methodNameMark, nonceMark] before after := by
  obtain ⟨s, hs⟩ := exists_replace_markedHead (by decide : testCasesMark ∈ jsonMarks)
    (by decide : 91 ≠ dollar) t before
  rw [hs] at h
  refine Rewrites.step 91 (by decide) (by decide) ?_ (Rewrites.of_methodName h)
  intro q hq w
  simp only [List.mem_cons, List.not_mem_nil, or_false] at hq
  rcases hq with rfl | rfl
  · exact PassedBy.of_clash (by decide) (by decide) (by decide)
  · exact PassedBy.of_clash (by decide) (by decide) (by decide)

/-- The script up to the second, third and fourth placeholder, with the earlier texts placed. -/
def headToTestCases (u : JsString) : JsString := markedHead ++ (u ++ testCasesLine)
def headToMethodName (u t : JsString) : JsString := headToTestCases u ++ (t ++ methodNameLine)
def headToNonce (u t m : JsString) : JsString := headToMethodName u t ++ (m ++ nonceLine)

/-- A placed text without the placeholder, with the fixed line behind it, is passed over. -/
theorem passedBy_placed {p x text line : JsString} (hx : ∀ w, PassedBy (123 :: p) x w)
    (hmark : newline ∉ 123 :: p) (htext : ¬ (123 :: p) <:+: text) (hline : 123 ∉ newline :: line)
    (w : JsString) : PassedBy (123 :: p) (x ++ (text ++ newline :: line)) w := by
  refine (hx _).append (PassedBy.append ?_ (PassedBy.of_not_mem hline))
  exact PassedBy.of_not_infix hmark htext

theorem passedBy_headToTestCases {mark : JsString}
    (hmark : mark = testCasesMark ∨ mark = methodNameMark ∨ mark = nonceMark)
    (hu : ¬ mark <:+: u) (w : JsString) : PassedBy mark (headToTestCases u) w := by
  rcases hmark with rfl | rfl | rfl <;>
    exact passedBy_placed (passedBy_markedHead (by decide)) (by decide) hu (by decide) w

theorem passedBy_headToMethodName {mark : JsString}
    (hmark : mark = methodNameMark ∨ mark = nonceMark) (hu : ¬ mark <:+: u) (ht : ¬ mark <:+: t)
    (w : JsString) : PassedBy mark (headToMethodName u t) w := by
  rcases hmark with rfl | rfl <;>
    exact passedBy_placed (passedBy_headToTestCases (by decide) hu) (by decide) ht (by decide) w

theorem passedBy_headToNonce (hu : ¬ nonceMark <:+: u) (ht : ¬ nonceMark <:+: t)
    (hm : ¬ nonceMark <:+: m) (w : JsString) : PassedBy nonceMark (headToNonce u t m) w :=
  passedBy_placed (passedBy_headToMethodName (by decide) hu ht) (by decide) hm (by decide) w

/-- The head of the script starts with a letter, so no escape can stand for a text in `$`. -/
theorem headToTestCases_cons (u : JsString) : ∃ x, headToTestCases u = 105 :: x := ⟨_, rfl⟩
theorem headToMethodName_cons (u t : JsString) : ∃ x, headToMethodName u t = 105 :: x := ⟨_, rfl⟩
theorem headToNonce_cons (u t m : JsString) : ∃ x, headToNonce u t m = 105 :: x := ⟨_, rfl⟩

theorem replace_userCode (u : JsString) :
    replace pythonHarnessTemplate userCodeMark u = markedHead ++
      (getSubstitution userCodeMark (markedHead ++ (userCodeMark ++ testCasesRest))
        markedHead.length u ++ testCasesRest) := by
  rw [pythonHarnessTemplate_eq, replace_passed (passedBy_markedHead (by decide) _)]

theorem replace_testCases (hu : ¬ testCasesMark <:+: u) (t : JsString) :
    replace (markedHead ++ (u ++ testCasesRest)) testCasesMark t = markedHead ++
      (u ++ testCasesLine ++ (getSubstitution testCasesMark (headToTestCases u ++
        (testCasesMark ++ methodNameRest)) (headToTestCases u).length t ++ methodNameRest)) := by
  have h := replace_passed (passedBy_headToTestCases (by decide) hu (testCasesMark ++ methodNameRest)) t
  simpa only [headToTestCases, testCasesRest, List.append_assoc] using h

theorem replace_methodName (hu : ¬ methodNameMark <:+: u) (ht : ¬ methodNameMark <:+: t)
    (m : JsString) :
    replace (markedHead ++ (u ++ testCasesLine ++ (t ++ methodNameRest))) methodNameMark m =
      markedHead ++ (u ++ testCasesLine ++ (t ++ methodNameLine) ++ (getSubstitution methodNameMark
        (headToMethodName u t ++ (methodNameMark ++ nonceRest)) (headToMethodName u t).length m ++
          nonceRest)) := by
  have h := replace_passed (passedBy_headToMethodName (by decide) hu ht (methodNameMark ++ nonceRest)) m
  simpa only [headToMethodName, headToTestCases, methodNameRest, List.append_assoc] using h

theorem replace_nonce (hu : ¬ nonceMark <:+: u) (ht : ¬ nonceMark <:+: t) (hm : ¬ nonceMark <:+: m)
    (n : JsString) :
    replace (markedHead ++ (u ++ testCasesLine ++ (t ++ methodNameLine) ++ (m ++ nonceRest)))
      nonceMark n =
      markedHead ++ (u ++ testCasesLine ++ (t ++ methodNameLine) ++ (m ++ nonceLine) ++
        (getSubstitution nonceMark (headToNonce u t m ++ (nonceMark ++ templateTail))
          (headToNonce u t m).length n ++ templateTail)) := by
  have h := replace_passed (passedBy_headToNonce hu ht hm (nonceMark ++ templateTail)) n
  simpa only [headToNonce, headToMethodName, headToTestCases, nonceRest, List.append_assoc] using h

/-- The four replacements, on texts with the first letters that JSON gives them. -/
theorem replace_chain_iff :
    replace (replace (replace (replace pythonHarnessTemplate userCodeMark (34 :: u)) testCasesMark
      (91 :: t)) methodNameMark (34 :: m)) nonceMark (34 :: n) =
        markedHead ++ (34 :: u ++ testCasesLine ++ (91 :: t ++ methodNameLine) ++
          (34 :: m ++ nonceLine) ++ (34 :: n ++ templateTail)) ↔
      EmbedsCleanly (34 :: u) (91 :: t) (34 :: m) (34 :: n) := by
  constructor
  · intro h
    -- peel one text at a time: the replacements after it must leave it alone
    rw [replace_userCode] at h
    simp only [List.append_assoc] at h
    obtain ⟨hud, hum⟩ := Rewrites.exact (y := []) ⟨_, rfl⟩ ⟨_, rfl⟩ ⟨_, rfl⟩
      (Rewrites.of_testCases h)
    have hut := hum testCasesMark (by simp) ⟨_, rfl⟩
    have hum' := hum methodNameMark (by simp) ⟨_, rfl⟩
    have hun := hum nonceMark (by simp) ⟨_, rfl⟩
    rw [getSubstitution_of_dollarFree hud, replace_testCases hut] at h
    rw [← List.append_assoc (34 :: u)] at h
    obtain ⟨htd, htm⟩ := Rewrites.exact ⟨_, rfl⟩ (headToTestCases_cons _) ⟨_, rfl⟩
      (Rewrites.of_methodName h)
    have htm' := htm methodNameMark (by simp) ⟨_, rfl⟩
    have htn := htm nonceMark (by simp) ⟨_, rfl⟩
    rw [getSubstitution_of_dollarFree htd, replace_methodName hum' htm'] at h
    rw [← List.append_assoc (91 :: t) methodNameLine (34 :: m ++ _),
      ← List.append_assoc (34 :: u ++ testCasesLine) (91 :: t ++ methodNameLine) (34 :: m ++ _)] at h
    obtain ⟨hmd, hmm⟩ := Rewrites.exact ⟨_, rfl⟩ (headToMethodName_cons _ _) ⟨_, rfl⟩
      (Rewrites.of_nonce h)
    have hmn := hmm nonceMark (by simp) ⟨_, rfl⟩
    rw [← List.append_assoc (34 :: m) nonceLine (34 :: n ++ _),
      ← List.append_assoc _ (34 :: m ++ nonceLine) (34 :: n ++ _)] at h
    rw [getSubstitution_of_dollarFree hmd, replace_nonce hun htn hmn,
      List.append_cancel_left_eq] at h
    have hlast := Rewrites.refl (34 :: u ++ testCasesLine ++ (91 :: t ++ methodNameLine) ++
      (34 :: m ++ nonceLine) ++ (34 :: n ++ templateTail))
    nth_rewrite 1 [← h] at hlast
    obtain ⟨hnd, -⟩ := Rewrites.exact ⟨_, rfl⟩ (headToNonce_cons _ _ _) ⟨_, rfl⟩ hlast
    exact ⟨hud, htd, hmd, hnd, hut, hum', hun, htm', htn, hmn⟩
  · intro h
    rw [replace_userCode, getSubstitution_of_dollarFree h.userCode_dollar,
      replace_testCases h.userCode_testCases, getSubstitution_of_dollarFree h.testCases_dollar,
      replace_methodName h.userCode_methodName h.testCases_methodName,
      getSubstitution_of_dollarFree h.methodName_dollar,
      replace_nonce h.userCode_nonce h.testCases_nonce h.methodName_nonce,
      getSubstitution_of_dollarFree h.nonce_dollar]

end Chain

/-! ## The script -/

/-- The condition on the JSON texts, stated on the values themselves. -/
structure EmbeddableValues (userCode : JsString) (testCaseInputs : List TestCaseInput)
    (methodName nonce : JsString) : Prop where
  dollarFree : ∀ s ∈ userCode :: methodName :: nonce :: (testCasesJson testCaseInputs).texts,
    DollarFree s
  userCode_marks : ∀ mark ∈ [testCasesMark, methodNameMark, nonceMark], ¬ mark <:+: userCode
  testCases_marks : ∀ s ∈ (testCasesJson testCaseInputs).texts,
    ∀ mark ∈ [methodNameMark, nonceMark], ¬ mark <:+: s
  methodName_marks : ¬ nonceMark <:+: methodName

theorem foreign_dollar {c : ℕ} (hc : c ∈ [36, 38, 96, 39]) : Foreign dollar [c] where
  first := Or.inl rfl
  plain := by
    simp only [List.mem_cons, List.not_mem_nil, or_false] at hc
    rcases hc with rfl | rfl | rfl | rfl <;> decide

theorem foreign_mark {mark : JsString} (h : mark ∈ [testCasesMark, methodNameMark, nonceMark]) :
    ∃ p, mark = 123 :: p ∧ Foreign 123 p := by
  simp only [List.mem_cons, List.not_mem_nil, or_false] at h
  rcases h with rfl | rfl | rfl
  · exact ⟨_, rfl, Or.inr ⟨rfl, _, _, rfl, by decide, by decide⟩, by decide⟩
  · exact ⟨_, rfl, Or.inr ⟨rfl, _, _, rfl, by decide, by decide⟩, by decide⟩
  · exact ⟨_, rfl, Or.inr ⟨rfl, _, _, rfl, by decide, by decide⟩, by decide⟩

theorem dollarFree_stringify (v : Json) : DollarFree v.stringify ↔ ∀ s ∈ v.texts, DollarFree s := by
  constructor
  · intro h s hs c hc hi
    exact h c hc ((Json.infix_stringify (foreign_dollar hc) v).mpr ⟨s, hs, hi⟩)
  · intro h c hc hi
    obtain ⟨s, hs, hi⟩ := (Json.infix_stringify (foreign_dollar hc) v).mp hi
    exact h s hs c hc hi

theorem mark_stringify {mark : JsString} (h : mark ∈ [testCasesMark, methodNameMark, nonceMark])
    (v : Json) : ¬ mark <:+: v.stringify ↔ ∀ s ∈ v.texts, ¬ mark <:+: s := by
  obtain ⟨p, rfl, hp⟩ := foreign_mark h
  rw [Json.infix_stringify hp]
  push Not
  rfl

theorem embedsCleanly_iff (userCode : JsString) (testCaseInputs : List TestCaseInput)
    (methodName nonce : JsString) :
    EmbedsCleanly (Json.str userCode).stringify (testCasesJson testCaseInputs).stringify
      (Json.str methodName).stringify (Json.str nonce).stringify ↔
    EmbeddableValues userCode testCaseInputs methodName nonce := by
  have htext : ∀ s : JsString, (Json.str s).texts = [s] := fun s => rfl
  have hc : testCasesMark ∈ [testCasesMark, methodNameMark, nonceMark] := by simp
  have hm : methodNameMark ∈ [testCasesMark, methodNameMark, nonceMark] := by simp
  have hn : nonceMark ∈ [testCasesMark, methodNameMark, nonceMark] := by simp
  constructor
  · rintro ⟨h1, h2, h3, h4, h5, h6, h7, h8, h9, h10⟩
    rw [dollarFree_stringify] at h1 h2 h3 h4
    rw [mark_stringify hc] at h5
    rw [mark_stringify hm] at h6 h8
    rw [mark_stringify hn] at h7 h9 h10
    simp only [htext, List.mem_singleton, forall_eq] at h1 h3 h4 h5 h6 h7 h10
    refine ⟨?_, ?_, ?_, h10⟩
    · simp only [List.mem_cons, forall_eq_or_imp]
      exact ⟨h1, h3, h4, h2⟩
    · simp [h5, h6, h7]
    · intro s hs
      simp [h8 s hs, h9 s hs]
  · rintro ⟨hd, hu, ht, hlast⟩
    simp only [List.mem_cons, forall_eq_or_imp, List.not_mem_nil, false_imp_iff, implies_true,
      and_true] at hd hu ht
    obtain ⟨h1, h3, h4, h2⟩ := hd
    obtain ⟨h5, h6, h7⟩ := hu
    refine ⟨?_, ?_, ?_, ?_, ?_, ?_, ?_, ?_, ?_, ?_⟩
    · rwa [dollarFree_stringify, htext, List.forall_mem_singleton]
    · rwa [dollarFree_stringify]
    · rwa [dollarFree_stringify, htext, List.forall_mem_singleton]
    · rwa [dollarFree_stringify, htext, List.forall_mem_singleton]
    · rwa [mark_stringify hc, htext, List.forall_mem_singleton]
    · rwa [mark_stringify hm, htext, List.forall_mem_singleton]
    · rwa [mark_stringify hn, htext, List.forall_mem_singleton]
    · exact (mark_stringify hm _).mpr fun s hs => (ht s hs).1
    · exact (mark_stringify hn _).mpr fun s hs => (ht s hs).2
    · rwa [mark_stringify hn, htext, List.forall_mem_singleton]

/-- The four texts never reach into the head of the script. -/
theorem exists_chain_markedHead (u t m n : JsString) :
    ∃ word, replace (replace (replace (replace pythonHarnessTemplate userCodeMark (34 :: u))
      testCasesMark (91 :: t)) methodNameMark (34 :: m)) nonceMark (34 :: n) = markedHead ++ word := by
  obtain ⟨s1, h1⟩ := exists_replace_markedHead (by decide : userCodeMark ∈ jsonMarks)
    (by decide : 34 ≠ dollar) u (userCodeMark ++ testCasesRest)
  rw [pythonHarnessTemplate_eq, h1]
  obtain ⟨s2, h2⟩ := exists_replace_markedHead (by decide : testCasesMark ∈ jsonMarks)
    (by decide : 91 ≠ dollar) t _
  rw [h2]
  obtain ⟨s3, h3⟩ := exists_replace_markedHead (by decide : methodNameMark ∈ jsonMarks)
    (by decide : 34 ≠ dollar) m _
  rw [h3]
  obtain ⟨s4, h4⟩ := exists_replace_markedHead (by decide : nonceMark ∈ jsonMarks)
    (by decide : 34 ≠ dollar) n _
  exact ⟨_, h4⟩

/-- The script on the JSON texts: exact when each text survives the later replacements. -/
theorem script_eq_iff_embedsCleanly (userCode : JsString) (testCaseInputs : List TestCaseInput)
    (methodName nonce : JsString) :
    buildPythonHarness userCode testCaseInputs methodName nonce =
        exactScript userCode testCaseInputs methodName nonce ↔
      EmbedsCleanly (Json.str userCode).stringify (testCasesJson testCaseInputs).stringify
        (Json.str methodName).stringify (Json.str nonce).stringify := by
  have hstr : ∀ s : JsString, (Json.str s).stringify = 34 :: (escapeUnits s ++ [34]) := fun s => rfl
  obtain ⟨t, ht⟩ : ∃ t, (testCasesJson testCaseInputs).stringify = 91 :: t := ⟨_, rfl⟩
  unfold buildPythonHarness exactScript
  rw [hstr, hstr, hstr, ht, ← replace_chain_iff, fillTemplate_eq]
  obtain ⟨word, hword⟩ := exists_chain_markedHead (escapeUnits userCode ++ [34]) t
    (escapeUnits methodName ++ [34]) (escapeUnits nonce ++ [34])
  dsimp only
  rw [hword, replace_limits, List.append_cancel_left_eq, List.append_cancel_left_eq]
  simp only [List.append_assoc]

/-- **Exact embedding.** The script is the template with every placeholder replaced by its own value
exactly when no value has a dollar escape and none has the placeholder of a later value. -/
theorem buildPythonHarness_eq_exactScript_iff (userCode : JsString)
    (testCaseInputs : List TestCaseInput) (methodName nonce : JsString) :
    buildPythonHarness userCode testCaseInputs methodName nonce =
        exactScript userCode testCaseInputs methodName nonce ↔
      EmbeddableValues userCode testCaseInputs methodName nonce := by
  rw [script_eq_iff_embedsCleanly, embedsCleanly_iff]

/-- A program with `$$` loses a dollar sign, and one that mentions `{nonce_json}` gets the nonce. -/
theorem buildPythonHarness_not_exact :
    buildPythonHarness (js "print('$$')") [] (js "solve") (js "7f3a") ≠
        exactScript (js "print('$$')") [] (js "solve") (js "7f3a") ∧
      buildPythonHarness (js "print('\x7bnonce_json\x7d')") [] (js "solve") (js "7f3a") ≠
        exactScript (js "print('\x7bnonce_json\x7d')") [] (js "solve") (js "7f3a") := by
  constructor
  · intro h
    rw [script_eq_iff_embedsCleanly, embedsCleanly_iff] at h
    exact absurd (h.dollarFree _ List.mem_cons_self) (by decide)
  · intro h
    rw [script_eq_iff_embedsCleanly, embedsCleanly_iff] at h
    exact absurd (h.userCode_marks nonceMark (by simp)) (by decide)

end CodeShare.Harness
