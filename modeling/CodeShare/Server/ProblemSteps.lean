import CodeShare.Server.Frames

/-! # When the problem changes

Only the end of `problem:select` and of `problem:import` puts a problem into the room. Every other
segment leaves the problem and what a new problem resets to the handlers that own these fields.
-/

namespace CodeShare
open Tasks
set_option autoImplicit false

/-- The problem that a segment puts into the room. -/
def loads : ServerTrigger → Option ProblemId
  | .task (.selecting _ _) (.detail (some detail))
  | .task (.importLoad _ _) (.detail (some detail)) => some detail.id
  | _ => none

/-- What `loadProblemIntoRoom` does to the room. -/
structure Switched (s : Server) (p : ProblemId) (g : Step) : Prop where
  room : ∃ hintLimit importsUsed, g.state.room =
    { s.room.switchProblem p hintLimit s.now with importsUsed := importsUsed }
  next : g.next = []
  out : notes g.out = [.problemSwitched p]

variable {cfg : Config} {s : Server} {t : ServerTrigger} {o : Outcome} {g : Step}

theorem fire_switched {p : ProblemId} (h : (server cfg).fire s t = some g) (hload : loads t = some p) :
    Switched s p g := by
  unfold loads at hload
  split at hload
  · rename_i socket problemId detail
    cases hload
    change afterSelecting cfg s socket problemId (.detail (some detail)) = some g at h
    simp only [afterSelecting] at h
    split_ifs at h
    cases h
    exact ⟨⟨hintLimitByDifficulty detail.difficulty, s.room.importsUsed, rfl⟩, rfl,
      by simp [loadProblemIntoRoom, Effect.family]⟩
  · rename_i socket problemId detail
    cases hload
    change afterImportLoad cfg s socket problemId (.detail (some detail)) = some g at h
    simp only [afterImportLoad] at h
    split_ifs at h
    cases h
    exact ⟨⟨hintLimitByDifficulty detail.difficulty, s.room.importsUsed + 1, rfl⟩, rfl,
      by simp [loadProblemIntoRoom, Effect.family]⟩
  · cases hload

/-- The problem handlers change nothing before they load. -/
structure Unswitched (s : Server) (g : Step) : Prop where
  state : g.state = s
  out : ∀ e ∈ notes g.out, ∀ p, e ≠ .problemSwitched p

theorem Unswitched.of_quiet (hstate : g.state = s) (hout : notes g.out = []) : Unswitched s g where
  state := hstate
  out := by simp [hout]

theorem handleProblemSelect_unswitched (s : Server) (socket : SocketId) (id : Option ProblemId) :
    Unswitched s (handleProblemSelect s socket id) := by
  unfold handleProblemSelect
  split <;> exact .of_quiet rfl (by simp)

theorem handleProblemImport_unswitched (cfg : Config) (s : Server) (socket : SocketId)
    (url : Option JsString) : Unswitched s (handleProblemImport cfg s socket url) := by
  unfold handleProblemImport
  split
  · exact .of_quiet rfl rfl
  · split_ifs
    · exact .of_quiet rfl (by simp)
    · split <;> exact .of_quiet rfl (by simp)

theorem afterImportFailure_unswitched (s : Server) (socket : SocketId) (reason : Failure) :
    Unswitched s (afterImportFailure s socket reason) := by
  cases reason <;> exact .of_quiet rfl (by simp [afterImportFailure])

theorem fire_unswitched (h : (server cfg).fire s t = some g) (hf : triggerFamily t = .problem)
    (hload : loads t = none) : Unswitched s g := by
  cases t with
  | event e => cases hf
  | task t o =>
    change resumeTask cfg s t o = some g at h
    cases t with
    | admitted socket event seen =>
      cases o <;> cases h
      unfold runHandler
      split
      · exact .of_quiet rfl rfl
      · cases event with
        | problemSelect id => exact handleProblemSelect_unswitched s socket id
        | problemImport url => exact handleProblemImport_unswitched cfg s socket url
        | _ => cases hf
    | selecting socket p =>
      change afterSelecting cfg s socket p o = some g at h
      unfold afterSelecting at h
      split at h
      · cases hload
      · cases h; exact .of_quiet rfl (by simp)
      · cases h; exact .of_quiet rfl (by simp)
      · cases h
    | importIpLimiter socket url =>
      change afterImportIpLimiter s socket url o = some g at h
      unfold afterImportIpLimiter at h
      split at h
      · split_ifs at h <;> cases h <;> exact .of_quiet rfl (by simp)
      · cases h; exact .of_quiet rfl (by simp)
      · cases h; exact .of_quiet rfl (by simp [Effect.family])
      · cases h
    | importQuota socket url =>
      change afterImportQuota cfg s socket url o = some g at h
      unfold afterImportQuota at h
      split at h
      · dsimp only at h
        split_ifs at h <;> cases h <;> exact .of_quiet rfl (by simp)
      · cases h; exact .of_quiet rfl (by simp)
      · cases h; exact .of_quiet rfl (by simp [Effect.family])
      · cases h
    | importLimiter socket url =>
      change afterImportLimiter s socket url o = some g at h
      unfold afterImportLimiter at h
      split at h <;> cases h <;> exact .of_quiet rfl (by simp)
    | importReserve socket url =>
      change afterImportReserve s socket url o = some g at h
      unfold afterImportReserve at h
      split at h <;> cases h
      · exact ⟨rfl, by simp [Effect.family]⟩
      · exact .of_quiet rfl (by simp)
      · exact .of_quiet rfl (by simp)
    | importScrape socket url =>
      change afterImportScrape s socket o = some g at h
      unfold afterImportScrape at h
      split at h <;> cases h <;> exact .of_quiet rfl (by simp)
    | importLoad socket p =>
      change afterImportLoad cfg s socket p o = some g at h
      unfold afterImportLoad at h
      split at h
      · cases hload
      · cases h; exact afterImportFailure_unswitched s socket _
      · cases h; exact afterImportFailure_unswitched s socket _
      · cases h
    | importFailing socket reason =>
      cases o <;> cases h
      exact afterImportFailure_unswitched s socket reason
    | _ => cases hf

theorem triggerFamily_of_loads {p : ProblemId} (h : loads t = some p) :
    triggerFamily t = .problem := by
  unfold loads at h
  split at h <;> first | rfl | cases h

/-- A field that only the problem handlers change stays when nothing is loaded. -/
theorem fire_observe {α : Type} {φ : Server → α} (h : (server cfg).fire s t = some g)
    (hload : loads t = none)
    (hφ : ∀ f : Family, f ≠ .problem → triggerFamily t = f → ∀ s, φ (f.erase s) = φ s) :
    φ g.state = φ s := by
  by_cases hf : triggerFamily t = .problem
  · rw [(fire_unswitched h hf hload).state]
  · exact (fire_within h).observe φ (hφ _ hf rfl)

theorem fire_problemId (h : (server cfg).fire s t = some g) (hload : loads t = none) :
    g.state.room.problemId = s.room.problemId := by
  refine fire_observe (φ := fun s : Server => s.room.problemId) h hload ?_
  rintro f hf -
  cases f <;> first | exact fun _ => rfl | exact absurd rfl hf

/-! ## Custom test cases -/

/-- The custom test case that a segment stores, with the problem it was checked against. -/
def stores (s : Server) : ServerTrigger → Option StoredTestCase
  | .task (.addingTestCase _ testCase problemId) (.boilerplate found) =>
    if matchesParameters testCase found ∧
        s.room.customTestCases.length < s.room.customTestCaseLimit then
      some ⟨testCase, problemId⟩
    else none
  | _ => none

theorem afterAddingTestCase_stores {socket : SocketId} {testCase : CustomTestCase} {p : ProblemId} {o : Outcome}
    (h : afterAddingTestCase s socket testCase p o = some g) :
    (∃ message, stores s (.task (.addingTestCase socket testCase p) o) = none ∧
      g = emitTestcaseError (.of s) socket message) ∨
    (stores s (.task (.addingTestCase socket testCase p) o) = some ⟨testCase, p⟩ ∧
      g = (Segment.of (s.addTestCase ⟨testCase, p⟩)).toRoom (.testcaseAdded testCase)) := by
  rcases afterAddingTestCase_cases h with ⟨message, hnot, rfl⟩ | ⟨found, rfl, hfits, rfl⟩
  · refine .inl ⟨message, ?_, rfl⟩
    cases o with
    | boilerplate found => exact if_neg (hnot found rfl)
    | _ => rfl
  · exact .inr ⟨if_pos hfits, rfl⟩

theorem fire_testCase (h : (server cfg).fire s t = some g) (hf : triggerFamily t = .testCase) :
    g.state.room.customTestCases = s.room.customTestCases ++ (stores s t).toList := by
  cases t with
  | event e => cases hf
  | task t o =>
    change resumeTask cfg s t o = some g at h
    cases t with
    | admitted socket event seen =>
      cases o <;> cases h
      rw [show stores s (.task (.admitted socket event seen) .go) = none from rfl]
      have hstate : (runHandler cfg s socket seen event).state = s := by
        unfold runHandler
        split
        · rfl
        · cases event with
          | testcaseAdd data =>
            dsimp only
            rcases handleTestcaseAdd_cases s socket data with ⟨-, heq⟩ | ⟨_, heq⟩ | ⟨_, _, -, heq⟩ <;> rw [heq] <;> rfl
          | _ => cases hf
      rw [hstate, Option.toList_none, List.append_nil]
    | addingTestCase socket testCase p =>
      rcases afterAddingTestCase_stores h with ⟨message, hstores, rfl⟩ | ⟨hstores, rfl⟩
      · rw [hstores]
        exact (List.append_nil _).symm
      · rw [hstores]
        rfl
    | _ => cases hf

end CodeShare
