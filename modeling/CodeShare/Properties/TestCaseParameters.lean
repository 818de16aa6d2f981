import CodeShare.Server.ProblemSteps
import CodeShare.Services.Parsers
import CodeShare.Services.TestCaseGenerator
import Mathlib.Data.List.Dedup

/-! # Test cases and the parameters of their problem

The harness calls `method(**input)`, so the keys of an input must be the parameters. The three ways in
which test cases arise check this on their own, and only `testcase:add` does so completely: an import
asks for no more than that every parameter is *in* the input, and the generator takes an array for an
object.
-/

namespace CodeShare
open Tasks
set_option autoImplicit false

/-- The keys are the parameters. -/
def KeysAre (keys parameterNames : List JsString) : Prop := ∀ key, key ∈ keys ↔ key ∈ parameterNames

/-- What `method(**input)` accepts. -/
def BindsParameters (parameterNames : List JsString) : ParsedJson → Prop
  | .obj members => KeysAre (members.map Prod.fst) parameterNames
  | _ => False

/-- An input text assigns parameters only, and those whose name every object inherits, too. -/
structure AssignsParameters (input : JsString) (parameterNames : List JsString) : Prop where
  known : ∀ name ∈ (inputAssignments input).map assignedName, name ∈ parameterNames
  inherited : ∀ name ∈ parameterNames, name ∈ inheritedNames →
    name ∈ (inputAssignments input).map assignedName

/-! ## Imports -/

section
variable {β : Type}

theorem mem_keys_setProperty {members : List (JsString × β)} {key k : JsString} {value : β} :
    k ∈ (setProperty members key value).map Prod.fst ↔ k ∈ members.map Prod.fst ∨ k = key := by
  unfold setProperty
  split_ifs with hold
  · have hkeys : (members.map fun member => if member.1 = key then (key, value) else member).map
        Prod.fst = members.map Prod.fst := by
      rw [List.map_map]
      refine List.map_congr_left fun member _ => ?_
      rw [Function.comp_apply]
      split_ifs with hkey
      · exact hkey.symm
      · rfl
    rw [hkeys]
    constructor
    · exact Or.inl
    · rintro (hk | rfl)
      · exact hk
      · exact hold
  · simp

theorem mem_keys_foldl_setProperty {entries members : List (JsString × β)} {k : JsString} :
    k ∈ (entries.foldl (fun members entry => setProperty members entry.1 entry.2) members).map
        Prod.fst ↔ k ∈ members.map Prod.fst ∨ k ∈ entries.map Prod.fst := by
  induction entries generalizing members with
  | nil => simp
  | cons entry entries ih =>
    rw [List.foldl_cons, ih, mem_keys_setProperty, List.map_cons, List.mem_cons, or_assoc]

theorem mem_keys_fromEntries {entries : List (JsString × β)} {k : JsString} :
    k ∈ (fromEntries entries).map Prod.fst ↔ k ∈ entries.map Prod.fst := by
  unfold fromEntries
  rw [((propertyOrder_perm _).map Prod.fst).mem_iff, mem_keys_foldl_setProperty]
  simp

/-- What `mapM` returns comes element by element. -/
theorem forall₂_of_mapM {α ε : Type} {f : α → Except ε β} {l : List α} {l' : List β}
    (h : l.mapM f = .ok l') : List.Forall₂ (fun a b => f a = .ok b) l l' := by
  induction l generalizing l' with
  | nil =>
    obtain rfl := Except.ok.inj h
    exact .nil
  | cons a l ih =>
    rw [List.mapM_cons] at h
    cases hfirst : f a with
    | error e => rw [hfirst] at h; cases h
    | ok b =>
      rw [hfirst] at h
      cases hrest : l.mapM f with
      | error e => rw [hrest] at h; cases h
      | ok rest =>
        rw [hrest] at h
        obtain rfl := Except.ok.inj h
        exact .cons hfirst (ih hrest)

theorem forall_mem_iff_of_mapM {α ε : Type} {f : α → Except ε β} {P : β → Prop} {Q : α → Prop}
    {l : List α} {l' : List β} (hf : ∀ a b, f a = .ok b → (P b ↔ Q a)) (h : l.mapM f = .ok l') :
    (∀ b ∈ l', P b) ↔ ∀ a ∈ l, Q a := by
  have heach := forall₂_of_mapM h
  clear h
  induction heach with
  | nil => exact iff_of_true nofun nofun
  | cons hfirst _ ih =>
    rw [List.forall_mem_cons, List.forall_mem_cons]
    exact and_congr (hf _ _ hfirst) ih

theorem map_eq_of_mapM {α ε γ : Type} {f : α → Except ε β} {g : β → γ} {g' : α → γ} {l : List α}
    {l' : List β} (hf : ∀ a b, f a = .ok b → g b = g' a) (h : l.mapM f = .ok l') :
    l'.map g = l.map g' := by
  have heach := forall₂_of_mapM h
  clear h
  induction heach with
  | nil => rfl
  | cons hfirst _ ih => rw [List.map_cons, List.map_cons, hf _ _ hfirst, ih]

end

section
variable {parse : JsString → Except JsString ParsedJson} {number : JsString → ParsedJson}
  {input : JsString} {parameterNames : List JsString}

theorem parseAssignment_name {assignment : JsString} {entry : JsString × ParsedJson}
    (h : parseAssignment parse number assignment = .ok entry) : entry.1 = assignedName assignment := by
  unfold parseAssignment at h
  split_ifs at h
  split at h
  · cases h
  · obtain rfl := Except.ok.inj h
    rfl

theorem parseInputAssignments_keys {record : List (JsString × ParsedJson)}
    (h : parseInputAssignments parse number input parameterNames = .ok record) :
    (∀ key, key ∈ record.map Prod.fst ↔ key ∈ (inputAssignments input).map assignedName) ∧
      ∀ name ∈ parameterNames, name ∈ record.map Prod.fst ∨ name ∈ inheritedNames := by
  unfold parseInputAssignments at h
  split at h
  · cases h
  · rename_i parsed hparsed
    have hnames : parsed.map Prod.fst = (inputAssignments input).map assignedName :=
      map_eq_of_mapM (fun _ _ => parseAssignment_name) hparsed
    dsimp only at h
    split at h
    · cases h
    · rename_i hfound
      obtain rfl := Except.ok.inj h
      refine ⟨fun key => ?_, fun name hname => ?_⟩
      · rw [mem_keys_fromEntries, hnames]
      · have hin : isIn name (fromEntries parsed) = true := by
          simpa only [Bool.not_eq_true', Bool.not_eq_false] using List.find?_eq_none.mp hfound name hname
        unfold isIn at hin
        rwa [Bool.or_eq_true, decide_eq_true_eq, decide_eq_true_eq] at hin

/-- An accepted input has the parameters as its keys exactly when its text assigns them. -/
theorem parseInputAssignments_iff {record : List (JsString × ParsedJson)}
    (h : parseInputAssignments parse number input parameterNames = .ok record) :
    KeysAre (record.map Prod.fst) parameterNames ↔ AssignsParameters input parameterNames := by
  obtain ⟨hkeys, hin⟩ := parseInputAssignments_keys h
  constructor
  · intro hall
    exact ⟨fun name hname => (hall name).mp ((hkeys name).mpr hname),
      fun name hname _ => (hkeys name).mp ((hall name).mpr hname)⟩
  · rintro ⟨hknown, hinherited⟩ key
    constructor
    · intro hkey
      exact hknown key ((hkeys key).mp hkey)
    · intro hkey
      rcases hin key hkey with hown | hname
      · exact hown
      · exact (hkeys key).mpr (hinherited key hkey hname)

/-- The examples of an import. -/
theorem buildParsedExamples_iff {examples : List ExampleBlock} {parsed : List ParsedExample}
    (h : buildParsedExamples parse number examples parameterNames = .ok parsed) :
    (∀ case ∈ parsed, KeysAre (case.input.map Prod.fst) parameterNames) ↔
      ∀ block ∈ examples, AssignsParameters block.input parameterNames := by
  have hblocks : examples.zipIdx.map Prod.fst = examples := List.zipIdx_map_fst 0 examples
  rw [← hblocks, List.forall_mem_map]
  refine forall_mem_iff_of_mapM (fun indexed case hcase => ?_) h
  change parseExample parse number parameterNames indexed.1 indexed.2 = .ok case at hcase
  unfold parseExample at hcase
  split at hcase
  · cases hcase
  · rename_i record hrecord
    split at hcase
    · cases hcase
    · obtain rfl := Except.ok.inj hcase
      exact parseInputAssignments_iff hrecord

end

/-! ## Generated test cases -/

theorem keysAre_of_dedup {keys parameterNames : List JsString}
    (hlength : keys.dedup.length = parameterNames.dedup.length)
    (hsubset : ∀ name ∈ parameterNames, name ∈ keys) : KeysAre keys parameterNames := by
  have hsub : parameterNames.dedup.Subperm keys.dedup :=
    List.subperm_of_subset (List.nodup_dedup _) fun name hname =>
      List.mem_dedup.mpr (hsubset name (List.mem_dedup.mp hname))
  have hperm := hsub.perm_of_length_le hlength.le
  intro key
  rw [← List.mem_dedup, ← hperm.mem_iff, List.mem_dedup]

/-- A generated case that passes has an input under the parameters' names: an object or an array. -/
theorem structurallyValid_input {parameterNames : List JsString} {sampleOutputType : Option JsString}
    {c : ParsedJson} (h : structurallyValid parameterNames sampleOutputType c = true) :
    ∃ input, c.get (js "input") = some input ∧ KeysAre input.ownKeys parameterNames ∧
      ((∃ members, input = .obj members) ∨ ∃ items, input = .arr items) := by
  unfold structurallyValid at h
  split at h
  · rename_i input expectedOutput hinput houtput
    dsimp only at h
    split_ifs at h with htype hnull hlength hmissing
    refine ⟨input, hinput, keysAre_of_dedup (by simpa using hlength) ?_, ?_⟩
    · simpa using hmissing
    · cases input with
      | obj members => exact Or.inl ⟨members, rfl⟩
      | arr items => exact Or.inr ⟨items, rfl⟩
      | _ => simp [ParsedJson.typeOf, ParsedJson.truthy, js] at htype
  · cases h

/-! ## Custom test cases -/

/-- A test case that `testcase:add` stores has the parameters as its keys. -/
theorem afterAddingTestCase_keys {s : Server} {socket : SocketId} {testCase : CustomTestCase}
    {problemId : ProblemId} {boilerplate : BoilerplateTemplate} {g : Step}
    (h : afterAddingTestCase s socket testCase problemId (.boilerplate (some boilerplate)) = some g) :
    ∀ stored ∈ g.state.room.customTestCases, stored ∈ s.room.customTestCases ∨
      KeysAre (stored.input.map Prod.fst) boilerplate.parameterNames := by
  intro stored hstored
  rcases afterAddingTestCase_cases h with ⟨message, -, rfl⟩ | ⟨found, hfound, hfits, rfl⟩
  · exact Or.inl hstored
  · obtain rfl := Outcome.boilerplate.inj hfound
    rcases List.mem_append.mp hstored with hold | hnew
    · exact Or.inl hold
    · obtain rfl := List.mem_singleton.mp hnew
      refine Or.inr fun key => ?_
      have hsort : sortKeys (testCase.input.map Prod.fst) = sortKeys boilerplate.parameterNames :=
        of_decide_eq_true hfits.1
      have hperm (keys : List JsString) : (sortKeys keys).Perm keys := List.perm_insertionSort _ keys
      rw [← (hperm _).mem_iff, hsort, (hperm _).mem_iff]

/-! ## All entries -/

/-- The three ways into the system: an import gives every example its parameters exactly when each text
assigns them, a generated case binds them unless its input is an array, and an added case always does. -/
theorem test_cases_bind_iff (parse : JsString → Except JsString ParsedJson)
    (number : JsString → ParsedJson) :
    (∀ examples parameterNames parsed,
      buildParsedExamples parse number examples parameterNames = .ok parsed →
        ((∀ case ∈ parsed, BindsParameters parameterNames (.obj case.input)) ↔
          ∀ block ∈ examples, AssignsParameters block.input parameterNames)) ∧
    (∀ maxCases parameterNames visibleOutputs cases kept,
      structuralValidation maxCases parameterNames visibleOutputs cases = some kept →
        ∀ c ∈ kept, ∃ input, c.get (js "input") = some input ∧
          KeysAre input.ownKeys parameterNames ∧
          (BindsParameters parameterNames input ↔ ∀ items, input ≠ .arr items)) ∧
    ∀ s socket testCase problemId boilerplate g,
      afterAddingTestCase s socket testCase problemId (.boilerplate (some boilerplate)) = some g →
        ∀ stored ∈ g.state.room.customTestCases, stored ∈ s.room.customTestCases ∨
          KeysAre (stored.input.map Prod.fst) boilerplate.parameterNames := by
  refine ⟨fun _ _ _ h => buildParsedExamples_iff h, fun _ _ _ _ kept h c hc => ?_,
    fun _ _ _ _ _ _ h => afterAddingTestCase_keys h⟩
  unfold structuralValidation at h
  split_ifs at h
  obtain rfl := Option.some.inj h
  obtain ⟨input, hinput, hkeys, hkind⟩ :=
    structurallyValid_input (List.mem_filter.mp (List.mem_of_mem_take hc)).2
  refine ⟨input, hinput, hkeys, ?_⟩
  rcases hkind with ⟨members, rfl⟩ | ⟨items, rfl⟩
  · exact iff_of_true hkeys nofun
  · exact iff_of_false id fun h => h items rfl

/-- An unknown name is kept, an inherited one is not missed, and an array passes for an object. -/
theorem other_parameters_accepted : ∃ unknown inherited kept,
    parseInputAssignments (fun _ => .error []) (fun _ => .null) (js "s = 'a', k = 'b'") [js "s"] =
        .ok unknown ∧ ¬ BindsParameters [js "s"] (.obj unknown) ∧
      parseInputAssignments (fun _ => .error []) (fun _ => .null) (js "s = 'a'")
        [js "s", js "valueOf"] = .ok inherited ∧
      ¬ BindsParameters [js "s", js "valueOf"] (.obj inherited) ∧
      structuralValidation 10 [] [] [.obj [(js "input", .arr []),
        (js "expectedOutput", .bool true)]] = some [kept] ∧
      kept.get (js "input") = some (.arr []) := by
  refine ⟨_, _, _, rfl, fun h => ?_, rfl, fun h => ?_, rfl, rfl⟩
  · exact absurd ((h (js "k")).mp (by decide)) (by decide)
  · exact absurd ((h (js "valueOf")).mpr (by decide)) (by decide)

end CodeShare
