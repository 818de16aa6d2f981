import CodeShare.Clients.GroqClient
import CodeShare.Foundations.Threads
import CodeShare.Properties.InputRoundTrip

/-! # What the breaker sees of a stream

The function that `execute` awaits returns a generator that has not begun. Its success is recorded then, and what
happens to the stream is not recorded at all.
-/

namespace CodeShare.Groq
open CircuitBreaker Tasks
set_option autoImplicit false

/-- The response is one whose body is streamed. -/
def Fetched.streams : Fetched → Bool
  | .failed _ => false
  | .response r => r.ok && r.hasBody

def recordOf : ClientEffect → Option Settlement
  | .recorded settlement => some settlement
  | _ => none

/-- One outcome is recorded: a failure when the generator throws, a success behind the stream only. -/
structure Covered (out : List ClientEffect) : Prop where
  once : ∃ settlement, out.filterMap recordOf = [settlement]
  failure : ∀ thrown, .threw thrown ∈ out → .recorded .rejected ∈ out
  success : ∀ before after, out = before ++ .recorded .fulfilled :: after → .drained ∈ before

/-- The generator has ended. -/
def ClientEffect.endsStream : ClientEffect → Bool
  | .returned | .threw _ => true
  | _ => false

abbrev ClientTurn := Turn Breaker ClientTask ClientEvent ClientOutcome ClientEffect

abbrev ClientAct := Act ClientEvent ClientOutcome

section
variable (options : CircuitBreakerOptions) (E : JsEngine) (acts : List ClientAct)

/-- The segments of a call, by its number. -/
def callTurns (k : ℕ) : List ClientTurn :=
  turnsOf k ((client options E).threaded.history ⟨(createGroqClient, 0), []⟩ acts)

def callEffects (k : ℕ) : List ClientEffect := (callTurns options E acts k).flatMap Turn.out

end

/-! ## The script of a call -/

/-- What matters of a segment: whether `fetch` has come to a stream, what is recorded, and how the stream ends. -/
inductive Mark where
  | fetched (streams : Bool)
  | recorded (settlement : Settlement)
  | drained
  | returned
  | threw (thrown : Thrown)

def markOf : ClientEffect → Option Mark
  | .recorded settlement => some (.recorded settlement)
  | .drained => some .drained
  | .returned => some .returned
  | .threw thrown => some (.threw thrown)
  | _ => none

def fetchMarks : Trigger ClientEvent ClientTask ClientOutcome → List Mark
  | .task .fetching (.fetched result) => [.fetched result.streams]
  | _ => []

def marks (t : Trigger ClientEvent ClientTask ClientOutcome) (out : List ClientEffect) : List Mark :=
  fetchMarks t ++ out.filterMap markOf

inductive CallScript : List Mark → List ClientTask → Prop
  | refused (error : GroqError) : CallScript [] [.opening (.error error)]
  | refusedThrown (thrown : Thrown) : CallScript [.threw thrown] []
  | fetching : CallScript [] [.fetching]
  | unopened (error : GroqError) : CallScript [.fetched false] [.settling (.error error)]
  | failed (error : GroqError) : CallScript [.fetched false, .recorded .rejected] [.opening (.error error)]
  | failedThrown (thrown : Thrown) : CallScript [.fetched false, .recorded .rejected, .threw thrown] []
  | opened : CallScript [.fetched true] [.settling (.ok ())]
  | succeeded : CallScript [.fetched true, .recorded .fulfilled] [.opening (.ok ())]
  | reading (reader : StreamReader) : CallScript [.fetched true, .recorded .fulfilled] [.reading reader]
  | drained : CallScript [.fetched true, .recorded .fulfilled, .drained, .returned] []
  | broken (thrown : Thrown) : CallScript [.fetched true, .recorded .fulfilled, .threw thrown] []

theorem CallScript.length_le {said : List Mark} {ts : List ClientTask} (h : CallScript said ts) : ts.length ≤ 1 := by
  cases h <;> simp

theorem CallScript.perm {said : List Mark} {ts ts' : List ClientTask} (hperm : ts.Perm ts') (h : CallScript said ts) :
    CallScript said ts' := by
  rw [← Machine.eq_of_perm_short h.length_le hperm]
  exact h

section
variable {options : CircuitBreakerOptions} {E : JsEngine} {b : Breaker}

@[simp] theorem filterMap_markOf_breaker (effects : List CircuitBreaker.Effect) :
    (effects.map ClientEffect.breaker).filterMap markOf = [] := by
  rw [List.filterMap_map, List.filterMap_eq_nil_iff]
  exact fun _ _ => rfl

@[simp] theorem filterMap_markOf_yielded (contents : List ParsedJson) :
    (contents.map ClientEffect.yielded).filterMap markOf = [] := by
  rw [List.filterMap_map, List.filterMap_eq_nil_iff]
  exact fun _ _ => rfl

@[simp] theorem ofBreaker_out (g : CircuitBreaker.Step) : (ofBreaker g).out = g.out.map .breaker := rfl

@[simp] theorem ofBreaker_next (g : CircuitBreaker.Step) : (ofBreaker g).next = [] := rfl

theorem openStream_ok_iff (result : Fetched) : openStream result = .ok () ↔ result.streams = true := by
  cases result with
  | failed failure => simp [openStream, Fetched.streams]
  | response r =>
    unfold openStream Fetched.streams
    cases r.ok <;> cases r.hasBody <;> simp

theorem callScript_event : CallScript (marks (.event .streamCompletion)
      (beginCall options b (.opening (.error (circuitOpenError options))) .fetching).out)
    (beginCall options b (.opening (.error (circuitOpenError options))) .fetching).next := by
  unfold beginCall marks fetchMarks
  split_ifs
  · simpa [-List.filterMap_map] using CallScript.refused _
  · simpa [-List.filterMap_map] using CallScript.fetching

/-- What a reading leads to. -/
theorem readingStep_script (reader : StreamReader) (reading : Reading) (next : StreamReader) (result : ReadResult) :
    CallScript ([.fetched true, .recorded .fulfilled] ++
        marks (.task (.reading reader) (.read result)) (readingStep b reading next).out)
      (readingStep b reading next).next := by
  unfold readingStep marks fetchMarks
  dsimp only
  split
  · simpa [markOf, -List.filterMap_map] using CallScript.reading next
  · simpa [markOf, -List.filterMap_map] using CallScript.broken _
  · simpa [markOf, -List.filterMap_map] using CallScript.drained
  · simpa [markOf, -List.filterMap_map] using CallScript.drained

/-- A segment of a call follows the script. -/
theorem callScript_task {said : List Mark} {task : ClientTask} {ts : List ClientTask} {o : ClientOutcome}
    {g : ClientStep} (hscript : CallScript said (task :: ts)) (h : resumeClient options E b task o = some g) :
    CallScript (said ++ marks (.task task o) g.out) (ts ++ g.next) := by
  obtain rfl : ts = [] := by
    have hlength := hscript.length_le
    exact List.eq_nil_of_length_eq_zero (Nat.le_zero.mp (Nat.le_of_succ_le_succ hlength))
  rw [List.nil_append]
  cases hscript with
  | refused error =>
    cases o with
    | continued =>
      obtain rfl := Option.some.inj h
      exact .refusedThrown _
    | _ => cases h
  | fetching =>
    cases o with
    | fetched result =>
      obtain rfl := Option.some.inj h
      show CallScript [.fetched result.streams] [.settling (openStream result)]
      cases hopen : openStream result with
      | ok opened =>
        rw [(openStream_ok_iff result).mp hopen]
        exact .opened
      | error error =>
        have hclosed : result.streams = false := by
          rw [Bool.eq_false_iff]
          intro hstreams
          rw [(openStream_ok_iff result).mpr hstreams] at hopen
          cases hopen
        rw [hclosed]
        exact .unopened error
    | _ => cases h
  | unopened error =>
    cases o with
    | continued =>
      obtain rfl := Option.some.inj h
      simpa [settleCall, marks, fetchMarks, markOf, -List.filterMap_map] using CallScript.failed error
    | _ => cases h
  | failed error =>
    cases o with
    | continued =>
      obtain rfl := Option.some.inj h
      exact .failedThrown _
    | _ => cases h
  | opened =>
    cases o with
    | continued =>
      obtain rfl := Option.some.inj h
      simpa [settleCall, marks, fetchMarks, markOf, -List.filterMap_map] using CallScript.succeeded
    | _ => cases h
  | succeeded =>
    cases o with
    | continued =>
      obtain rfl := Option.some.inj h
      exact .reading _
    | _ => cases h
  | reading reader =>
    cases o with
    | read result =>
      cases result with
      | chunk octets =>
        obtain rfl := Option.some.inj h
        exact readingStep_script reader _ _ _
      | done =>
        obtain rfl := Option.some.inj h
        exact readingStep_script reader _ _ _
      | failed failure =>
        obtain rfl := Option.some.inj h
        exact .broken _
    | _ => cases h

end

/-! ## What is covered -/

section
variable {options : CircuitBreakerOptions} {E : JsEngine} {acts : List ClientAct} {out : List ClientEffect}

def Mark.isFetched : Mark → Bool
  | .fetched _ => true
  | _ => false

def Mark.settlement : Mark → Option Settlement
  | .recorded settlement => some settlement
  | _ => none

/-- The other marks are those of the effects. -/
theorem filter_marks (turns : List ClientTurn) :
    (turns.flatMap fun turn => marks turn.trigger turn.out).filter (!·.isFetched) =
      (turns.flatMap Turn.out).filterMap markOf := by
  have hfetch (t : Trigger ClientEvent ClientTask ClientOutcome) : (fetchMarks t).filter (!·.isFetched) = [] := by
    unfold fetchMarks
    split <;> rfl
  have hout (effects : List ClientEffect) :
      (effects.filterMap markOf).filter (!·.isFetched) = effects.filterMap markOf := by
    rw [List.filter_eq_self]
    intro m hm
    obtain ⟨effect, -, hmark⟩ := List.mem_filterMap.mp hm
    cases effect <;> cases hmark <;> rfl
  induction turns with
  | nil => rfl
  | cons turn turns ih =>
    rw [List.flatMap_cons, List.filter_append, ih, marks, List.filter_append, hfetch, List.nil_append, hout,
      List.flatMap_cons, List.filterMap_append]

theorem recordOf_eq (out : List ClientEffect) :
    out.filterMap recordOf = (out.filterMap markOf).filterMap Mark.settlement := by
  rw [List.filterMap_filterMap]
  refine List.filterMap_congr fun effect _ => ?_
  cases effect <;> rfl

/-- The segment in which `fetch` came to something. -/
theorem fetched_mem_marks {turns : List ClientTurn} {streams : Bool} :
    .fetched streams ∈ turns.flatMap (fun turn => marks turn.trigger turn.out) ↔
      ∃ turn ∈ turns, ∃ result, turn.trigger = .task .fetching (.fetched result) ∧ result.streams = streams := by
  rw [List.mem_flatMap]
  refine exists_congr fun turn => and_congr_right fun _ => ?_
  have hout : Mark.fetched streams ∉ turn.out.filterMap markOf := by
    rw [List.mem_filterMap]
    rintro ⟨effect, -, hmark⟩
    cases effect <;> cases hmark
  rw [marks, List.mem_append, or_iff_left hout]
  unfold fetchMarks
  constructor
  · intro hm
    split at hm
    · rename_i result htrigger
      exact ⟨result, htrigger, (Mark.fetched.inj (List.mem_singleton.mp hm)).symm⟩
    · cases hm
  · rintro ⟨result, htrigger, rfl⟩
    rw [htrigger]
    exact List.mem_singleton_self _

theorem mem_of_mark {effect : ClientEffect} {m : Mark} (hm : m ∈ out.filterMap markOf)
    (honly : ∀ e, markOf e = some m → e = effect) : effect ∈ out := by
  obtain ⟨e, he, hmark⟩ := List.mem_filterMap.mp hm
  rw [← honly e hmark]
  exact he

theorem markOf_recorded {e : ClientEffect} {settlement : Settlement}
    (h : markOf e = some (.recorded settlement)) : e = .recorded settlement := by
  cases e <;> cases h
  rfl

/-- Nothing is covered when nothing is recorded. -/
theorem not_covered_of_unrecorded (h : (out.filterMap markOf).filterMap Mark.settlement = []) : ¬ Covered out := by
  rintro ⟨⟨settlement, honce⟩, -, -⟩
  rw [recordOf_eq, h] at honce
  cases honce

/-- A success that is recorded first comes before the end of the stream. -/
theorem not_covered_of_fulfilled {later : List Mark} (h : out.filterMap markOf = .recorded .fulfilled :: later) :
    ¬ Covered out := by
  intro hcovered
  have hmem : .recorded .fulfilled ∈ out := by
    apply mem_of_mark (m := .recorded .fulfilled)
    · rw [h]
      exact List.mem_cons_self
    · exact fun _ => markOf_recorded
  obtain ⟨before, after, rfl⟩ := List.append_of_mem hmem
  have hdrained := hcovered.success before after rfl
  obtain ⟨settlement, honce⟩ := hcovered.once
  -- the end of the stream is not the first mark, so a success was recorded before this one
  have hearlier : .recorded .fulfilled ∈ before := by
    apply mem_of_mark (m := .recorded .fulfilled)
    · rw [List.filterMap_append] at h
      have hmark : Mark.drained ∈ before.filterMap markOf := List.mem_filterMap.mpr ⟨_, hdrained, rfl⟩
      cases hbefore : before.filterMap markOf with
      | nil =>
        rw [hbefore] at hmark
        cases hmark
      | cons first marks =>
        rw [hbefore] at h
        rw [(List.cons.inj h).1]
        exact List.mem_cons_self
    · exact fun _ => markOf_recorded
  have hlength := congrArg List.length honce
  have hpos : 0 < (before.filterMap recordOf).length :=
    List.length_pos_of_mem (List.mem_filterMap.mpr ⟨_, hearlier, rfl⟩)
  rw [List.filterMap_append, List.length_append, List.filterMap_cons_some (by rfl), List.length_cons,
    List.length_singleton] at hlength
  omega

theorem covered_of_rejected {thrown : Thrown} (h : out.filterMap markOf = [.recorded .rejected, .threw thrown]) :
    Covered out where
  once := by
    refine ⟨.rejected, ?_⟩
    rw [recordOf_eq, h]
    rfl
  failure _ _ := by
    apply mem_of_mark (m := .recorded .rejected)
    · rw [h]
      exact List.mem_cons_self
    · exact fun _ => markOf_recorded
  success before after hout := by
    have hmark : Mark.recorded .fulfilled ∈ out.filterMap markOf := by
      refine List.mem_filterMap.mpr ⟨.recorded .fulfilled, ?_, rfl⟩
      rw [hout]
      simp
    rw [h] at hmark
    simp at hmark

/-- The marks of some segments. -/
def callMarks (turns : List ClientTurn) : List Mark := turns.flatMap fun turn => marks turn.trigger turn.out

/-- A call follows its script. -/
theorem call_follows {d : Conf (Breaker × ℕ) (Threaded Breaker ClientTask ClientEvent)}
    (hrun : (client options E).threaded.run ⟨(createGroqClient, 0), []⟩ acts = some (d, out)) {k : ℕ}
    (hk : k < d.shared.2) (hbegins : Machine.BeginsWith .streamCompletion (callTurns options E acts k)) :
    CallScript (callMarks (callTurns options E acts k)) (tasksOf k d.pool) := by
  refine ((Machine.thread_rule (P := fun _ _ => True) (J := fun turns ts => turns ≠ [] ∧
    (Machine.BeginsWith .streamCompletion turns → CallScript (callMarks turns) ts)) ?_ ?_ ?_
    (Machine.meets_true _ _) hrun).threads k hk).2 hbegins
  · rintro turns ts ts' hperm ⟨hne, h⟩
    exact ⟨hne, fun hfirst => (h hfirst).perm hperm⟩
  · rintro turn e g others - htrigger hby
    refine ⟨List.cons_ne_nil _ _, fun hfirst => ?_⟩
    have hsame : Trigger.event e = .event .streamCompletion := htrigger.symm.trans (Option.some.inj hfirst)
    obtain rfl := Trigger.event.inj hsame
    obtain rfl := Option.some.inj hby.fire
    rw [callMarks, List.flatMap_singleton, htrigger, hby.out]
    exact callScript_event
  · rintro turns turn task o g others ts ⟨hne, h⟩ - htrigger hby
    refine ⟨List.append_ne_nil_of_left_ne_nil hne _, fun hbegins => ?_⟩
    have hfirst : Machine.BeginsWith .streamCompletion turns := by
      cases turns with
      | nil => exact absurd rfl hne
      | cons first turns => exact hbegins
    rw [callMarks, List.flatMap_append, List.flatMap_singleton, htrigger, hby.out]
    exact callScript_task (h hfirst) hby.fire

/-- **What the breaker covers of a call** whose consumer has read the generator to its end: one outcome is recorded for
it, in time, exactly when the breaker has let it pass and its `fetch` has come to no stream. -/
theorem breaker_coverage_iff {d : Conf (Breaker × ℕ) (Threaded Breaker ClientTask ClientEvent)}
    (hrun : (client options E).threaded.run ⟨(createGroqClient, 0), []⟩ acts = some (d, out)) {k : ℕ}
    (hk : k < d.shared.2) (hbegins : Machine.BeginsWith .streamCompletion (callTurns options E acts k))
    (hread : ∃ effect ∈ callEffects options E acts k, effect.endsStream = true) :
    Covered (callEffects options E acts k) ↔ ∃ turn ∈ callTurns options E acts k, ∃ result,
      turn.trigger = .task .fetching (.fetched result) ∧ result.streams = false := by
  have hscript := call_follows hrun hk hbegins
  have hmarks := filter_marks (callTurns options E acts k)
  rw [← fetched_mem_marks]
  change List.filter _ (callMarks _) = (callEffects options E acts k).filterMap markOf at hmarks
  change _ ↔ _ ∈ callMarks _
  -- the generator has ended, so one of the last marks is there
  obtain ⟨effect, heffect, hends⟩ := hread
  have hended : ∃ m ∈ (callEffects options E acts k).filterMap markOf,
      m = .returned ∨ ∃ thrown, m = .threw thrown := by
    cases effect with
    | returned => exact ⟨.returned, List.mem_filterMap.mpr ⟨_, heffect, rfl⟩, .inl rfl⟩
    | threw thrown => exact ⟨.threw thrown, List.mem_filterMap.mpr ⟨_, heffect, rfl⟩, .inr ⟨thrown, rfl⟩⟩
    | _ => cases hends
  generalize callMarks (callTurns options E acts k) = said at hscript hmarks ⊢
  generalize tasksOf k d.pool = ts at hscript
  rw [← hmarks] at hended
  cases hscript with
  | refusedThrown thrown =>
    refine iff_of_false (not_covered_of_unrecorded ?_) (by simp)
    rw [← hmarks]
    rfl
  | failedThrown thrown => exact iff_of_true (covered_of_rejected hmarks.symm) List.mem_cons_self
  | drained => exact iff_of_false (not_covered_of_fulfilled hmarks.symm) (by simp)
  | broken thrown => exact iff_of_false (not_covered_of_fulfilled hmarks.symm) (by simp)
  | _ => simp [Mark.isFetched] at hended

/-! ## Examples -/

/-- Two failures in a row open this breaker. -/
def groqOptions : CircuitBreakerOptions where
  name := js "groq"
  failureThreshold := 2
  failureThreshold_pos := by decide

/-- A call whose stream breaks behind the headers. -/
def brokenStream : List ClientAct :=
  [.event .streamCompletion, .resume 0 (.fetched (.response ⟨true, 200, true⟩)), .resume 0 .continued,
    .resume 0 .continued, .resume 0 (.read (.chunk [58])), .resume 0 (.read (.failed .other))]

/-- After as many broken streams as its threshold the breaker is closed, and has counted no failure. -/
theorem broken_streams_unrecorded : ∃ d out,
    (client groqOptions exampleEngine).threaded.run ⟨(createGroqClient, 0), []⟩ (brokenStream ++ brokenStream) =
        some (d, out) ∧
      (∀ k < groqOptions.failureThreshold,
        Machine.BeginsWith .streamCompletion
            (callTurns groqOptions exampleEngine (brokenStream ++ brokenStream) k) ∧
          .threw (.unread .other) ∈ callEffects groqOptions exampleEngine (brokenStream ++ brokenStream) k ∧
          ¬ Covered (callEffects groqOptions exampleEngine (brokenStream ++ brokenStream) k)) ∧
      d.shared.1.state = .closed ∧ d.shared.1.consecutiveFailures = 0 := by
  refine ⟨_, _, rfl, fun k hk => ?_, rfl, rfl⟩
  have heffects : callEffects groqOptions exampleEngine (brokenStream ++ brokenStream) k =
      [.breaker .started, .recorded .fulfilled, .threw (.unread .other)] := by
    match k, hk with
    | 0, _ => rfl
    | 1, _ => rfl
  refine ⟨?_, ?_, ?_⟩
  · match k, hk with
    | 0, _ => rfl
    | 1, _ => rfl
  · rw [heffects]
    simp
  · rw [heffects]
    exact not_covered_of_fulfilled rfl

/-- A call that is answered with 429. -/
def limitedCall : List ClientAct :=
  [.event .streamCompletion, .resume 0 (.fetched (.response ⟨false, 429, true⟩)), .resume 0 .continued,
    .resume 0 .continued]

theorem breaker_coverage_iff_example :
    Covered (callEffects groqOptions exampleEngine limitedCall 0) := by
  obtain ⟨d, out, hrun, hk⟩ : ∃ d out,
      (client groqOptions exampleEngine).threaded.run ⟨(createGroqClient, 0), []⟩ limitedCall = some (d, out) ∧
        0 < d.shared.2 := ⟨_, _, rfl, by decide⟩
  have hbegins : Machine.BeginsWith .streamCompletion (callTurns groqOptions exampleEngine limitedCall 0) := rfl
  have heffects : callEffects groqOptions exampleEngine limitedCall 0 =
      [.breaker .started, .recorded .rejected, .threw (.error (httpError .streamCompletion 429))] := rfl
  refine (breaker_coverage_iff hrun hk hbegins ?_).mpr ?_
  · rw [heffects]
    exact ⟨_, .tail _ (.tail _ (.head _)), rfl⟩
  · have htriggers : (callTurns groqOptions exampleEngine limitedCall 0).map Turn.trigger =
        [.event .streamCompletion, .task .fetching (.fetched (.response ⟨false, 429, true⟩)),
          .task (.settling (.error (httpError .streamCompletion 429))) .continued,
          .task (.opening (.error (httpError .streamCompletion 429))) .continued] := rfl
    have hmem : Trigger.task .fetching (.fetched (.response ⟨false, 429, true⟩)) ∈
        (callTurns groqOptions exampleEngine limitedCall 0).map Turn.trigger := by
      rw [htriggers]
      exact .tail _ (.head _)
    obtain ⟨turn, hturn, htrigger⟩ := List.mem_map.mp hmem
    exact ⟨turn, hturn, _, htrigger, rfl⟩

end
end CodeShare.Groq
