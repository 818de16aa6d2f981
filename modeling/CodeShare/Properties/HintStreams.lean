import CodeShare.Foundations.EarlyChecks
import CodeShare.Server.Messages
import CodeShare.Server.StreamSteps

/-! # Streams of a room

`hintStreaming` is set when a stream starts and cleared when any stream ends. It says whether a stream
is running, and at most one is, exactly in the runs that start a stream only while the flag is down.
-/

namespace CodeShare
open Tasks
set_option autoImplicit false

/-- At most one stream of the room is running, and the flag says whether one is. -/
def OneStream (c : ServerConf) : Prop :=
  c.pool.countP Task.isStream ≤ 1 ∧
    (c.shared.room.hintStreaming = true ↔ ∃ task ∈ c.pool, task.isStream = true)

/-- A stream starts only while none is marked as running. -/
def StreamsOneByOne (c : ServerConf) (t : ServerTrigger) : Prop :=
  startsStream t = true → c.shared.room.hintStreaming = false

instance (c : ServerConf) (t : ServerTrigger) : Decidable (StreamsOneByOne c t) :=
  inferInstanceAs (Decidable (_ → _))

theorem oneStream_iff (c : ServerConf) :
    OneStream c ↔ Machine.Owned (fun s : Server => s.room.hintStreaming) Task.isStream c := by
  unfold OneStream Machine.Owned
  rw [← List.countP_pos_iff]
  dsimp only
  cases c.shared.room.hintStreaming with
  | true =>
    simp only [Bool.toNat_true, true_iff]
    omega
  | false =>
    simp only [Bool.toNat_false, Bool.false_eq_true, false_iff]
    omega

section
variable {cfg : Config} {c c' : ServerConf} {out : List Effect} {t : ServerTrigger} {g : Step}
  {rest : List Task}

/-- A segment that ends a stream runs one. -/
theorem taken_of_endsStream {b : Bool} (h : endsStream cfg t = some b) :
    t.taken.countP Task.isStream = 1 ∧ startsStream t = false := by
  unfold endsStream at h
  split at h
  · exact ⟨rfl, rfl⟩
  · exact ⟨rfl, rfl⟩
  · cases h

/-- A stream that starts joins those that are running. -/
theorem oneStream_step (h : OneStream c) (hby : (server cfg).StepBy c c' out t g rest) :
    StreamsOneByOne c t ↔ OneStream c' := by
  rw [oneStream_iff] at h
  rw [oneStream_iff, h.after_iff hby]
  have hstep := fire_stream hby.fire
  have hstreams := hstep.streams
  have hflag := hstep.flag
  unfold StreamsOneByOne
  cases hends : endsStream cfg t with
  | some b =>
    -- the stream that ends is running, so the flag is up
    obtain ⟨htaken, hstarts⟩ := taken_of_endsStream hends
    obtain ⟨task, hm, htask⟩ := List.countP_pos_iff.mp (htaken ▸ Nat.one_pos)
    have hup := h.of_mem (hby.mem_of_taken hm) htask
    rw [hends, hstarts, Option.isSome_some, Bool.toNat_true, Bool.toNat_false] at hstreams
    rw [hends, hstarts, hup, Option.isNone_some, Bool.and_false, Bool.or_false] at hflag
    rw [hup, hflag, hstarts, Bool.toNat_true, Bool.toNat_false]
    exact iff_of_true nofun hstreams
  | none =>
    rw [hends, Option.isSome_none, Bool.toNat_false] at hstreams
    rw [hends, Option.isNone_none, Bool.and_true] at hflag
    rw [hflag]
    cases hstarts : startsStream t with
    | false =>
      rw [hstarts, Bool.toNat_false] at hstreams
      rw [Bool.false_or]
      exact iff_of_true nofun (by omega)
    | true =>
      rw [hstarts, Bool.toNat_true] at hstreams
      rw [Bool.true_or, Bool.toNat_true]
      cases c.shared.room.hintStreaming with
      | true => exact iff_of_false (fun himp => nomatch himp rfl) (by rw [Bool.toNat_true]; omega)
      | false => exact iff_of_true (fun _ => rfl) (by rw [Bool.toNat_false]; omega)

end

/-! ## Runs -/

/-- **One stream at a time.** In every configuration of a run at most one stream is running and
`hintStreaming` is true exactly when one is, if and only if the run starts streams only while
`hintStreaming` is false. -/
theorem one_stream_iff {cfg : Config} {mode : RoomMode} {now : Time} {acts : List ServerAct}
    {c : ServerConf} {out : List Effect} (hreach : Reaches cfg mode now acts c out) :
    (server cfg).Always OneStream (initial cfg mode now) acts ↔
      Meeting cfg StreamsOneByOne mode now acts := by
  refine (Machine.meets_iff_always (R := fun _ _ => True)
    (fun c c' out t g rest h _ hby => oneStream_step h hby) ?_ (Machine.meets_true _ acts) hreach).symm
  exact (oneStream_iff _).mpr rfl

/-- What a delivery waits for, when there is no stored hint, up to the start of its stream. -/
def exampleLlmOutcomes : List Outcome :=
  [.hint none, .allowed, .answer true, .problem (some (exampleProblem 7)), .answer true]

/-- A user asks for a hint, and a stream is started for it. -/
def exampleLlmHint : List ServerAct :=
  [.event (.receive 0 .hintRequest), .resume 0 .go] ++ exampleLlmOutcomes.map (.resume 0 ·)

/-- The stream ends with a hint. -/
def exampleLlmRun : List ServerAct :=
  exampleJoin 0 .go ++ exampleSelect 0 7 ++ exampleLlmHint ++
    [.resume 0 (.chunk (js "Use a map.")), .resume 0 .streamEnd]

theorem one_stream_example : ∃ c out,
    Reaches plainConfig .collaboration 10000 exampleLlmRun c out ∧ llmRequests out = 1 ∧
    (server plainConfig).Always OneStream (initial plainConfig .collaboration 10000) exampleLlmRun := by
  obtain ⟨c, out, hreach, hone⟩ : ∃ c out,
      Reaches plainConfig .collaboration 10000 exampleLlmRun c out ∧ llmRequests out = 1 :=
    ⟨_, _, rfl, rfl⟩
  have hmeets : Meeting plainConfig StreamsOneByOne .collaboration 10000 exampleLlmRun := by
    unfold Meeting
    decide
  exact ⟨c, out, hreach, hone, (one_stream_iff hreach).mpr hmeets⟩

/-- A single user asks for a hint once more while the first is still looked up. Both streams start and
write to the room; when the first ends, the second goes on without the flag. -/
def exampleTwoStreams : List ServerAct :=
  exampleJoin 0 .go ++ exampleSelect 0 7 ++
    [.event (.receive 0 .hintRequest), .resume 0 .go, .event (.tick 5000),
      .event (.receive 0 .hintRequest), .resume 1 .go] ++
    exampleLlmOutcomes.flatMap (fun o => [.resume 0 o, .resume 0 o]) ++
    [.resume 0 (.chunk (js "Try ")), .resume 0 (.chunk (js "Use ")), .resume 0 .streamEnd]

theorem two_streams_mixed : ∃ c out,
    Reaches plainConfig .collaboration 10000 exampleTwoStreams c out ∧
    c.pool.countP Task.isStream = 1 ∧ c.shared.room.hintStreaming = false ∧
    ¬ (server plainConfig).Always OneStream (initial plainConfig .collaboration 10000)
      exampleTwoStreams := by
  obtain ⟨c, out, hreach, hcount, hflag⟩ : ∃ c out,
      Reaches plainConfig .collaboration 10000 exampleTwoStreams c out ∧
      c.pool.countP Task.isStream = 1 ∧ c.shared.room.hintStreaming = false :=
    ⟨_, _, rfl, rfl, rfl⟩
  refine ⟨c, out, hreach, hcount, hflag, fun hall => ?_⟩
  have hone := (hall.last hreach).2
  rw [hflag, ← List.countP_pos_iff, hcount] at hone
  exact absurd (hone.mpr Nat.one_pos) nofun

/-! ## Deliveries apart -/

/-- The delivery has not started its stream. -/
def Task.awaitsStream (task : Task) : Bool := task.delivers && !task.isStream

/-- A stream starts only while no other delivery waits for its own. A request is approved, which is not
checked again, only while no stream is running. -/
structure StreamsApart (c : ServerConf) (t : ServerTrigger) : Prop where
  start : startsStream t = true → c.pool.countP Task.awaitsStream ≤ 1
  approve : approves c.shared t ≠ none → c.shared.room.hintStreaming = false

section
variable {cfg : Config} {s : Server} {t : ServerTrigger} {g : Step} {task : Task}

theorem awaitsStream_of_startsStream (h : startsStream t = true) : t.taken.countP Task.awaitsStream = 1 := by
  unfold startsStream at h
  split at h
  · rfl
  · cases h

/-- The segment that starts a stream leaves nothing that waits for one. -/
theorem startsStream_of_next (h : (server cfg).fire s t = some g) (hm : task ∈ g.next)
    (hawaits : task.awaitsStream = true) : startsStream t = false := by
  unfold startsStream
  split
  · rename_i d prompt
    change afterHintReserve s d prompt (.answer true) = some g at h
    cases h
    rw [List.mem_singleton.mp hm] at hawaits
    cases hawaits
  · rfl

/-- What a delivery relies on until it streams holds again when it goes on. -/
theorem flag_of_next (h : (server cfg).fire s t = some g)
    (happrove : approves s t ≠ none → s.room.hintStreaming = false)
    (hrelies : ∀ task ∈ t.taken, task.awaitsStream = true → s.room.hintStreaming = false)
    (hm : task ∈ g.next) (hawaits : task.awaitsStream = true) : g.state.room.hintStreaming = false := by
  obtain ⟨hdelivery, hstream⟩ : task.delivers = true ∧ task.isStream = false := by
    simpa [Task.awaitsStream] using hawaits
  have hfamily : triggerFamily t = .hint := by
    rw [← (fire_within h).next task hm]
    cases task <;> first | rfl | cases hdelivery
  have hsegment := fire_stream h
  have hflag := hsegment.flag
  rw [startsStream_of_next h hm hawaits, Bool.false_or] at hflag
  cases fire_hint h hfamily with
  | started _ _ _ hchecked => rw [hflag, (hintRequestRefusal_checked hchecked).2, Bool.false_and]
  | approved _ _ _ _ happroved => rw [hflag, happrove (by rw [happroved]; nofun), Bool.false_and]
  | moved task' task'' _ _ htaken hdelivers hnext =>
    obtain rfl : task = task'' := List.mem_singleton.mp (hnext ▸ hm)
    cases hstream' : task'.isStream with
    | false =>
      have hbefore : task'.awaitsStream = true := by simp [Task.awaitsStream, hdelivers, hstream']
      rw [hflag, hrelies task' (htaken ▸ List.mem_singleton_self _) hbefore, Bool.false_and]
    | true =>
      -- a stream that leaves something else behind has ended
      have hstreams := hsegment.streams
      rw [startsStream_of_next h hm hawaits, hnext, htaken, List.countP_singleton, List.countP_singleton,
        if_pos hstream', if_neg (Bool.eq_false_iff.mp hstream)] at hstreams
      rw [hflag]
      cases hends : endsStream cfg t with
      | none => rw [hends] at hstreams; cases hstreams
      | some b => exact Bool.and_false _
  | ended _ _ hnext => rw [hnext] at hm; cases hm
  | charged _ _ _ _ hnext => rw [hnext] at hm; cases hm

end

/-- Deliveries that do not overlap before their streams start them one by one. -/
theorem oneByOne_of_apart {cfg : Config} {mode : RoomMode} {now : Time} {acts : List ServerAct}
    {c : ServerConf} {out : List Effect} (happart : Meeting cfg StreamsApart mode now acts)
    (hreach : Reaches cfg mode now acts c out) : Meeting cfg StreamsOneByOne mode now acts := by
  refine Machine.meets_of_relied
    (fun s task => task.awaitsStream = true → s.room.hintStreaming = false) ?_ ?_ ?_ happart hreach nofun
  · intro c c' out t g rest hP hby task hm hrelies hawaits
    cases hstarts : startsStream t with
    | false => rw [(fire_stream hby.fire).flag, hstarts, hrelies hawaits]; rfl
    | true =>
      have hone := awaitsStream_of_startsStream hstarts
      have hother : task.awaitsStream = false := hby.alone ((hP.start hstarts).trans hone.ge) task hm
      rw [hother] at hawaits
      cases hawaits
  · exact fun c c' out t g rest hP hby hrelies task => flag_of_next hby.fire hP.approve hrelies
  · intro c c' out t g rest hP hby hrelied hstarts
    obtain ⟨task, htaken, hawaits⟩ :=
      List.countP_pos_iff.mp (awaitsStream_of_startsStream hstarts ▸ Nat.one_pos)
    exact hrelied task (hby.mem_of_taken htaken) hawaits

end CodeShare
