import CodeShare.Properties.HintDialog
import CodeShare.Properties.LiveMirror

/-! # What a hydration leaves at the client

The sync of a join makes the client's copy that of the room, and the messages that follow keep it so.
A delivered problem comes last and starts the client afresh: the copy is that of the room exactly when
nothing has been done with the problem yet and the room has not moved on to another one.
-/

namespace CodeShare
open Tasks
set_option autoImplicit false

/-- The client knows the problem, the hints, the pending request and the custom test cases. -/
structure Rebuilt (clock : ℕ → Time) (state : ClientRoomState) (k : SocketId) (c : ServerConf)
    (out : List Effect) : Prop where
  problemId : (clientState clock state (messagesTo k out)).problemId = c.shared.room.problemId
  hintsUsed : (clientState clock state (messagesTo k out)).hintsUsed = c.shared.room.hintsUsed
  hintLimit : (clientState clock state (messagesTo k out)).hintLimit = c.shared.room.hintLimit
  pendingHintRequest : (clientState clock state (messagesTo k out)).pendingHintRequest =
    c.shared.room.pendingHintRequest.map fun r => r.toPendingHintRequest
  customTestCases : (clientState clock state (messagesTo k out)).customTestCases =
    c.shared.room.customTestCases.map fun t => t.toCustomTestCase

/-- The room is at the problem, and nothing has been done with it. -/
structure Untouched (room : Room) (detail : ProblemDetail) : Prop where
  problemId : room.problemId = some detail.id
  hintLimit : room.hintLimit = hintLimitByDifficulty detail.difficulty
  hintsUsed : room.hintsUsed = 0
  pendingHintRequest : room.pendingHintRequest = none
  customTestCases : room.customTestCases = []

/-- The fields that a hydration rebuilds. -/
def Shown.rebuilt (v : Shown) : (Option ProblemId × ℕ × ℕ × List CustomTestCase) ×
    Option PendingHintRequest :=
  (v.work, v.pendingHintRequest)

theorem rebuilt_iff {clock : ℕ → Time} {state : ClientRoomState} {k : SocketId} {c : ServerConf}
    {out : List Effect} : Rebuilt clock state k c out ↔
      (heard clock state.shown k out).rebuilt = c.shared.room.shown.rebuilt := by
  have hheard : (clientState clock state (messagesTo k out)).shown = heard clock state.shown k out :=
    shown_clientState clock state (messagesTo k out)
  rw [← hheard, Shown.rebuilt, Shown.rebuilt, Prod.mk.injEq, Shown.work_eq_iff]
  constructor
  · rintro ⟨hproblem, hused, hlimit, hpending, hcases⟩
    exact ⟨⟨hproblem, hused, hlimit, hcases⟩, hpending⟩
  · rintro ⟨⟨hproblem, hused, hlimit, hcases⟩, hpending⟩
    exact ⟨hproblem, hused, hlimit, hpending, hcases⟩

/-- What a delivered problem leaves is what an untouched room shows. -/
theorem untouched_iff {room : Room} {detail : ProblemDetail} : Untouched room detail ↔
    ((some detail.id, 0, hintLimitByDifficulty detail.difficulty, []), none) = room.shown.rebuilt := by
  have hpending : room.pendingHintRequest.map (fun r => r.toPendingHintRequest) = none ↔
      room.pendingHintRequest = none := Option.map_eq_none_iff
  have hcases : room.customTestCases.map (fun t => t.toCustomTestCase) = [] ↔
      room.customTestCases = [] := List.map_eq_nil_iff
  change _ ↔ (_, _) = ((room.problemId, room.hintsUsed, room.hintLimit,
    room.customTestCases.map fun t => t.toCustomTestCase),
    room.pendingHintRequest.map fun r => r.toPendingHintRequest)
  simp only [Prod.mk.injEq]
  constructor
  · rintro ⟨hproblem, hlimit, hused, hnone, hnil⟩
    exact ⟨⟨hproblem.symm, hused.symm, hlimit.symm, (hcases.mpr hnil).symm⟩,
      (hpending.mpr hnone).symm⟩
  · rintro ⟨⟨hproblem, hused, hlimit, hnil⟩, hnone⟩
    exact ⟨hproblem.symm, hlimit.symm, hused.symm, hpending.mp hnone.symm, hcases.mp hnil.symm⟩

/-! ## While a hydration is suspended -/

/-- The socket of a suspended hydration. -/
def Task.hydrates : Task → Option SocketId
  | hydrating socket _ _ => some socket
  | _ => none

/-- While the client is being hydrated, no attempt of it is refused and no hint is delivered with a
request pending, it is not asked for consent, and no other hydration of it brings a problem with which
something has been done. -/
def HydratesInPeace (cfg : Config) (k : SocketId) (c : ServerConf) (t : ServerTrigger) : Prop :=
  k ∈ c.shared.joined → (∃ task ∈ c.pool, task.hydrates = some k) →
    (c.shared.room.pendingHintRequest ≠ none →
      refusesHint cfg c.shared t ≠ some k ∧ charges cfg t = none) ∧
    (requestsConsent cfg c.shared t).bind c.shared.partner ≠ some k ∧
    ∀ delivered ∈ rehydrates t, delivered.1 = k → Untouched c.shared.room delivered.2

instance (room : Room) (detail : ProblemDetail) : Decidable (Untouched room detail) :=
  decidable_of_iff (room.problemId = some detail.id ∧
      room.hintLimit = hintLimitByDifficulty detail.difficulty ∧ room.hintsUsed = 0 ∧
      room.pendingHintRequest = none ∧ room.customTestCases.isEmpty = true)
    ⟨fun ⟨hproblem, hlimit, hused, hnone, hnil⟩ =>
        ⟨hproblem, hlimit, hused, hnone, List.isEmpty_iff.mp hnil⟩,
      fun ⟨hproblem, hlimit, hused, hnone, hnil⟩ =>
        ⟨hproblem, hlimit, hused, hnone, List.isEmpty_iff.mpr hnil⟩⟩

instance (cfg : Config) (k : SocketId) (c : ServerConf) (t : ServerTrigger) :
    Decidable (HydratesInPeace cfg k c t) := by
  unfold HydratesInPeace
  infer_instance

variable {cfg : Config} {s : Server} {t : ServerTrigger} {g : Step} {k : SocketId} {v : Shown}

/-- A delivered problem is all that the client knows of it. -/
theorem EndsHydration.heard_delivered {p : Option ProblemId} {announced : Option RoomUser}
    {detail : ProblemDetail} (hends : EndsHydration cfg s t g k p announced)
    (hdelivered : rehydrates t = some (k, detail)) (hlive : k ∈ s.live) (clock : ℕ → Time) :
    (heard clock v k g.out).rebuilt =
      ((some detail.id, 0, hintLimitByDifficulty detail.difficulty, []), none) := by
  have hreaches : reaches s.live k k = 1 := if_pos ⟨rfl, hlive⟩
  have hothers : (s.joined.filter (· ≠ k)).count k = 0 :=
    List.count_eq_zero.mpr fun hm => by simp at hm
  have hout : messagesTo k g.out = [problemLoadedPayload cfg detail] := by
    rw [hends.out k, hdelivered, hothers, Option.toList_some, List.flatMap_singleton, hreaches]
    simp
  unfold heard
  rw [hout]
  rfl

/-- One segment, seen by a client in the room that does not join anew and gets no problem. -/
theorem Announces.rebuilt (hannounces : Announces cfg s t g) (hcount : s.joined.count k = 1)
    (hjoined : k ∈ g.state.joined)
    (hnot : ∀ user announced users fresh, ¬ AnswersJoin s t g k user announced users fresh)
    (hdetail : ∀ detail, rehydrates t ≠ some (k, detail))
    (hspares : s.room.pendingHintRequest ≠ none → refusesHint cfg s t ≠ some k ∧ charges cfg t = none)
    (hasked : (requestsConsent cfg s t).bind s.partner ≠ some k)
    (clock : ℕ → Time) (hv : v.rebuilt = s.room.shown.rebuilt) :
    (heard clock v k g.out).rebuilt = g.state.room.shown.rebuilt := by
  obtain ⟨hwork, hpending⟩ := Prod.mk.inj hv
  have hid : ∀ w : Shown, w.pendingAs id = w.pendingHintRequest := fun w => Option.map_id'
  have hdetail' : (rehydrates t).map Prod.fst ≠ some k := by
    intro hk
    obtain ⟨⟨j, detail⟩, hdelivered, rfl⟩ := Option.map_eq_some_iff.mp hk
    exact hdetail detail hdelivered
  have hwork' := hannounces.work hcount hjoined hnot hdetail clock hwork
  have hpending' := hannounces.pendingAs (v := v) (φ := id) hcount hjoined hnot
    (fun hsome => ⟨(hspares hsome).1, (hspares hsome).2, hdetail'⟩)
    (fun requester hrequester hpartner => absurd (by rw [hrequester]; exact hpartner) hasked)
    clock (by rwa [hid, hid])
  rw [hid, hid] at hpending'
  exact Prod.ext hwork' hpending'

/-! ## Runs -/

/-- The copy is that of the room for as long as a hydration is suspended. -/
theorem rebuilt_while_hydrating {acts : List ServerAct} {c c' : ServerConf} {past out : List Effect}
    (clock : ℕ → Time) (v : Shown) (hattendance : Attendance c.shared)
    (hstart : k ∈ c.shared.joined → (heard clock v k past).rebuilt = c.shared.room.shown.rebuilt)
    (hmeets : (server cfg).Meets (HydratesInPeace cfg k) c acts)
    (hrun : (server cfg).run c acts = some (c', out)) (hjoined : k ∈ c'.shared.joined)
    (hhydrates : ∃ task ∈ c'.pool, task.hydrates = some k) :
    (heard clock v k (past ++ out)).rebuilt = c'.shared.room.shown.rebuilt := by
  refine mirror_run_from (A := fun v c => (∃ task ∈ c.pool, task.hydrates = some k) →
    v.rebuilt = c.shared.room.shown.rebuilt) (I := fun _ _ => True) (P := HydratesInPeace cfg k)
    (fun _ _ _ _ _ _ _ _ _ _ => trivial) ?_ ?_ clock v trivial hattendance (fun hk _ => hstart hk)
    hmeets hrun hjoined hhydrates
  · intro c c' past out t g rest user announced users fresh _ _ hby _ _
    rw [hby.shared]
  · rintro c c' past out t g rest v clock _ hcount hjoined hlive hA hP hby hnot ⟨task, hm, htask⟩
    have hbefore : k ∈ c.shared.joined := List.count_pos_iff.mp (by omega)
    have hpool : task ∈ c.pool := by
      rcases hby.mem_after hm with hm | hm
      · exact hby.mem_of_rest hm
      · cases task with
        | hydrating socket p announced =>
          obtain rfl : socket = k := Option.some.inj htask
          obtain ⟨user, users, fresh, hanswers⟩ := fire_hydrating hby.fire hm
          exact absurd hanswers (hnot user announced users fresh)
        | _ => cases htask
    have hv := hA ⟨task, hpool, htask⟩
    obtain ⟨hspares, hasked, hfresh⟩ := hP hbefore ⟨task, hpool, htask⟩
    rw [hby.shared]
    by_cases hdelivered : ∃ detail, rehydrates t = some (k, detail)
    · obtain ⟨detail, hdelivered⟩ := hdelivered
      have hends : ∃ p announced, EndsHydration cfg c.shared t g k p announced := by
        unfold rehydrates at hdelivered
        split at hdelivered
        · rename_i socket p announced detail'
          obtain ⟨rfl, -⟩ := Prod.mk.inj (Option.some.inj hdelivered)
          exact ⟨p, announced, afterHydration_ends hby.fire⟩
        · cases hdelivered
      obtain ⟨p, announced, hends⟩ := hends
      rw [hends.heard_delivered hdelivered hlive, ← shown_roomView g.state, hends.view]
      exact untouched_iff.mp (hfresh _ hdelivered rfl)
    · exact (fire_announces hby.fire).rebuilt hcount hjoined hnot
        (fun detail hdelivered' => hdelivered ⟨detail, hdelivered'⟩) hspares hasked clock hv

/-- The same from the answer of the join on. -/
theorem rebuilt_since_join {mode : RoomMode} {now : Time} {before during : List ServerAct}
    {joining : ServerAct} {c₀ c : ServerConf} {out₀ out : List Effect} (clock : ℕ → Time) (v : Shown)
    (hreach : Reaches cfg mode now before c₀ out₀) (ht : Machine.trigger c₀ joining = some t)
    (hanswers : answering c₀.shared t = some k)
    (hrun : (server cfg).run c₀ (joining :: during) = some (c, out))
    (hmeets : (server cfg).Meets (HydratesInPeace cfg k) c₀ (joining :: during))
    (hjoined : k ∈ c.shared.joined) (hhydrates : ∃ task ∈ c.pool, task.hydrates = some k) :
    (heard clock v k (out₀ ++ out)).rebuilt = c.shared.room.shown.rebuilt := by
  obtain ⟨c₁, out₁, out₂, hfirst, hduring, rfl⟩ := Machine.run_cons hrun
  obtain ⟨t', g, ht', hby⟩ := Machine.step_by hfirst
  obtain rfl : t' = t := Option.some.inj (ht'.symm.trans ht)
  obtain ⟨user, announced, users, fresh, hjoins⟩ := fire_answers hby.fire hanswers
  have hattendance₀ := attendance_run hreach
  have hattendance₁ : Attendance c₁.shared := hattendance₀.step hby
  obtain ⟨clock', hheard⟩ := heard_append (k := k) clock v out₀ out₁
  have hstart : k ∈ c₁.shared.joined →
      (heard clock v k (out₀ ++ out₁)).rebuilt = c₁.shared.room.shown.rebuilt := by
    intro hk
    have hlive : k ∈ c₀.shared.live := by
      have hsame : g.state.live = c₀.shared.live := congrArg RoomView.live hjoins.view
      rw [← hsame, ← hby.shared]
      exact hattendance₁.live k hk
    rw [hheard, hby.out, heard_join hjoins hlive, hby.shared]
  rw [← List.append_assoc]
  exact rebuilt_while_hydrating clock v hattendance₁ hstart (hmeets.2 c₁ out₁ hfirst) hduring hjoined
    hhydrates

/-- **Hydration.** A join is answered, and its hydration ends with the client still in the room. When
the segments from the answer to the end all meet the condition, the client knows the room. At an end
that delivers a problem it does so exactly when the room is still at that problem and nothing has been
done with it, whatever went on before. -/
theorem hydration_rebuilds {mode : RoomMode} {now : Time} {before during : List ServerAct}
    {joining : ServerAct} {c₀ c c' : ServerConf} {out₀ out out' : List Effect} {p : Option ProblemId}
    {announced : Option RoomUser} {position : ℕ} {o : Outcome} (clock : ℕ → Time)
    (state : ClientRoomState) (hreach : Reaches cfg mode now before c₀ out₀)
    (ht : Machine.trigger c₀ joining = some t) (hanswers : answering c₀.shared t = some k)
    (hrun : (server cfg).run c₀ (joining :: during) = some (c, out)) (hjoined : k ∈ c.shared.joined)
    (htask : c.pool[position]? = some (.hydrating k p announced))
    (hstep : (server cfg).step c (.resume position o) = some (c', out')) :
    ((server cfg).Meets (HydratesInPeace cfg k) c₀ (joining :: during ++ [.resume position o]) →
      Rebuilt clock state k c' (out₀ ++ out ++ out')) ∧
    ∀ detail, o = .detail (some detail) →
      (Rebuilt clock state k c' (out₀ ++ out ++ out') ↔ Untouched c.shared.room detail) := by
  obtain ⟨t', g, ht', hby⟩ := Machine.step_by hstep
  obtain rfl : .task (.hydrating k p announced) o = t' := by
    rw [Machine.trigger, htask] at ht'
    exact Option.some.inj ht'
  have hattendance := attendance_run (Machine.run_join hreach hrun)
  have hends : EndsHydration cfg c.shared (.task (.hydrating k p announced) o) g k p announced :=
    afterHydration_ends hby.fire
  have hview : g.state.room.shown = c.shared.room.shown := by
    rw [← shown_roomView g.state, hends.view]
    rfl
  have hsame : c'.shared.room.shown = c.shared.room.shown := by
    rw [hby.shared, hview]
  have hmem : Task.hydrating k p announced ∈ c.pool := List.mem_of_getElem? htask
  obtain ⟨clock', hheard⟩ := heard_append (k := k) clock state.shown (out₀ ++ out) out'
  have hdelivers : ∀ detail, o = .detail (some detail) →
      (Rebuilt clock state k c' (out₀ ++ out ++ out') ↔ Untouched c.shared.room detail) := by
    rintro detail rfl
    rw [rebuilt_iff, hheard, hsame, hby.out, hends.heard_delivered rfl (hattendance.live k hjoined),
      ← untouched_iff]
  refine ⟨fun hmeets => ?_, hdelivers⟩
  obtain ⟨hmeets, hlast⟩ := Machine.meets_append hmeets hrun
  by_cases hdelivered : ∃ detail, o = .detail (some detail)
  · obtain ⟨detail, rfl⟩ := hdelivered
    have hpeace := hlast.1 _ ht' hjoined ⟨_, hmem, rfl⟩
    exact (hdelivers detail rfl).mpr (hpeace.2.2 (k, detail) rfl rfl)
  · have hquiet : ∀ j, rehydrates (.task (.hydrating k p announced) o) ≠ some j := by
      intro j hj
      cases o with
      | detail found =>
        cases found with
        | none => cases hj
        | some detail => exact hdelivered ⟨detail, rfl⟩
      | _ => cases hj
    have hbefore := rebuilt_since_join clock state.shown hreach ht hanswers hrun hmeets hjoined
      ⟨_, hmem, rfl⟩
    rw [rebuilt_iff, hheard, hsame, hby.out, ← hview]
    refine (fire_announces hby.fire).rebuilt ?_ ?_ ?_ (fun detail => hquiet _) ?_ ?_ clock' hbefore
    · exact List.count_eq_one_of_mem hattendance.distinct hjoined
    · have hstays : g.state.joined = c.shared.joined := congrArg RoomView.joined hends.view
      rw [hstays]
      exact hjoined
    · intro user announced users fresh hanswers
      cases hanswers.answering
    · exact fun _ => ⟨fun heq => (by cases heq), rfl⟩
    · intro heq
      cases heq

/-- A room with a problem, for which nothing has been done, and a partner who is let in. -/
def exampleRehydrate : List ServerAct :=
  exampleJoin 0 .go ++ exampleSelect 0 7 ++ (exampleJoin 1 .go).take 3

/-- While the partner is hydrated, a third socket connects and the time goes on. -/
theorem hydration_rebuilds_example : ∃ c₀ out₀ c out c' out',
    Reaches plainConfig .collaboration 0 exampleRehydrate c₀ out₀ ∧
    (server plainConfig).run c₀ [.resume 0 .allowed, .event .connect, .event (.tick 5)] =
      some (c, out) ∧
    (server plainConfig).step c (.resume 0 (.detail (some (exampleDetail 7)))) = some (c', out') ∧
    Rebuilt id initialRoomState 1 c' (out₀ ++ out ++ out') := by
  obtain ⟨c₀, out₀, c, out, c', out', hreach, ht, hanswers, hrun, hjoined, htask, hstep⟩ :
      ∃ c₀ out₀ c out c' out',
      Reaches plainConfig .collaboration 0 exampleRehydrate c₀ out₀ ∧
      Machine.trigger c₀ (.resume 0 .allowed) =
        some (.task (.joinLimiter 1 ⟨js "guest", none⟩) Outcome.allowed) ∧
      answering c₀.shared (.task (.joinLimiter 1 ⟨js "guest", none⟩) Outcome.allowed) = some 1 ∧
      (server plainConfig).run c₀ [.resume 0 .allowed, .event .connect, .event (.tick 5)] =
        some (c, out) ∧ 1 ∈ c.shared.joined ∧
      c.pool[0]? = some (.hydrating 1 (some 7) (some ⟨3, js "guest", .peer, true⟩)) ∧
      (server plainConfig).step c (.resume 0 (.detail (some (exampleDetail 7)))) = some (c', out') :=
    ⟨_, _, _, _, _, _, rfl, rfl, rfl, rfl, by decide, rfl, rfl⟩
  have hmeets : ∃ c₀ out₀, Reaches plainConfig .collaboration 0 exampleRehydrate c₀ out₀ ∧
      (server plainConfig).Meets (HydratesInPeace plainConfig 1) c₀
        ([.resume 0 .allowed, .event .connect, .event (.tick 5)] ++
          [.resume 0 (.detail (some (exampleDetail 7)))]) := by
    refine ⟨_, _, rfl, ?_⟩
    decide
  obtain ⟨c₁, out₁, hreach', hmeets⟩ := hmeets
  obtain ⟨rfl, rfl⟩ := Prod.mk.inj (Option.some.inj (hreach.symm.trans hreach'))
  exact ⟨c₀, out₀, c, out, c', out', hreach, hrun, hstep,
    (hydration_rebuilds id initialRoomState hreach ht hanswers hrun hjoined htask hstep).1 hmeets⟩

/-- A partner joins a room with a problem and a custom test case, up to its hydration. -/
def exampleJoinWork : List ServerAct := exampleWork.take 15

/-- The test case is in the sync, and the problem behind it removes it again. -/
theorem hydration_forgets : ¬ ∀ (acts : List ServerAct) (c c' : ServerConf) (out out' : List Effect)
    (k : SocketId) (p : Option ProblemId) (announced : Option RoomUser) (position : ℕ) (o : Outcome),
    Reaches plainConfig .collaboration 0 acts c out → k ∈ c.shared.joined →
    c.pool[position]? = some (.hydrating k p announced) →
    (server plainConfig).step c (.resume position o) = some (c', out') →
    Rebuilt id initialRoomState k c' (out ++ out') := by
  intro hclaim
  obtain ⟨c, out, c', out', hreach, hjoined, htask, hstep, hroom, hclient⟩ : ∃ c out c' out',
      Reaches plainConfig .collaboration 0 exampleJoinWork c out ∧ 1 ∈ c.shared.joined ∧
      c.pool[0]? = some (.hydrating 1 (some 7) (some ⟨3, js "guest", .peer, true⟩)) ∧
      (server plainConfig).step c (.resume 0 (.detail (some (exampleDetail 7)))) = some (c', out') ∧
      c'.shared.room.customTestCases.length = 1 ∧
      (clientState id initialRoomState (messagesTo 1 (out ++ out'))).customTestCases.length = 0 :=
    ⟨_, _, _, _, rfl, by decide, rfl, rfl, rfl, rfl⟩
  have h := (hclaim _ c c' out out' 1 _ _ 0 _ hreach hjoined htask hstep).customTestCases
  rw [List.length_eq_zero_iff.mp hclient] at h
  have hlength := congrArg List.length h
  rw [List.length_map, hroom] at hlength
  cases hlength

end CodeShare
