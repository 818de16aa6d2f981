import CodeShare.Server.Messages

/-! # Solutions

Which messages of a run depend on the solution column of the database. Two runs with the same events
over databases that agree on what is revealed differ only in the PROBLEM_LOADED messages, so a socket
receives the same messages in both exactly when it is sent no PROBLEM_LOADED of a problem on whose
solution the databases differ.
-/

namespace CodeShare
open Tasks
set_option autoImplicit false

variable {cfg : Config} {s : Server} {db' : Database} {k socket : SocketId} {m m' : Message}
  {t : ServerTrigger} {o : Outcome} {g : Step}

/-- Two messages at one place of the same outputs. -/
theorem replicate_between_inj {before after : List Message} {n : ℕ} :
    before ++ List.replicate n m' ++ after = before ++ List.replicate n m ++ after ↔
      (n ≠ 0 → m' = m) := by
  rw [List.append_left_inj, List.append_right_inj, List.replicate_inj]
  simp only [true_and]
  exact or_iff_not_imp_left

/-! ## Loads and reveals -/

/-- The problem whose solution is sent to a socket with its PROBLEM_LOADED message. -/
def disclosed (k : SocketId) (s : Server) : ServerTrigger → Option ProblemId
  | .task (.selecting _ _) (.detail (some detail))
  | .task (.importLoad _ _) (.detail (some detail)) => if k ∈ s.joined then some detail.id else none
  | .task (.hydrating socket _ _) (.detail (some detail)) =>
    if socket = k ∧ k ∈ s.live then some detail.id else none
  | _ => none

/-- The problem whose solution is revealed to the room. -/
def reveals : ServerTrigger → Option ProblemId
  | .task (.revealing _ problemId) (.problem (some _)) => some problemId
  | _ => none

/-- The databases agree on the solution that a segment sends to the socket with a loaded problem. -/
def DisclosesAgreed (db db' : Database) (k : SocketId) (c : ServerConf) (t : ServerTrigger) : Prop :=
  ∀ p ∈ disclosed k c.shared t, db'.solution p = db.solution p

/-- The databases agree on the solution that a segment reveals. -/
def RevealsAgreed (db db' : Database) (_ : ServerConf) (t : ServerTrigger) : Prop :=
  ∀ p ∈ reveals t, db'.solution p = db.solution p

instance (db db' : Database) (k : SocketId) (c : ServerConf) (t : ServerTrigger) :
    Decidable (DisclosesAgreed db db' k c t) :=
  inferInstanceAs (Decidable (∀ p ∈ disclosed k c.shared t, db'.solution p = db.solution p))

instance (db db' : Database) (c : ServerConf) (t : ServerTrigger) :
    Decidable (RevealsAgreed db db' c t) :=
  inferInstanceAs (Decidable (∀ p ∈ reveals t, db'.solution p = db.solution p))

/-! ## One segment over two databases -/

/-- The segment of the other database: the same state and tasks, and to the socket the same messages
exactly if the condition holds. -/
structure SameBut (k : SocketId) (q : Prop) (g g' : Step) : Prop where
  state : g'.state = g.state
  next : g'.next = g.next
  length : (messagesTo k g'.out).length = (messagesTo k g.out).length
  iff : messagesTo k g'.out = messagesTo k g.out ↔ q

theorem SameBut.refl {q : Prop} (g : Step) (hq : q) : SameBut k q g g :=
  ⟨rfl, rfl, rfl, iff_of_true rfl hq⟩

theorem problemLoadedPayload_inj (detail : ProblemDetail) :
    problemLoadedPayload { cfg with db := db' } detail = problemLoadedPayload cfg detail ↔
      db'.solution detail.id = cfg.db.solution detail.id := by
  simp [problemLoadedPayload]

/-- A message to one socket, in the middle of the same outputs. -/
theorem SameBut.of_one {q : Prop} {g g' : Step} {before after : List Message} {n : ℕ}
    (hstate : g'.state = g.state) (hnext : g'.next = g.next)
    (hout : messagesTo k g.out = before ++ List.replicate n m ++ after)
    (hout' : messagesTo k g'.out = before ++ List.replicate n m' ++ after)
    (hq : (n ≠ 0 → m' = m) ↔ q) : SameBut k q g g' where
  state := hstate
  next := hnext
  length := by simp [hout, hout']
  iff := by rw [hout, hout', replicate_between_inj, hq]

theorem load_sameBut (cfg : Config) (db' : Database) (s : Server) (detail : ProblemDetail) :
    SameBut k (k ∈ s.joined → db'.solution detail.id = cfg.db.solution detail.id)
      (loadProblemIntoRoom cfg (.of s) detail)
      (loadProblemIntoRoom { cfg with db := db' } (.of s) detail) := by
  have hout : ∀ cfg : Config, messagesTo k (loadProblemIntoRoom cfg (.of s) detail).out =
      [] ++ List.replicate (s.joined.count k) (problemLoadedPayload cfg detail) ++ [] := by
    intro cfg
    rw [List.append_nil, loadProblemIntoRoom, messagesTo_toRoom]
    rfl
  refine .of_one rfl rfl (hout cfg) (hout _) ?_
  rw [problemLoadedPayload_inj, Ne, List.count_eq_zero, not_not]

theorem afterSelecting_sameBut {p : ProblemId} (h : afterSelecting cfg s socket p o = some g) :
    ∃ g', afterSelecting { cfg with db := db' } s socket p o = some g' ∧
      SameBut k (∀ q ∈ disclosed k s (.task (.selecting socket p) o),
        db'.solution q = cfg.db.solution q) g g' := by
  unfold afterSelecting at h ⊢
  split at h
  · rename_i detail
    split_ifs at h with hid
    cases h
    refine ⟨_, if_pos hid, ?_⟩
    have hsame := load_sameBut (k := k) cfg db' s detail
    by_cases hk : k ∈ s.joined
    · simpa [disclosed, hk] using hsame
    · simpa [disclosed, hk] using hsame
  · cases h
    exact ⟨_, rfl, .refl _ nofun⟩
  · cases h
    exact ⟨_, rfl, .refl _ nofun⟩
  · cases h

theorem afterImportLoad_sameBut {p : ProblemId} (h : afterImportLoad cfg s socket p o = some g) :
    ∃ g', afterImportLoad { cfg with db := db' } s socket p o = some g' ∧
      SameBut k (∀ q ∈ disclosed k s (.task (.importLoad socket p) o),
        db'.solution q = cfg.db.solution q) g g' := by
  unfold afterImportLoad at h ⊢
  split at h
  · rename_i detail
    split_ifs at h with hid
    cases h
    refine ⟨_, if_pos hid, ?_⟩
    have hout : ∀ cfg : Config, messagesTo k (((loadProblemIntoRoom cfg (.of s) detail).modifyRoom
          fun room => { room with importsUsed := room.importsUsed + 1 }).toRoom
          (.problemImportStatus .saved none none)).out =
        [] ++ List.replicate (s.joined.count k) (problemLoadedPayload cfg detail) ++
          List.replicate (s.joined.count k) (.problemImportStatus .saved none none) := by
      intro cfg
      rw [messagesTo_toRoom, Segment.modifyRoom_out, loadProblemIntoRoom, messagesTo_toRoom]
      rfl
    refine .of_one rfl rfl (hout cfg) (hout _) ?_
    rw [problemLoadedPayload_inj, Ne, List.count_eq_zero, not_not]
    by_cases hk : k ∈ s.joined <;> simp [disclosed, hk]
  · cases h
    exact ⟨_, rfl, .refl _ nofun⟩
  · cases h
    exact ⟨_, rfl, .refl _ nofun⟩
  · cases h

/-- What `socket.to(roomCode).emit` adds does not depend on what was written before. -/
theorem messagesTo_presence (g : Step) (announced : Option RoomUser) :
    messagesTo k (emitPresenceBroadcast g socket announced).out = messagesTo k g.out ++
      messagesTo k (emitPresenceBroadcast (.of g.state) socket announced).out := by
  cases announced with
  | none => exact (List.append_nil _).symm
  | some user =>
    simp only [emitPresenceBroadcast, Tasks.Segment.toOthers, Segment.emits_out, messagesTo_append]
    rfl

theorem emitPresenceBroadcast_next (g : Step) (announced : Option RoomUser) :
    (emitPresenceBroadcast g socket announced).next = g.next := by
  cases announced <;> rfl

theorem emitPresenceBroadcast_kept (g : Step) (announced : Option RoomUser) :
    (emitPresenceBroadcast g socket announced).state = g.state := by
  cases announced <;> rfl

theorem afterHydration_sameBut {p : Option ProblemId} {announced : Option RoomUser}
    (h : afterHydration cfg s socket p announced o = some g) :
    ∃ g', afterHydration { cfg with db := db' } s socket p announced o = some g' ∧
      SameBut k (∀ q ∈ disclosed k s (.task (.hydrating socket p announced) o),
        db'.solution q = cfg.db.solution q) g g' := by
  unfold afterHydration at h ⊢
  split at h
  · split_ifs at h with hp
    cases h
    exact ⟨_, if_pos hp, .refl _ nofun⟩
  · rename_i detail
    split_ifs at h with hp
    cases h
    refine ⟨_, if_pos hp, ?_⟩
    have hout : ∀ cfg : Config, messagesTo k (emitPresenceBroadcast ((Segment.of s).toSocket socket
          (problemLoadedPayload cfg detail)) socket announced).out =
        [] ++ List.replicate (if socket = k ∧ socket ∈ s.live then 1 else 0)
          (problemLoadedPayload cfg detail) ++
          messagesTo k (emitPresenceBroadcast (.of s) socket announced).out := by
      intro cfg
      rw [messagesTo_presence, messagesTo_toSocket]
      rfl
    refine .of_one ?_ ?_ (hout cfg) (hout _) ?_
    · rw [emitPresenceBroadcast_kept, emitPresenceBroadcast_kept]
      rfl
    · rw [emitPresenceBroadcast_next, emitPresenceBroadcast_next]
      rfl
    · rw [problemLoadedPayload_inj]
      by_cases hk : socket = k
      · by_cases hlive : k ∈ s.live <;> simp [disclosed, hk, hlive]
      · simp [disclosed, hk]
  · split_ifs at h with hp
    cases h
    exact ⟨_, if_neg hp, .refl _ nofun⟩
  · split_ifs at h with hp
    cases h
    exact ⟨_, if_neg hp, .refl _ nofun⟩
  · cases h

theorem afterRevealing_sameBut {p : ProblemId} (h : afterRevealing cfg s socket p o = some g)
    (hagreed : ∀ q ∈ reveals (.task (.revealing socket p) o), db'.solution q = cfg.db.solution q) :
    afterRevealing { cfg with db := db' } s socket p o = some g := by
  rw [← h]
  unfold afterRevealing
  split
  · rw [hagreed p rfl]
  · rfl
  · rfl
  · rfl

/-- **One segment, two databases.** -/
theorem fire_sameBut {c : ServerConf} (hagreed : RevealsAgreed cfg.db db' c t)
    (h : (server cfg).fire c.shared t = some g) :
    ∃ g', (server { cfg with db := db' }).fire c.shared t = some g' ∧
      SameBut k (DisclosesAgreed cfg.db db' k c t) g g' := by
  cases t with
  | event e => exact ⟨g, h, .refl g nofun⟩
  | task t o =>
    change resumeTask cfg c.shared t o = some g at h
    change ∃ g', resumeTask { cfg with db := db' } c.shared t o = some g' ∧ _
    cases t with
    | selecting socket p => exact afterSelecting_sameBut h
    | importLoad socket p => exact afterImportLoad_sameBut h
    | hydrating socket p announced => exact afterHydration_sameBut h
    | revealing socket p => exact ⟨g, afterRevealing_sameBut h hagreed, .refl g nofun⟩
    | admitted | executionSettling | hintFailing | importFailing =>
      cases o <;> exact ⟨g, h, .refl g nofun⟩
    | _ => exact ⟨g, h, .refl g nofun⟩

/-! ## Runs -/

/-- **What the solutions show in the messages.** Let a run reveal only solutions on which two
databases agree. Then the same events are a run over the other database, with the same states, and a
socket receives the same messages in both exactly when they agree on the solution of every problem
whose PROBLEM_LOADED message the socket is sent. -/
theorem messages_agree_iff {cfg : Config} {db' : Database} {now : Time} {acts : List ServerAct}
    {c : ServerConf} {out : List Effect} (k : SocketId)
    (hreveals : Meeting cfg (RevealsAgreed cfg.db db') .interview now acts)
    (hreach : Reaches cfg .interview now acts c out) :
    ∃ out', Reaches { cfg with db := db' } .interview now acts c out' ∧
      (messagesTo k out' = messagesTo k out ↔
        Meeting cfg (DisclosesAgreed cfg.db db' k) .interview now acts) := by
  obtain ⟨out', hrun, -, hiff⟩ := Machine.run_observe (N := server { cfg with db := db' })
    (Q := DisclosesAgreed cfg.db db' k) messagesTo_append (fun c t g hagreed hfire => by
      obtain ⟨g', hfire', hsame⟩ := fire_sameBut (k := k) hagreed hfire
      refine ⟨g'.out, ?_, hsame.length, hsame.iff⟩
      rw [hfire', ← hsame.state, ← hsame.next]) hreveals hreach
  exact ⟨out', hrun, hiff⟩

/-- The solution that a message carries. -/
def Message.solution : Message → Option JsString
  | problemLoaded _ solution _ _ _ => solution
  | solutionRevealed solution => some solution
  | _ => none

/-- Problem 7 has one solution, and every other problem the given one. -/
def exampleOthers (solution : JsString) : Database :=
  ⟨fun p => if p = 7 then some (js "a") else some solution⟩

/-- The interviewer selects problem 7 with the candidate in the room, and reveals its solution. -/
def exampleRevealToBoth : List ServerAct :=
  exampleJoin 0 .go ++ exampleJoin 1 .go ++ exampleSelect 0 7 ++
    [.event (.receive 0 .solutionReveal), .resume 0 .go,
      .resume 0 (.problem (some (exampleProblem 7)))]

/-- The candidate is sent the solution twice, and what the other problems have does not show. -/
theorem messages_agree_iff_example : ∃ c out out',
    Reaches (exampleConfig (exampleOthers (js "b"))) .interview 0 exampleRevealToBoth c out ∧
    Reaches (exampleConfig (exampleOthers (js "c"))) .interview 0 exampleRevealToBoth c out' ∧
    c.shared.room.users.map (fun u => (u.role, u.socketId)) =
      [(.interviewer, some 0), (.candidate, some 1)] ∧
    (messagesTo 1 out).filterMap Message.solution = [js "a", js "a"] ∧
    messagesTo 1 out' = messagesTo 1 out := by
  obtain ⟨c, out, hreach, husers, htwice⟩ : ∃ c out,
      Reaches (exampleConfig (exampleOthers (js "b"))) .interview 0 exampleRevealToBoth c out ∧
      c.shared.room.users.map (fun u => (u.role, u.socketId)) =
        [(.interviewer, some 0), (.candidate, some 1)] ∧
      (messagesTo 1 out).filterMap Message.solution = [js "a", js "a"] :=
    ⟨_, _, rfl, rfl, rfl⟩
  have hreveals : Meeting (exampleConfig (exampleOthers (js "b")))
      (RevealsAgreed (exampleOthers (js "b")) (exampleOthers (js "c"))) .interview 0
      exampleRevealToBoth := by
    unfold Meeting
    decide
  have hdiscloses : Meeting (exampleConfig (exampleOthers (js "b")))
      (DisclosesAgreed (exampleOthers (js "b")) (exampleOthers (js "c")) 1) .interview 0
      exampleRevealToBoth := by
    unfold Meeting
    decide
  obtain ⟨out', hreach', hiff⟩ := messages_agree_iff 1 hreveals hreach
  exact ⟨c, out, out', hreach, hreach', husers, htwice, hiff.mpr hdiscloses⟩

/-- Every problem has the given solution. -/
def exampleDatabase (solution : JsString) : Database := ⟨fun _ => some solution⟩

/-- The interviewer selects a problem with the candidate in the room; nothing is ever revealed. -/
def exampleInterview : List ServerAct :=
  exampleJoin 0 .go ++ exampleJoin 1 .go ++ exampleSelect 0 7

/-- The candidate's socket receives the solution with the problem. -/
theorem candidate_receives_solution : ∃ c out out',
    Reaches (exampleConfig (exampleDatabase (js "a"))) .interview 0 exampleInterview c out ∧
    Reaches (exampleConfig (exampleDatabase (js "b"))) .interview 0 exampleInterview c out' ∧
    c.shared.room.users.map (fun u => (u.role, u.socketId)) =
      [(.interviewer, some 0), (.candidate, some 1)] ∧
    (messagesTo 1 out).filterMap Message.solution = [js "a"] ∧
    messagesTo 1 out ≠ messagesTo 1 out' := by
  obtain ⟨c, out, out', hreach, hreach', husers, hfirst, hsecond⟩ : ∃ c out out',
      Reaches (exampleConfig (exampleDatabase (js "a"))) .interview 0 exampleInterview c out ∧
      Reaches (exampleConfig (exampleDatabase (js "b"))) .interview 0 exampleInterview c out' ∧
      c.shared.room.users.map (fun u => (u.role, u.socketId)) =
        [(.interviewer, some 0), (.candidate, some 1)] ∧
      (messagesTo 1 out).filterMap Message.solution = [js "a"] ∧
      (messagesTo 1 out').filterMap Message.solution = [js "b"] :=
    ⟨_, _, _, rfl, rfl, rfl, rfl, rfl⟩
  refine ⟨c, out, out', hreach, hreach', husers, hfirst, fun heq => ?_⟩
  rw [← heq, hfirst] at hsecond
  exact absurd hsecond (by decide)

end CodeShare
