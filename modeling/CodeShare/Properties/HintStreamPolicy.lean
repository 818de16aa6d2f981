import CodeShare.Properties.HintBracket
import CodeShare.Properties.HintPolicy

/-! # Hints are shown before they are checked

The chunks of a stream go to the room as they arrive, and the policy is applied to all of them when the
stream has ended.
-/

namespace CodeShare
open Tasks HintService
set_option autoImplicit false

/-- The handlers with the output policy of the hint service. -/
def Config.withHintPolicy (cfg : Config) : Config := 
  { cfg with sanitizeLLMHint := HintService.sanitizeLLMHint }

/-! ## What is sent and shown -/

/-- The chunk that a segment forwards. -/
def chunkOf : ServerTrigger → Option JsString
  | .task (.hintStream _ _ _ _) (.chunk text) => some text
  | _ => none

def Message.chunk : Message → Option JsString
  | hintChunk text => some text
  | _ => none

def Message.doneText : Message → Option JsString
  | hintDone text _ => some text
  | _ => none

/-- The chunks that a socket receives. -/
def chunksTo (k : SocketId) (out : List Effect) : List JsString := (messagesTo k out).filterMap Message.chunk

/-- The text that a socket is shown chunk by chunk. -/
def shownTo (k : SocketId) (turns : List ServerTurn) : JsString :=
  (turns.flatMap fun turn => chunksTo k turn.out).flatten

/-- A segment that forwards a chunk forwards it to the room, and no other forwards one. -/
def Forwards (turn : ServerTurn) : Prop := ∀ k, chunksTo k turn.out =
  (chunkOf turn.trigger).elim [] (List.replicate (turn.before.shared.joined.count k))

/-- The chunks of a thread, in order. -/
def streamedText (turns : List ServerTurn) : JsString :=
  (turns.filterMap fun turn => chunkOf turn.trigger).flatten

variable {cfg : Config} {s : Server} {t : ServerTrigger} {g : Step} {o : Outcome} {d : Delivery} {k : SocketId}
  {prompt : HintPrompt} {turns : List ServerTurn}

theorem chunksTo_of_heard {out : List Effect} (h : (hintExchange cfg).heard k out = []) :
    chunksTo k out = [] := by
  unfold chunksTo
  rw [List.filterMap_eq_nil_iff]
  intro m hm
  cases m with
  | hintChunk text =>
    have hmem : Message.hintChunk text ∈ (hintExchange cfg).heard k out := List.mem_filter.mpr ⟨hm, rfl⟩
    rw [h] at hmem
    cases hmem
  | _ => rfl

theorem chunksTo_of_messages {out : List Effect} (h : messagesTo k out = []) : chunksTo k out = [] := by
  rw [chunksTo, h]
  rfl

/-! ## The segments of a delivery -/

/-- A delivery that goes on before its stream says nothing. -/
def GoesOn (d : Delivery) (g : Step) : Prop :=
  g.next = [] ∨ (∀ k, messagesTo k g.out = []) ∧ ∃ task, g.next = [task] ∧ task.delivery = some d ∧
    (task.isStream = true → ∃ prompt, task = .hintStream d prompt [] false)

theorem afterHintFailure_goesOn (reason : Failure) : GoesOn d (afterHintFailure s d reason) := by
  cases reason <;> exact .inl rfl

theorem goesOn_suspend {task : Task} (htask : task.delivery = some d) (hstream : task.isStream = false) :
    GoesOn d ((Segment.of s).suspend task) := by
  refine .inr ⟨fun _ => rfl, task, rfl, htask, fun hyes => ?_⟩
  rw [hstream] at hyes
  cases hyes

theorem afterStoredHint_goesOn (h : afterStoredHint cfg s d o = some g) : GoesOn d g := by
  unfold afterStoredHint at h
  split at h
  · split_ifs at h
    cases h
    exact .inl rfl
  · cases h
    unfold prepareLLMHintRequest
    split_ifs
    · exact .inl rfl
    · exact .inl rfl
    · exact goesOn_suspend rfl rfl
  · cases h; exact afterHintFailure_goesOn _
  · cases h

theorem afterHintIpLimiter_goesOn (h : afterHintIpLimiter s d o = some g) : GoesOn d g := by
  unfold afterHintIpLimiter at h
  split at h <;> cases h
  · exact goesOn_suspend rfl rfl
  · exact .inl rfl
  · exact goesOn_suspend rfl rfl

theorem afterHintQuota_goesOn (h : afterHintQuota cfg s d o = some g) : GoesOn d g := by
  unfold afterHintQuota at h
  split at h
  · split_ifs at h
    · cases h; exact .inl rfl
    · split at h <;> cases h
      exact goesOn_suspend rfl rfl
  · cases h; exact .inl rfl
  · cases h; exact goesOn_suspend rfl rfl
  · cases h

theorem afterHintProblem_goesOn {p : ProblemId} (h : afterHintProblem cfg s d p o = some g) :
    GoesOn d g := by
  unfold afterHintProblem at h
  split at h
  · split_ifs at h
    · cases h; exact .inl rfl
    · cases h; exact goesOn_suspend rfl rfl
    · cases h; exact goesOn_suspend rfl rfl
  · cases h; exact .inl rfl
  · cases h; exact goesOn_suspend rfl rfl
  · cases h

theorem afterHintLimiter_goesOn (h : afterHintLimiter s d prompt o = some g) : GoesOn d g := by
  unfold afterHintLimiter at h
  split at h <;> cases h <;> exact goesOn_suspend rfl rfl

theorem afterHintReserve_goesOn (h : afterHintReserve s d prompt o = some g) : GoesOn d g := by
  unfold afterHintReserve at h
  split at h <;> cases h
  · exact .inr ⟨fun _ => rfl, _, rfl, rfl, fun _ => ⟨prompt, rfl⟩⟩
  · exact .inl rfl
  · exact goesOn_suspend rfl rfl

theorem delivery_goesOn {task : Task} (htask : task.delivery = some d) (hstream : task.isStream = false)
    (h : (server cfg).fire s (.task task o) = some g) : GoesOn d g := by
  change resumeTask cfg s task o = some g at h
  cases task with
  | hintStored => obtain rfl := Option.some.inj htask; exact afterStoredHint_goesOn h
  | hintIpLimiter => obtain rfl := Option.some.inj htask; exact afterHintIpLimiter_goesOn h
  | hintQuota => obtain rfl := Option.some.inj htask; exact afterHintQuota_goesOn h
  | hintProblem => obtain rfl := Option.some.inj htask; exact afterHintProblem_goesOn h
  | hintLimiter => obtain rfl := Option.some.inj htask; exact afterHintLimiter_goesOn h
  | hintReserve => obtain rfl := Option.some.inj htask; exact afterHintReserve_goesOn h
  | hintStream => cases hstream
  | hintFailing d reason =>
    obtain rfl := Option.some.inj htask
    cases o <;> cases h
    exact afterHintFailure_goesOn reason
  | _ => cases htask

/-! ## A thread -/

/-- The task of a segment is a stream. -/
def runsStream : ServerTrigger → Bool
  | .task task _ => task.isStream
  | .event _ => false

inductive StreamProgress (cfg : Config) : List ServerTurn → List Task → Prop where
  | apart {turns : List ServerTurn} {ts : List Task} (hturns : ∀ turn ∈ turns, runsStream turn.trigger = false)
      (hts : ∀ task ∈ ts, (hintExchange cfg).Apart task) : StreamProgress cfg turns ts
  | preparing {turns : List ServerTurn} {task : Task} (hturns : ∀ turn ∈ turns, runsStream turn.trigger = false)
      (hforwards : ∀ turn ∈ turns, Forwards turn) (htask : (hintExchange cfg).prepares task = true) :
      StreamProgress cfg turns [task]
  | delivering {turns : List ServerTurn} {task : Task} {d : Delivery}
      (hturns : ∀ turn ∈ turns, runsStream turn.trigger = false)
      (hforwards : ∀ turn ∈ turns, Forwards turn) (htask : task.delivery = some d)
      (hstream : task.isStream = false) : StreamProgress cfg turns [task]
  | streaming {turns : List ServerTurn} {d : Delivery} {prompt : HintPrompt} {closing : Bool}
      (hturns : ∀ turn ∈ turns, runsStream turn.trigger = (chunkOf turn.trigger).isSome)
      (hforwards : ∀ turn ∈ turns, Forwards turn) :
      StreamProgress cfg turns [.hintStream d prompt (streamedText turns) closing]
  | ended {turns : List ServerTurn} {last : ServerTurn} {d : Delivery} {prompt : HintPrompt} {closing : Bool}
      {o : Outcome} {g : Step} (hforwards : ∀ turn ∈ turns, Forwards turn)
      (hlast : last.trigger = .task (.hintStream d prompt (streamedText turns) closing) o)
      (hfire : afterHintStream cfg last.before.shared d prompt (streamedText turns) closing o = some g)
      (hout : last.out = g.out) : StreamProgress cfg (turns ++ [last]) []

variable {ts : List Task}

theorem StreamProgress.perm {ts' : List Task} (hperm : ts.Perm ts') (h : StreamProgress cfg turns ts) :
    StreamProgress cfg turns ts' := by
  cases h with
  | apart hturns hts => exact .apart hturns fun task hm => hts task (hperm.mem_iff.mpr hm)
  | preparing hturns hforwards htask =>
    rw [← List.singleton_perm.mp hperm]
    exact .preparing hturns hforwards htask
  | delivering hturns hforwards htask hstream =>
    rw [← List.singleton_perm.mp hperm]
    exact .delivering hturns hforwards htask hstream
  | streaming hturns hforwards =>
    rw [← List.singleton_perm.mp hperm]
    exact .streaming hturns hforwards
  | ended hforwards hlast hfire hout =>
    rw [List.nil_perm.mp hperm]
    exact .ended hforwards hlast hfire hout

theorem chunkOf_of_not_stream (h : runsStream t = false) : chunkOf t = none := by
  cases t with
  | event e => rfl
  | task task o =>
    cases task with
    | hintStream => cases h
    | _ => rfl

theorem forwards_of_silent {turn : ServerTurn} (hturn : runsStream turn.trigger = false)
    (hsilent : ∀ k, chunksTo k turn.out = []) : Forwards turn := by
  intro k
  rw [hsilent k, chunkOf_of_not_stream hturn]
  rfl

/-- Nothing is accumulated before the stream. -/
theorem streamedText_eq_nil (h : ∀ turn ∈ turns, runsStream turn.trigger = false) :
    streamedText turns = [] := by
  have hnone : (turns.filterMap fun turn => chunkOf turn.trigger) = [] :=
    List.filterMap_eq_nil_iff.mpr fun turn hm => chunkOf_of_not_stream (h turn hm)
  rw [streamedText, hnone]
  rfl

theorem streamedText_concat (turns : List ServerTurn) (turn : ServerTurn) :
    streamedText (turns ++ [turn]) = streamedText turns ++ (chunkOf turn.trigger).getD [] := by
  rw [streamedText, List.filterMap_append, List.flatten_append, ← streamedText]
  cases hchunk : chunkOf turn.trigger with
  | none => simp [hchunk]
  | some text => simp [hchunk]

theorem runsStream_of_apart {task : Task} (htask : (hintExchange cfg).Apart task) :
    runsStream (.task task o) = false := by
  cases task with
  | hintStream => cases htask.2
  | _ => rfl

theorem runsStream_of_prepares {task : Task} (htask : (hintExchange cfg).prepares task = true) :
    runsStream (.task task o) = false := by
  cases task with
  | hintStream => cases htask
  | _ => rfl

theorem StreamProgress.begin {turn : ServerTurn} {e : ServerEvent} (htrigger : turn.trigger = .event e)
    (hout : turn.out = g.out) (h : (server cfg).fire s (.event e) = some g) :
    StreamProgress cfg [turn] g.next := by
  have hturns : ∀ turn' ∈ [turn], runsStream turn'.trigger = false := by
    rw [List.forall_mem_singleton, htrigger]
    rfl
  rcases (hint_steps.event h).2 with hapart | ⟨hsilent, task, hnext, htask⟩
  · exact .apart hturns hapart
  · rw [hnext]
    refine .preparing hturns ?_ htask
    rw [List.forall_mem_singleton]
    refine forwards_of_silent (by rw [htrigger]; rfl) fun k => ?_
    rw [hout]
    exact chunksTo_of_heard (hsilent k)

/-- A chunk goes to the room; whatever else comes ends the stream. -/
theorem StreamProgress.stream {turn : ServerTurn} {closing : Bool}
    (hturns : ∀ turn ∈ turns, runsStream turn.trigger = (chunkOf turn.trigger).isSome)
    (hforwards : ∀ turn ∈ turns, Forwards turn)
    (htrigger : turn.trigger = .task (.hintStream d prompt (streamedText turns) closing) o)
    (hout : turn.out = g.out)
    (h : afterHintStream cfg turn.before.shared d prompt (streamedText turns) closing o = some g) :
    StreamProgress cfg (turns ++ [turn]) g.next := by
  have hfire := h
  have hended : g.next = [] → StreamProgress cfg (turns ++ [turn]) g.next := by
    intro hnext
    rw [hnext]
    exact .ended hforwards htrigger hfire hout
  unfold afterHintStream at h
  split at h
  · rename_i text
    split_ifs at h
    cases h
    have hchunk : chunkOf turn.trigger = some text := by
      rw [htrigger]
      rfl
    have hturn : Forwards turn := by
      intro k
      rw [hchunk, hout, Segment.suspend_out, chunksTo, messagesTo_toRoom]
      show (List.replicate _ (Message.hintChunk text)).filterMap Message.chunk = List.replicate _ text
      rw [List.filterMap_replicate]
      rfl
    have htext : streamedText (turns ++ [turn]) = streamedText turns ++ text := by
      rw [streamedText_concat, hchunk]
      rfl
    rw [← htext]
    refine .streaming (forall_mem_concat hturns ?_) (forall_mem_concat hforwards hturn)
    rw [hchunk, htrigger]
    rfl
  · cases h
    refine hended ?_
    unfold finishHintStream
    split <;> rfl
  · cases h
    exact hended rfl
  · cases h

theorem StreamProgress.step {turn : ServerTurn} {task : Task} (hprogress : StreamProgress cfg turns (task :: ts))
    (htrigger : turn.trigger = .task task o) (hout : turn.out = g.out)
    (h : (server cfg).fire turn.before.shared (.task task o) = some g) :
    StreamProgress cfg (turns ++ [turn]) (ts ++ g.next) := by
  cases hprogress with
  | apart hturns hts =>
    have htask := hts task List.mem_cons_self
    refine .apart (forall_mem_concat hturns (by rw [htrigger]; exact runsStream_of_apart htask))
      fun task' hm => ?_
    rcases List.mem_append.mp hm with hm | hm
    · exact hts task' (List.mem_cons_of_mem _ hm)
    · exact (hint_apart htask h).2 task' hm
  | preparing hturns hforwards htask =>
    have hstream : runsStream turn.trigger = false := by
      rw [htrigger]
      exact runsStream_of_prepares htask
    have hturns' := forall_mem_concat hturns hstream
    rw [List.nil_append]
    rcases admitted_starts_hint htask h with hnext | ⟨d, hsilent, hnext⟩
    · rw [hnext]
      exact .apart hturns' nofun
    · rw [hnext]
      refine .delivering (d := d) hturns' (forall_mem_concat hforwards ?_) rfl rfl
      refine forwards_of_silent hstream fun k => ?_
      rw [hout]
      exact chunksTo_of_heard (hsilent k)
  | @delivering _ _ d hturns hforwards htask hstream =>
    have hturn : runsStream turn.trigger = false := by
      rw [htrigger]
      exact hstream
    have hturns' := forall_mem_concat hturns hturn
    rw [List.nil_append]
    rcases delivery_goesOn htask hstream h with hnext | ⟨hsilent, task', hnext, htask', hstarts⟩
    · rw [hnext]
      exact .apart hturns' nofun
    · have hforwards' : ∀ turn' ∈ turns ++ [turn], Forwards turn' := by
        refine forall_mem_concat hforwards (forwards_of_silent hturn fun k => ?_)
        rw [hout]
        exact chunksTo_of_messages (hsilent k)
      rw [hnext]
      cases hnew : task'.isStream with
      | false => exact .delivering hturns' hforwards' htask' hnew
      | true =>
        obtain ⟨prompt, rfl⟩ := hstarts hnew
        have hprogress : StreamProgress cfg (turns ++ [turn])
            [.hintStream d prompt (streamedText (turns ++ [turn])) false] := by
          refine .streaming (fun turn' hturn' => ?_) hforwards'
          rw [hturns' turn' hturn', chunkOf_of_not_stream (hturns' turn' hturn')]
          rfl
        rwa [streamedText_eq_nil hturns'] at hprogress
  | streaming hturns hforwards =>
    rw [List.nil_append]
    exact .stream hturns hforwards htrigger hout h

theorem stream_progress {mode : RoomMode} {now : Time} {acts : List ServerAct} {conf : ThreadedServerConf}
    {out : List Effect} (h : ReachesThreaded cfg mode now acts conf out) {n : ℕ} (hn : n < conf.shared.2) :
    StreamProgress cfg (threadTurns cfg mode now acts n) (tasksOf n conf.pool) := by
  refine (Machine.thread_rule (P := fun _ _ => True) (J := StreamProgress cfg) ?_ ?_ ?_
    (Machine.meets_true _ _) h).threads n hn
  · exact fun _ _ _ hperm hprogress => hprogress.perm hperm
  · exact fun turn e g others _ htrigger hby => .begin htrigger hby.out hby.fire
  · exact fun turns turn t o g others ts hprogress _ htrigger hby => hprogress.step htrigger hby.out hby.fire

/-! ## The policy -/

/-- The socket is in the room whenever the stream goes on. -/
def Attends (k : SocketId) (turns : List ServerTurn) : Prop :=
  ∀ turn ∈ turns, runsStream turn.trigger = true → k ∈ turn.before.shared.joined

/-- What the policy is to mean for the sockets: nothing of a rejected text is shown, and an accepted text is the
one that is shown and delivered. -/
def Policed (cfg : Config) (turns : List ServerTurn) (last : ServerTurn) : Prop :=
  match HintService.sanitizeLLMHint (streamedText turns) cfg.maxLLMHintChars with
  | .error _ => ∀ k, shownTo k turns = []
  | .ok hint => hint.length ≤ cfg.maxLLMHintChars ∧ ∀ k, Attends k turns →
    (messagesTo k last.out).filterMap Message.doneText = [hint] ∧ shownTo k turns = hint

/-- The streams for which that is so: no one was there to see the text that is rejected, or the text that is
accepted is as it was generated. -/
def Harmless (cfg : Config) (turns : List ServerTurn) : Prop :=
  match HintService.sanitizeLLMHint (streamedText turns) cfg.maxLLMHintChars with
  | .error _ => ∀ turn ∈ turns, ∀ text, chunkOf turn.trigger = some text → text ≠ [] →
    turn.before.shared.joined = []
  | .ok _ => (IsNormal (streamedText turns) ∧ (streamedText turns).length ≤ cfg.maxLLMHintChars) ∨
    ¬ ∃ k, Attends k turns

theorem shownTo_eq_nil_iff (hforwards : ∀ turn ∈ turns, Forwards turn) :
    (∀ k, shownTo k turns = []) ↔ ∀ turn ∈ turns, ∀ text, chunkOf turn.trigger = some text → text ≠ [] →
      turn.before.shared.joined = [] := by
  constructor
  · intro hshown turn hturn text hchunk htext
    rw [List.eq_nil_iff_forall_not_mem]
    intro k hk
    have hnil := List.flatten_eq_nil_iff.mp (hshown k)
    have hchunks := hforwards turn hturn k
    rw [hchunk] at hchunks
    refine htext (hnil text (List.mem_flatMap.mpr ⟨turn, hturn, ?_⟩))
    rw [hchunks]
    exact List.mem_replicate.mpr ⟨(List.count_pos_iff.mpr hk).ne', rfl⟩
  · intro hempty k
    refine List.flatten_eq_nil_iff.mpr fun text htext => ?_
    obtain ⟨turn, hturn, hmem⟩ := List.mem_flatMap.mp htext
    rw [hforwards turn hturn k] at hmem
    cases hchunk : chunkOf turn.trigger with
    | none =>
      rw [hchunk] at hmem
      cases hmem
    | some sent =>
      rw [hchunk] at hmem
      obtain ⟨hcount, rfl⟩ := List.mem_replicate.mp hmem
      by_contra hne
      rw [hempty turn hturn text hchunk hne] at hcount
      exact hcount rfl

theorem runsStream_of_chunkOf {text : JsString} (h : chunkOf t = some text) : runsStream t = true := by
  cases t with
  | event e => cases h
  | task task o =>
    cases task with
    | hintStream => rfl
    | _ => cases h

/-- A socket that stays is shown all of the stream. -/
theorem shownTo_of_attends (hforwards : ∀ turn ∈ turns, Forwards turn)
    (hattendance : ∀ turn ∈ turns, Attendance turn.before.shared) (hattends : Attends k turns) :
    shownTo k turns = streamedText turns := by
  induction turns with
  | nil => rfl
  | cons turn turns ih =>
    rw [List.forall_mem_cons] at hforwards hattendance
    have hrest := ih hforwards.2 hattendance.2 fun turn' hturn' => hattends turn' (List.mem_cons_of_mem _ hturn')
    have hturn : (chunksTo k turn.out).flatten = (chunkOf turn.trigger).getD [] := by
      rw [hforwards.1 k]
      cases hchunk : chunkOf turn.trigger with
      | none => rfl
      | some text =>
        have hin := hattends turn List.mem_cons_self (runsStream_of_chunkOf hchunk)
        have hone := List.count_eq_one_of_mem hattendance.1.distinct hin
        simp [hone]
    rw [shownTo, List.flatMap_cons, List.flatten_append, hturn, ← shownTo, hrest, streamedText, streamedText]
    cases hchunk : chunkOf turn.trigger with
    | none => simp [hchunk]
    | some text => simp [hchunk]

theorem truncate_eq_self_iff {generated : JsString} {maxChars : ℕ} (hmax : 0 < maxChars) :
    generated = truncate (normalizeHint generated) maxChars ↔
      IsNormal generated ∧ generated.length ≤ maxChars := by
  constructor
  · intro h
    have hlength := length_truncate (normalizeHint generated) hmax
    rw [← h] at hlength
    have hnormalLength : (normalizeHint generated).length ≤ generated.length :=
      (jsTrim_sublist _).length_le.trans (List.length_filter_le _ _)
    have hshort : (normalizeHint generated).length ≤ maxChars := by omega
    rw [truncate, if_neg (by omega), if_pos hshort] at h
    refine ⟨?_, by omega⟩
    rw [h]
    exact normalizeHint_isNormal generated
  · rintro ⟨hnormal, hlength⟩
    rw [normalizeHint_eq_self hnormal, truncate, if_neg (by omega), if_pos hlength]

theorem chunksTo_finishHintStream (s : Server) (d : Delivery) (prompt : HintPrompt) (generated : JsString)
    (k : SocketId) : chunksTo k (finishHintStream cfg s d prompt generated).out = [] := by
  unfold finishHintStream
  split
  · show chunksTo k ((Segment.of s).toSocket d.socket _).out = []
    rw [chunksTo, messagesTo_toSocket, List.filterMap_append, List.filterMap_replicate]
    rfl
  · show chunksTo k (Segment.toRoom _ _).out = []
    rw [chunksTo, messagesTo_toRoom, List.filterMap_append, List.filterMap_replicate]
    rfl

/-- The end of a stream delivers the text that the policy accepts. -/
theorem doneText_finishHintStream {s : Server} {d : Delivery} {generated hint : JsString}
    (h : cfg.sanitizeLLMHint generated cfg.maxLLMHintChars = .ok hint) (k : SocketId) :
    (messagesTo k (finishHintStream cfg s d prompt generated).out).filterMap Message.doneText =
      List.replicate (s.joined.count k) hint := by
  unfold finishHintStream
  rw [h]
  show (messagesTo k (Segment.toRoom _ _).out).filterMap _ = _
  rw [messagesTo_toRoom, List.filterMap_append, List.filterMap_replicate]
  rfl

/-- A thread whose last segment is the end of a stream: what has been forwarded, and how it ends. -/
theorem stream_ended {turns : List ServerTurn} {ts : List Task} {last : ServerTurn} {generated : JsString}
    {closing : Bool} (h : StreamProgress cfg turns ts) (hlast : turns.getLast? = some last)
    (hended : last.trigger = .task (.hintStream d prompt generated closing) .streamEnd) :
    (∀ turn ∈ turns, Forwards turn) ∧
      last.out = (finishHintStream cfg last.before.shared d prompt (streamedText turns)).out := by
  have hmem : last ∈ turns := List.mem_of_getLast? hlast
  have hruns : runsStream last.trigger = true := by
    rw [hended]
    rfl
  have hnot : (∀ turn ∈ turns, runsStream turn.trigger = false) → False := by
    intro hturns
    rw [hturns last hmem] at hruns
    cases hruns
  cases h with
  | apart hturns _ => exact (hnot hturns).elim
  | preparing hturns _ _ => exact (hnot hturns).elim
  | delivering hturns _ _ _ => exact (hnot hturns).elim
  | streaming hturns _ =>
    have hchunk := hturns last hmem
    rw [hended] at hchunk
    cases hchunk
  | @ended turns last' _ _ _ _ _ hforwards htrigger hfire hout =>
    rw [List.getLast?_concat] at hlast
    obtain rfl := Option.some.inj hlast
    rw [htrigger] at hended
    obtain ⟨htask, rfl⟩ := Trigger.task.inj hended
    obtain ⟨rfl, rfl, -, -⟩ := Task.hintStream.inj htask
    obtain rfl := Option.some.inj hfire
    have hchunk : chunkOf last'.trigger = none := by
      rw [htrigger]
      rfl
    refine ⟨forall_mem_concat hforwards fun k => ?_, ?_⟩
    · rw [hout, chunksTo_finishHintStream, hchunk]
      rfl
    · rw [streamedText_concat, hchunk, hout, Option.getD_none, List.append_nil]

/-- A stream that has ended was policed exactly when it was harmless anyway. -/
theorem hint_policy_iff {mode : RoomMode} {now : Time} {acts : List ServerAct} {conf : ThreadedServerConf}
    {out : List Effect} (hmax : 0 < cfg.maxLLMHintChars)
    (h : ReachesThreaded cfg.withHintPolicy mode now acts conf out) {n : ℕ} (hn : n < conf.shared.2)
    {last : ServerTurn} {generated : JsString} {closing : Bool}
    (hlast : (threadTurns cfg.withHintPolicy mode now acts n).getLast? = some last)
    (hended : last.trigger = .task (.hintStream d prompt generated closing) .streamEnd) :
    Policed cfg (threadTurns cfg.withHintPolicy mode now acts n) last ↔
      Harmless cfg (threadTurns cfg.withHintPolicy mode now acts n) := by
  obtain ⟨hforwards, hout⟩ := stream_ended (stream_progress h hn) hlast hended
  have hattendance : ∀ turn ∈ threadTurns cfg.withHintPolicy mode now acts n,
      Attendance turn.before.shared := fun turn hturn => h.attendance hturn
  have hmem := List.mem_of_getLast? hlast
  generalize threadTurns cfg.withHintPolicy mode now acts n = turns at *
  unfold Policed Harmless
  split
  · exact shownTo_eq_nil_iff hforwards
  · rename_i hint hsanitized
    obtain ⟨-, -, rfl⟩ := sanitizeLLMHint_eq_ok.mp hsanitized
    have hlength : (truncate (normalizeHint (streamedText turns)) cfg.maxLLMHintChars).length ≤
        cfg.maxLLMHintChars := by
      rw [length_truncate _ hmax]
      exact Nat.min_le_right _ _
    rw [and_iff_right hlength, ← truncate_eq_self_iff hmax]
    constructor
    · intro hall
      by_cases hsome : ∃ k, Attends k turns
      · obtain ⟨k, hattends⟩ := hsome
        left
        rw [← (hall k hattends).2, shownTo_of_attends hforwards hattendance hattends]
      · exact Or.inr hsome
    · intro hcase k hattends
      have hsame := hcase.resolve_right fun hnone => hnone ⟨k, hattends⟩
      have hin : k ∈ last.before.shared.joined := hattends last hmem (by rw [hended]; rfl)
      have hone := List.count_eq_one_of_mem (hattendance last hmem).distinct hin
      refine ⟨?_, ?_⟩
      · rw [hout, doneText_finishHintStream hsanitized, hone]
        rfl
      · rw [shownTo_of_attends hforwards hattendance hattends]
        exact hsame

theorem hint_policy_iff_example : ∃ conf out last,
    ReachesThreaded plainConfig.withHintPolicy .collaboration 10000 exampleLlmRun conf out ∧
    (threadTurns plainConfig.withHintPolicy .collaboration 10000 exampleLlmRun 3).getLast? = some last ∧
    (∃ prompt, last.trigger = .task (.hintStream ⟨0, some 7, 0⟩ prompt (js "Use a map.") false) .streamEnd) ∧
    (Policed plainConfig (threadTurns plainConfig.withHintPolicy .collaboration 10000 exampleLlmRun 3) last ↔
      Harmless plainConfig (threadTurns plainConfig.withHintPolicy .collaboration 10000 exampleLlmRun 3)) := by
  obtain ⟨conf, out, hreach, hn⟩ : ∃ conf out,
      ReachesThreaded plainConfig.withHintPolicy .collaboration 10000 exampleLlmRun conf out ∧
        3 < conf.shared.2 := ⟨_, _, rfl, by decide⟩
  obtain ⟨last, hlast, prompt, hended⟩ : ∃ last,
      (threadTurns plainConfig.withHintPolicy .collaboration 10000 exampleLlmRun 3).getLast? = some last ∧
      ∃ prompt, last.trigger = .task (.hintStream ⟨0, some 7, 0⟩ prompt (js "Use a map.") false) .streamEnd :=
    ⟨_, rfl, _, rfl⟩
  exact ⟨conf, out, last, hreach, hlast, ⟨prompt, hended⟩, hint_policy_iff (by decide) hreach hn hlast hended⟩

/-- The only chunk is a code fence. -/
def exampleFencedStream : List ServerAct :=
  exampleJoin 0 .go ++ exampleSelect 0 7 ++ exampleLlmHint ++
    [.resume 0 (.chunk (js "```")), .resume 0 .streamEnd]

theorem rejected_hint_shown : ¬ ∀ (cfg : Config) (acts : List ServerAct) (conf : ThreadedServerConf)
    (out : List Effect) (n : ℕ) (last : ServerTurn) (d : Delivery) (prompt : HintPrompt) (generated : JsString)
    (closing : Bool), 0 < cfg.maxLLMHintChars →
    ReachesThreaded cfg.withHintPolicy .collaboration 10000 acts conf out → n < conf.shared.2 →
    (threadTurns cfg.withHintPolicy .collaboration 10000 acts n).getLast? = some last →
    last.trigger = .task (.hintStream d prompt generated closing) .streamEnd →
    Policed cfg (threadTurns cfg.withHintPolicy .collaboration 10000 acts n) last := by
  intro hclaim
  obtain ⟨conf, out, hreach, hn⟩ : ∃ conf out,
      ReachesThreaded plainConfig.withHintPolicy .collaboration 10000 exampleFencedStream conf out ∧
        3 < conf.shared.2 := ⟨_, _, rfl, by decide⟩
  obtain ⟨last, hlast, prompt, hended⟩ : ∃ last,
      (threadTurns plainConfig.withHintPolicy .collaboration 10000 exampleFencedStream 3).getLast? = some last ∧
      ∃ prompt, last.trigger = .task (.hintStream ⟨0, some 7, 0⟩ prompt (js "```") false) .streamEnd :=
    ⟨_, rfl, _, rfl⟩
  have hpoliced := hclaim plainConfig exampleFencedStream conf out 3 last _ _ _ _ (by decide) hreach hn hlast hended
  have htext : streamedText
      (threadTurns plainConfig.withHintPolicy .collaboration 10000 exampleFencedStream 3) = js "```" := rfl
  have hrejected : HintService.sanitizeLLMHint (js "```") plainConfig.maxLLMHintChars =
      .error (js "Generated hint looked like code or a full solution.") := by decide +kernel
  have hshown : shownTo 0
      (threadTurns plainConfig.withHintPolicy .collaboration 10000 exampleFencedStream 3) = js "```" := rfl
  rw [Policed, htext, hrejected] at hpoliced
  rw [hpoliced 0] at hshown
  cases hshown

end CodeShare
