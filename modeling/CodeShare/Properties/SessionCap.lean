import CodeShare.Access.SessionTransaction
import CodeShare.Foundations.Services

/-! # The session cap of an invite

Whatever runs beside it, the transaction of `createSession` takes effect as a whole with its COMMIT. The cap is
then proved of whole calls: each of them counts the sessions before it adds its own.
-/

namespace CodeShare.Access
open Tasks
set_option autoImplicit false

/-! ## Calls one after the other -/

/-- The time of a login with the invite. -/
def AccessCall.loginTo (id : Uuid) : AccessCall → Option ℤ
  | .createSession _ input => if input.inviteId = id then some input.now else none
  | _ => none

/-- The time of the last login with the invite. -/
def lastLogin (id : Uuid) (calls : List AccessCall) : Option ℤ :=
  (calls.filterMap (AccessCall.loginTo id)).getLast?

/-- Every session of the calls has been created. -/
def AllCreated (start : AccessTables) : List AccessCall → Prop :=
  AtEachPrefix fun past call => ∀ id input, call = .createSession id input →
    ((start.after past).createSession id input).2 = .created

theorem lastLogin_concat (id : Uuid) (past : List AccessCall) (call : AccessCall) :
    lastLogin id (past ++ [call]) = (call.loginTo id).or (lastLogin id past) := by
  rw [lastLogin, List.filterMap_append]
  cases h : call.loginTo id with
  | none => simp [h, lastLogin]
  | some n => simp [h]

theorem after_concat (start : AccessTables) (past : List AccessCall) (call : AccessCall) :
    start.after (past ++ [call]) = (start.after past).call call := List.foldl_concat _ _ _ _

/-- The sessions of an invite are within its cap since the last login, or no more than at the start. -/
def WithinCap (id : Uuid) (start : AccessTables) (calls : List AccessCall) : Prop :=
  match lastLogin id calls with
  | none => ∀ t, (start.after calls).countActive id t ≤ start.countActive id t
  | some now => ∃ invite, (start.after calls).invite? id = some invite ∧
      ∀ t, now ≤ t → (start.after calls).countActive id t ≤ invite.maxSessions

theorem withinCap_of_loginTo_none {id : Uuid} {start : AccessTables} {past : List AccessCall} {call : AccessCall}
    (h : WithinCap id start past) (hcall : call.loginTo id = none) : WithinCap id start (past ++ [call]) := by
  have hnone : ∀ newId input, call = .createSession newId input → input.inviteId ≠ id := by
    rintro newId input rfl hid
    rw [AccessCall.loginTo, if_pos hid] at hcall
    cases hcall
  have hle : ∀ t, (start.after (past ++ [call])).countActive id t ≤ (start.after past).countActive id t := by
    intro t
    rw [after_concat]
    exact AccessTables.countActive_call_le hnone t
  unfold WithinCap at h ⊢
  rw [lastLogin_concat, hcall, Option.none_or]
  cases hlast : lastLogin id past with
  | none =>
    rw [hlast] at h
    exact fun t => (hle t).trans (h t)
  | some now =>
    rw [hlast] at h
    obtain ⟨invite, hinvite, hcap⟩ := h
    obtain ⟨lastUsedAt, hinvite⟩ := AccessTables.invite?_call hinvite call
    rw [← after_concat] at hinvite
    exact ⟨_, hinvite, fun t ht => (hle t).trans (hcap t ht)⟩

/-- A login counts the sessions that do not expire before it, its own makes one more. -/
theorem withinCap_createSession {start : AccessTables} {past : List AccessCall} {newId : Uuid}
    {input : CreateSessionInput} (hcreated : ((start.after past).createSession newId input).2 = .created) :
    WithinCap input.inviteId start (past ++ [.createSession newId input]) := by
  have hlast : lastLogin input.inviteId (past ++ [.createSession newId input]) = some input.now := by
    rw [lastLogin_concat, AccessCall.loginTo, if_pos rfl, Option.some_or]
  unfold WithinCap
  rw [hlast, after_concat]
  rcases AccessTables.createSession_cases (start.after past) newId input with
    ⟨-, hfailed⟩ | ⟨invite, inserted, hinvite, hlt, -, -⟩
  · exact absurd hcreated hfailed
  · obtain ⟨lastUsedAt, hinvite⟩ := AccessTables.invite?_call hinvite (.createSession newId input)
    refine ⟨_, hinvite, fun t ht => ?_⟩
    have hmore := AccessTables.countActive_createSession_le (start.after past) input.inviteId newId input t
    have hless : (start.after past).countActive input.inviteId t ≤ _ := AccessTables.countActive_anti ht
    rw [if_pos rfl] at hmore
    exact hmore.trans (Nat.succ_le_of_lt (lt_of_le_of_lt hless hlt))

theorem withinCap_of_allCreated {start : AccessTables} {calls : List AccessCall} (h : AllCreated start calls)
    (id : Uuid) : WithinCap id start calls := by
  refine AtEachPrefix.invariant (I := WithinCap id start) ?_ ?_ h
  · exact fun _ => Nat.le_refl _
  · intro past call hpast hcall
    cases hlogin : call.loginTo id with
    | none => exact withinCap_of_loginTo_none hpast hlogin
    | some now =>
      cases call with
      | createSession newId input =>
        rw [AccessCall.loginTo] at hlogin
        split_ifs at hlogin with hid
        subst hid
        exact withinCap_createSession (hcall newId input rfl)
      | createInvite row => cases hlogin
      | revokeSession id' now' => cases hlogin
      | revokeInvite id' now' => cases hlogin

/-! ## Transactions take effect as a whole -/

/-- What has taken effect, in order. -/
def performed (out : List SessionOutput) : List AccessCall :=
  out.filterMap fun
    | .performed call => some call
    | _ => none

theorem performed_append (out out' : List SessionOutput) :
    performed (out ++ out') = performed out ++ performed out' := List.filterMap_append

theorem performed_eq_nil {out : List SessionOutput} (h : ∀ call, .performed call ∉ out) : performed out = [] := by
  refine List.filterMap_eq_nil_iff.mpr fun o hm => ?_
  cases o with
  | performed call => exact absurd hm (h call)
  | returned session => rfl
  | threw => rfl

/-- The tables are those behind what has been performed. -/
structure TakesEffect (start : AccessTables) (c : Conf AccessDatabase SessionTask) (out : List SessionOutput) :
    Prop where
  ok : DatabaseOk c
  tables : c.shared.tables = start.after (performed out)
  created : AllCreated start (performed out)

theorem takesEffect_step {start : AccessTables} {c c' : Conf AccessDatabase SessionTask}
    {past out : List SessionOutput} {t : Trigger AccessEvent SessionTask StatementOutcome}
    {g : AccessDatabase.SessionSegment} {rest : List SessionTask} (h : TakesEffect start c past)
    (hby : sessionMachine.StepBy c c' out t g rest) : TakesEffect start c' (past ++ out) := by
  have hquiet : g.state.tables = c.shared.tables → (∀ call, .performed call ∉ g.out) →
      TakesEffect start c' (past ++ out) := by
    intro htables hout
    rw [hby.out]
    refine ⟨h.ok.step hby, ?_, ?_⟩
    · rw [hby.shared, htables, performed_append, performed_eq_nil hout, List.append_nil]
      exact h.tables
    · rw [performed_append, performed_eq_nil hout, List.append_nil]
      exact h.created
  have hcalls : ∀ call, g.state.tables = c.shared.tables.call call → g.out = [.performed call] →
      (∀ id input, call = .createSession id input →
        ((start.after (performed past)).createSession id input).2 = .created) →
      TakesEffect start c' (past ++ out) := by
    intro call htables hout hcreated
    have hperformed : performed (past ++ out) = performed past ++ [call] := by
      rw [hby.out, hout, performed_append]
      rfl
    refine ⟨h.ok.step hby, ?_, ?_⟩
    · rw [hby.shared, htables, hperformed, after_concat, h.tables]
    · rw [hperformed]
      exact AtEachPrefix.concat_iff.mpr ⟨h.created, hcreated⟩
  have hstep := h.ok.sessionStep hby
  have htaken : ∀ task ∈ t.taken, task.Ok c.shared.tables := fun task hm =>
    h.ok.tasks task (hby.mem_of_taken hm)
  generalize t.taken = taken at hstep htaken
  cases hstep with
  | performs call hcall =>
    refine hcalls call rfl rfl fun id input heq => ?_
    rw [heq] at hcall
    exact hcall.elim
  | @commits input row next g hnext hcommit =>
    obtain ⟨hroom, hrow⟩ := htaken _ (List.mem_singleton_self _)
    obtain ⟨hcreated, rfl⟩ := commit_eq hroom hrow hcommit
    refine hcalls _ rfl rfl fun id input heq => ?_
    obtain ⟨rfl, rfl⟩ := AccessCall.createSession.inj heq
    rw [← h.tables]
    exact hcreated
  | keeps hholdings hnext hout hflow => exact hquiet rfl hout
  | acquires hfree hholdings hnext hrow => exact hquiet rfl nofun
  | releases hholdings hnext hout hflow => exact hquiet rfl hout

theorem takesEffect_run {start : AccessTables} {acts : List (Act AccessEvent StatementOutcome)}
    {c : Conf AccessDatabase SessionTask} {out : List SessionOutput}
    (hrun : sessionMachine.run ⟨⟨start, []⟩, []⟩ acts = some (c, out)) : TakesEffect start c out :=
  Machine.run_preserves_always (I := TakesEffect start) (fun _ _ _ _ _ _ _ h hby => takesEffect_step h hby)
    ⟨databaseOk_start start, rfl, AtEachPrefix.nil⟩ hrun

/-! ## One call among the others -/

abbrev SessionTurn := Turn AccessDatabase SessionTask AccessEvent StatementOutcome SessionOutput

/-- The COMMIT of a call has been carried out. -/
def Commits (turns : List SessionTurn) : Prop :=
  ∃ id input, .performed (.createSession id input) ∈ turns.flatMap Turn.out

/-- The segments have left the tables as they were. -/
def Untouched (turns : List SessionTurn) : Prop :=
  ∀ turn ∈ turns, turn.after.shared.tables = turn.before.shared.tables

/-- How far a call has come, with the task in which it waits. -/
inductive SessionThread : List SessionTurn → List SessionTask → Prop where
  | other {turn : SessionTurn} {e : AccessEvent} (htrigger : turn.trigger = .event e)
      (he : ∀ input, e ≠ .createSession input) : SessionThread [turn] []
  | open {turns : List SessionTurn} {task : SessionTask} (huntouched : Untouched turns)
      (hout : turns.flatMap Turn.out = []) : SessionThread turns [task]
  | closed {turns : List SessionTurn} (huntouched : Untouched turns)
      (hout : ∀ call, .performed call ∉ turns.flatMap Turn.out) : SessionThread turns []
  | committed {turns : List SessionTurn} {ts : List SessionTask} (hcommits : Commits turns)
      (hout : .returned none ∉ turns.flatMap Turn.out)
      (hts : ts = [] ∨ (∃ id, ts = [.reading id]) ∨ ts = [.undoing []]) : SessionThread turns ts

/-- Behind its COMMIT a call has a session to return. -/
theorem resume_behind_commit {db : AccessDatabase} {task : SessionTask} {o : StatementOutcome}
    {g : AccessDatabase.SessionSegment} (htask : (∃ id, [task] = [SessionTask.reading id]) ∨ [task] = [.undoing []])
    (hok : task.Ok db.tables) (h : sessionResume db task o = some g) : g.next = [] ∧ .returned none ∉ g.out := by
  rcases htask with ⟨id, htask⟩ | htask
  · obtain rfl := (List.cons.inj htask).1
    cases o with
    | done =>
      obtain rfl := Option.some.inj h
      refine ⟨rfl, fun hm => ?_⟩
      have hnone : none = db.tables.findSessionRecordById id :=
        SessionOutput.returned.inj (List.mem_singleton.mp hm)
      have hsome : (db.tables.findSessionRecordById id).isSome = true := hok
      rw [← hnone] at hsome
      cases hsome
    | failed ended =>
      obtain rfl := Option.some.inj h
      exact ⟨rfl, by simp⟩
    | generated id' => cases h
    | lost => cases h
  · obtain rfl := (List.cons.inj htask).1
    cases o with
    | done =>
      obtain rfl := Option.some.inj h
      exact ⟨rfl, by simp⟩
    | failed ended =>
      obtain rfl := Option.some.inj h
      exact ⟨rfl, by simp⟩
    | generated id' => cases h
    | lost => cases h

/-- What one more segment makes of a call that has not been committed. -/
theorem sessionThread_step {turns : List SessionTurn} {turn : SessionTurn} {taken : List SessionTask}
    {g : AccessDatabase.SessionSegment} (hok : ∀ task ∈ taken, task.Ok turn.before.shared.tables)
    (hstep : SessionStep turn.before.shared taken g) (hperforms : taken = [] → ∀ call, .performed call ∉ g.out)
    (hafter : turn.after.shared = g.state) (hturn : turn.out = g.out) (huntouched : Untouched turns)
    (hout : turns.flatMap Turn.out = []) : SessionThread (turns ++ [turn]) g.next := by
  have houts : (turns ++ [turn]).flatMap Turn.out = g.out := by
    rw [List.flatMap_append, hout, List.flatMap_singleton, hturn]
    rfl
  have hsame : g.state.tables = turn.before.shared.tables → Untouched (turns ++ [turn]) := by
    intro htables other hm
    rcases List.mem_append.mp hm with hm | hm
    · exact huntouched other hm
    · rw [List.mem_singleton.mp hm, hafter, htables]
  have hflow : g.state.tables = turn.before.shared.tables → (∀ call, .performed call ∉ g.out) →
      g.next = [] ∨ g.out = [] ∧ g.next.length = 1 → SessionThread (turns ++ [turn]) g.next := by
    rintro htables hnone (hnext | ⟨hempty, hlength⟩)
    · rw [hnext]
      exact .closed (hsame htables) (houts ▸ hnone)
    · obtain ⟨task, htask⟩ := List.length_eq_one_iff.mp hlength
      rw [htask]
      exact .open (hsame htables) (houts.trans hempty)
  cases hstep with
  | performs call hcall => exact absurd (List.mem_singleton_self _) (hperforms rfl call)
  | @commits input row next g hnext hcommit =>
    obtain ⟨hroom, hrow⟩ := hok _ (List.mem_singleton_self _)
    obtain ⟨-, rfl⟩ := commit_eq hroom hrow hcommit
    refine .committed ⟨row.id, input, ?_⟩ ?_ ?_
    · rw [houts]
      exact List.mem_singleton_self _
    · rw [houts]
      simp
    · rcases hnext with rfl | rfl
      · exact .inr (.inl ⟨_, rfl⟩)
      · exact .inr (.inr rfl)
  | keeps hholdings hnext hnone hflow' => exact hflow rfl hnone hflow'
  | acquires hfree hholdings hnext hrow => exact hflow rfl nofun (.inr ⟨rfl, rfl⟩)
  | releases hholdings hnext hnone hflow' => exact hflow rfl hnone hflow'

theorem SessionThread.length_le {turns : List SessionTurn} {ts : List SessionTask} (h : SessionThread turns ts) :
    ts.length ≤ 1 := by
  cases h with
  | other htrigger he => exact Nat.zero_le _
  | «open» huntouched hout => exact Nat.le_refl _
  | closed huntouched hout => exact Nat.zero_le _
  | committed hcommits hout hts => rcases hts with rfl | ⟨id, rfl⟩ | rfl <;> simp

theorem SessionThread.perm {turns : List SessionTurn} {ts ts' : List SessionTask} (hperm : ts.Perm ts')
    (h : SessionThread turns ts) : SessionThread turns ts' := by
  rw [← Machine.eq_of_perm_short h.length_le hperm]
  exact h

theorem sessionThreads {start : AccessTables} {acts : List (Act AccessEvent StatementOutcome)}
    {d : Conf (AccessDatabase × ℕ) (Threaded AccessDatabase SessionTask AccessEvent)} {out : List SessionOutput}
    (hrun : sessionMachine.threaded.run ⟨(⟨start, []⟩, 0), []⟩ acts = some (d, out)) :
    Machine.ThreadsOk SessionThread (sessionMachine.threaded.history ⟨(⟨start, []⟩, 0), []⟩ acts) d := by
  refine Machine.thread_rule (P := fun c _ => DatabaseOk c) (fun _ _ _ hperm h => h.perm hperm) ?_ ?_
    (Machine.meets_of_invariant (fun _ _ _ _ _ _ h hby => h.step hby) (databaseOk_start start) acts) hrun
  · intro turn e g others hok htrigger hby
    by_cases hcreate : ∃ input, e = .createSession input
    · obtain ⟨input, rfl⟩ := hcreate
      obtain rfl : _ = g := Option.some.inj hby.fire
      exact sessionThread_step (fun _ hm => absurd hm List.not_mem_nil) (hok.sessionStep hby)
        (fun _ _ => List.not_mem_nil) hby.shared hby.out (fun _ hm => absurd hm List.not_mem_nil) rfl
    · have hnone : g.next = [] := by
        cases e with
        | createSession input => exact absurd ⟨input, rfl⟩ hcreate
        | createInvite row => exact congrArg Segment.next (Option.some.inj hby.fire).symm
        | revokeSession id now => exact congrArg Segment.next (Option.some.inj hby.fire).symm
        | revokeInvite id now =>
          have hfire : sessionHandle turn.before.shared (.revokeInvite id now) = some g := hby.fire
          rw [sessionHandle] at hfire
          split_ifs at hfire
          exact congrArg Segment.next (Option.some.inj hfire).symm
      rw [hnone]
      exact .other htrigger fun input heq => hcreate ⟨input, heq⟩
  · intro turns turn task o g others ts hthread hok htrigger hby
    cases hthread with
    | «open» huntouched hout =>
      exact sessionThread_step (fun _ hm => hok.tasks _ (hby.mem_of_taken hm)) (hok.sessionStep hby)
        (fun hnone => absurd hnone (List.cons_ne_nil _ _)) hby.shared hby.out huntouched hout
    | committed hcommits hout hts =>
      obtain rfl : ts = [] := by
        rcases hts with hts | ⟨id, hts⟩ | hts
        · cases hts
        · exact (List.cons.inj hts).2
        · exact (List.cons.inj hts).2
      have hended := resume_behind_commit (hts.resolve_left (List.cons_ne_nil _ _))
        (hok.tasks task (hby.mem_of_taken (List.mem_singleton_self _))) hby.fire
      obtain ⟨id, input, hcommitted⟩ := hcommits
      refine .committed ⟨id, input, ?_⟩ ?_ (.inl hended.1)
      · rw [List.flatMap_append]
        exact List.mem_append_left _ hcommitted
      · rw [List.flatMap_append, List.flatMap_singleton, hby.out]
        exact fun hm => (List.mem_append.mp hm).elim hout hended.2

/-- **No interleaving exceeds the cap, and a call without a COMMIT changes nothing.** -/
theorem session_cap {start : AccessTables} {acts : List (Act AccessEvent StatementOutcome)}
    {d : Conf (AccessDatabase × ℕ) (Threaded AccessDatabase SessionTask AccessEvent)} {out : List SessionOutput}
    (hrun : sessionMachine.threaded.run ⟨(⟨start, []⟩, 0), []⟩ acts = some (d, out)) :
    (∀ id invite t, d.shared.1.tables.invite? id = some invite →
      start.countActive id t ≤ invite.maxSessions →
      (∀ now, lastLogin id (performed out) = some now → now ≤ t) →
      d.shared.1.tables.countActive id t ≤ invite.maxSessions) ∧
    ∀ k < d.shared.2,
      let turns := turnsOf k (sessionMachine.threaded.history ⟨(⟨start, []⟩, 0), []⟩ acts)
      (∃ turn ∈ turns, ∃ input, turn.trigger = .event (.createSession input)) →
      (.returned none ∈ turns.flatMap Turn.out → ¬ Commits turns) ∧ (¬ Commits turns → Untouched turns) := by
  have heffect := takesEffect_run (Machine.run_of_threaded hrun).1
  refine ⟨?_, ?_⟩
  · intro id invite t hinvite hstart hlast
    have hcap := withinCap_of_allCreated heffect.created id
    have htables : start.after (performed out) = d.shared.1.tables := heffect.tables.symm
    unfold WithinCap at hcap
    rw [htables] at hcap
    cases hlogin : lastLogin id (performed out) with
    | none =>
      rw [hlogin] at hcap
      exact (hcap t).trans hstart
    | some now =>
      rw [hlogin] at hcap
      obtain ⟨invite', hinvite', hcap⟩ := hcap
      obtain rfl := Option.some.inj (hinvite.symm.trans hinvite')
      exact hcap t (hlast now hlogin)
  · intro k hk turns hcreate
    have hthread := (sessionThreads hrun).threads k hk
    change SessionThread turns _ at hthread
    generalize tasksOf k d.pool = ts at hthread
    clear_value turns
    cases hthread with
    | other htrigger he =>
      obtain ⟨turn, hm, input, hinput⟩ := hcreate
      rw [List.mem_singleton.mp hm, htrigger] at hinput
      exact absurd (Trigger.event.inj hinput) (he input)
    | «open» huntouched hout =>
      rw [hout]
      exact ⟨nofun, fun _ => huntouched⟩
    | closed huntouched hout => exact ⟨fun _ ⟨id, input, hm⟩ => hout _ hm, fun _ => huntouched⟩
    | committed hcommits hout hts => exact ⟨fun hm => absurd hm hout, fun hnot => absurd hcommits hnot⟩

/-! ## An example -/

def cappedInvite : InviteRow where
  id := ⟨js "9b2d7c1e-0000-4000-8000-000000000001", by decide +kernel⟩
  label := js "friends"
  codeHash := js "scrypt:v1:a1b2:c3d4"
  codeLookupHash := none
  maxSessions := 1
  expiresAt := none
  revokedAt := none
  lastUsedAt := none

def cappedTables : AccessTables := ⟨[cappedInvite], [], List.nodup_singleton _, List.nodup_nil⟩

/-- Two logins at once, of which the second waits for the invite and is refused. -/
def exampleLogins : List (Act AccessEvent StatementOutcome) :=
  [.event (.createSession ⟨cappedInvite.id, js "a", 5000, 1000⟩),
    .event (.createSession ⟨cappedInvite.id, js "b", 5500, 900⟩), .resume 0 .done, .resume 0 .done,
    .resume 0 .done, .resume 0 .done, .resume 0 .done, .resume 1 .done,
    .resume 1 (.generated ⟨js "3f2504e0-4f89-41d3-9a0c-0305e82c3301", by decide +kernel⟩), .resume 1 .done,
    .resume 1 .done, .resume 0 .done, .resume 1 .done, .resume 1 .done, .resume 0 .done]

/-- One session at a time that both could see, and nothing of the second login. -/
theorem session_cap_example : ∃ d out,
    sessionMachine.threaded.run ⟨(⟨cappedTables, []⟩, 0), []⟩ exampleLogins = some (d, out) ∧
    d.shared.1.tables.countActive cappedInvite.id 1000 ≤ 1 ∧
    Untouched (turnsOf 1 (sessionMachine.threaded.history ⟨(⟨cappedTables, []⟩, 0), []⟩ exampleLogins)) := by
  have hfacts : (sessionMachine.threaded.run ⟨(⟨cappedTables, []⟩, 0), []⟩ exampleLogins).map (fun r =>
      ((r.1.shared.1.tables.invite? cappedInvite.id).map InviteRow.maxSessions, r.1.shared.2,
        lastLogin cappedInvite.id (performed r.2))) = some (some 1, 2, some 1000) := by decide +kernel
  obtain ⟨⟨d, out⟩, hrun, hfacts⟩ := Option.map_eq_some_iff.mp hfacts
  simp only [Prod.mk.injEq] at hfacts
  obtain ⟨hinvite, hcount, hlast⟩ := hfacts
  obtain ⟨invite, hinvite, hmax⟩ := Option.map_eq_some_iff.mp hinvite
  obtain ⟨hcap, hcalls⟩ := session_cap hrun
  have hcreate : (turnsOf 1 (sessionMachine.threaded.history ⟨(⟨cappedTables, []⟩, 0), []⟩ exampleLogins)).any
      (fun turn => match turn.trigger with
        | .event (.createSession _) => true
        | _ => false) = true := by decide +kernel
  have hreturned : .returned none ∈ (turnsOf 1 (sessionMachine.threaded.history
      ⟨(⟨cappedTables, []⟩, 0), []⟩ exampleLogins)).flatMap Turn.out := by decide +kernel
  obtain ⟨turn, hm, hturn⟩ := List.any_eq_true.mp hcreate
  obtain ⟨hnone, huntouched⟩ := hcalls 1 (by rw [hcount]; decide) ⟨turn, hm, by
    split at hturn
    · exact ⟨_, by assumption⟩
    · cases hturn⟩
  refine ⟨d, out, hrun, ?_, huntouched (hnone hreturned)⟩
  rw [← hmax]
  exact hcap _ invite 1000 hinvite (by rw [hmax]; decide) fun now hnow => by
    rw [hlast] at hnow
    exact Int.le_of_eq (Option.some.inj hnow).symm

end CodeShare.Access
