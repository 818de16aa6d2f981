import CodeShare.Properties.InterviewerSeat
import CodeShare.Server.Exchanges

/-! # The status messages of an import

The room is told that an import has begun. Its end is told to the room too, but for two refusals that only the
importer hears of: those of the daily quota and of the import limiter.
-/

namespace CodeShare
open Tasks
set_option autoImplicit false

def Failure.isCapacity : Failure → Bool
  | capacity _ => true
  | _ => false

/-- The segment ends an import with a message to the importer alone. -/
def refusesImporter : ServerTrigger → Bool
  | .task (.importReserve _ _) (.answer available) => !available
  | .task (.importFailing _ reason) _ => reason.isCapacity
  | .task (.importLoad _ _) (.failed reason) => reason.isCapacity
  | _ => false

/-- An import, from the message that it has begun. -/
def importExchange : Exchange where
  announces
    | .problemImportStatus .scraping _ _ => true
    | _ => false
  answers
    | .problemImportStatus .saved _ _ | .problemImportStatus .failed _ _ => true
    | _ => false
  prepares
    | .admitted _ (.problemImport _) _ | .importIpLimiter _ _ | .importQuota _ _ => true
    | _ => false
  works
    | .importLimiter socket _ | .importReserve socket _ | .importScrape socket _ | .importLoad socket _
    | .importFailing socket _ => some socket
    | _ => none
  opens
    | .task (.importQuota socket _) (.answer true) => some socket
    | _ => none
  answersSocket := refusesImporter

/-! ## The segments -/

variable {cfg : Config} {s : Server} {t : ServerTrigger} {g : Step} {o : Outcome} {socket k : SocketId}
  {url : JsString} {p : ProblemId}

theorem afterImportFailure_advances (reason : Failure) (hreason : refusesImporter t = reason.isCapacity) :
    importExchange.Advances socket s t (afterImportFailure s socket reason) := by
  cases reason with
  | capacity seconds => exact Exchange.advances_toSocket (g := .of s) (fun _ => rfl) rfl rfl hreason rfl
  | error message => exact Exchange.advances_toRoom (g := .of s) (fun _ => rfl) rfl rfl hreason rfl
  | aborted message => exact Exchange.advances_toRoom (g := .of s) (fun _ => rfl) rfl rfl hreason rfl
  | other => exact Exchange.advances_toRoom (g := .of s) (fun _ => rfl) rfl rfl hreason rfl

theorem afterImportLimiter_advances (h : afterImportLimiter s socket url o = some g) :
    importExchange.Advances socket s t g := by
  unfold afterImportLimiter at h
  split at h <;> cases h <;> exact Exchange.advances_suspend (fun _ => rfl) rfl rfl

theorem afterImportReserve_advances (h : afterImportReserve s socket url o = some g) :
    importExchange.Advances socket s (.task (.importReserve socket url) o) g := by
  unfold afterImportReserve at h
  split at h <;> cases h
  · exact Exchange.advances_suspend (fun _ => rfl) rfl rfl
  · exact Exchange.advances_toSocket (g := .of s) (fun _ => rfl) rfl rfl rfl rfl
  · exact Exchange.advances_suspend (fun _ => rfl) rfl rfl

theorem afterImportScrape_advances (h : afterImportScrape s socket o = some g) :
    importExchange.Advances socket s t g := by
  unfold afterImportScrape at h
  split at h <;> cases h <;> exact Exchange.advances_suspend (fun _ => rfl) rfl rfl

theorem afterImportLoad_advances (h : afterImportLoad cfg s socket p o = some g) :
    importExchange.Advances socket s (.task (.importLoad socket p) o) g := by
  unfold afterImportLoad at h
  split at h
  · rename_i detail
    split_ifs at h
    cases h
    -- the problem is loaded before the import is answered
    refine Exchange.advances_toRoom (fun k => ?_) rfl rfl rfl rfl
    rw [Segment.modifyRoom_out, Exchange.heard, loadProblemIntoRoom_messages]
    refine List.filter_eq_nil_iff.mpr fun m hm => ?_
    rw [List.eq_of_mem_replicate hm]
    exact Bool.noConfusion
  · cases h; exact afterImportFailure_advances _ rfl
  · cases h; exact afterImportFailure_advances _ rfl
  · cases h

theorem import_works {task : Task} (htask : importExchange.works task = some socket)
    (h : (server cfg).fire s (.task task o) = some g) :
    importExchange.OpensFor socket (.task task o) ∧ importExchange.Advances socket s (.task task o) g := by
  change resumeTask cfg s task o = some g at h
  cases task with
  | importLimiter => obtain rfl := Option.some.inj htask; exact ⟨nofun, afterImportLimiter_advances h⟩
  | importReserve => obtain rfl := Option.some.inj htask; exact ⟨nofun, afterImportReserve_advances h⟩
  | importScrape => obtain rfl := Option.some.inj htask; exact ⟨nofun, afterImportScrape_advances h⟩
  | importLoad => obtain rfl := Option.some.inj htask; exact ⟨nofun, afterImportLoad_advances h⟩
  | importFailing _ reason =>
    obtain rfl := Option.some.inj htask
    cases o <;> cases h
    exact ⟨nofun, afterImportFailure_advances reason rfl⟩
  | _ => cases htask

/-! ## Before the import begins -/

theorem handleProblemImport_prepares (s : Server) (socket : SocketId) (url : Option JsString) :
    (handleProblemImport cfg s socket url).next = [] ∨
      (∀ k, importExchange.heard k (handleProblemImport cfg s socket url).out = []) ∧
        ∃ task, (handleProblemImport cfg s socket url).next = [task] ∧ importExchange.prepares task = true := by
  unfold handleProblemImport
  split
  · exact .inl rfl
  · split_ifs
    · exact .inl rfl
    · split
      · exact .inl rfl
      · exact .inr ⟨fun _ => rfl, _, rfl, rfl⟩

theorem import_prepares {task : Task} (htask : importExchange.prepares task = true)
    (h : (server cfg).fire s (.task task o) = some g) :
    (importExchange.opens (.task task o) = none ∧ (g.next = [] ∨
      (∀ k, importExchange.heard k g.out = []) ∧ ∃ task', g.next = [task'] ∧
        importExchange.prepares task' = true)) ∨
    ∃ socket task', importExchange.OpensFor socket (.task task o) ∧ importExchange.Announces g.out ∧
      g.next = [task'] ∧ importExchange.works task' = some socket := by
  change resumeTask cfg s task o = some g at h
  cases task with
  | admitted socket event seen =>
    cases event with
    | problemImport url =>
      cases o <;> cases h
      refine .inl ⟨rfl, ?_⟩
      unfold runHandler
      dsimp only
      split_ifs
      · exact handleProblemImport_prepares s socket url
      · exact .inl rfl
    | _ => cases htask
  | importIpLimiter socket url =>
    refine .inl ⟨rfl, ?_⟩
    change afterImportIpLimiter s socket url o = some g at h
    unfold afterImportIpLimiter at h
    split at h
    · split_ifs at h <;> cases h
      · exact .inl rfl
      · exact .inr ⟨fun _ => rfl, _, rfl, rfl⟩
    · cases h; exact .inl rfl
    · cases h; exact .inl rfl
    · cases h
  | importQuota socket url =>
    change afterImportQuota cfg s socket url o = some g at h
    unfold afterImportQuota at h
    split at h
    · refine .inr ⟨socket, ?_⟩
      have hannounces : importExchange.Announces
          ((Segment.of s : Step).toRoom (.problemImportStatus .scraping none none)).out :=
        Exchange.announces_toRoom (Exchange.announces_nil fun _ => rfl) rfl
      have hfor : importExchange.OpensFor socket (.task (.importQuota socket url) (.answer true)) :=
        fun k hk => (Option.some.inj hk).symm
      dsimp only at h
      split_ifs at h <;> cases h
      · exact ⟨_, hfor, hannounces, rfl, rfl⟩
      · exact ⟨_, hfor, hannounces, rfl, rfl⟩
    · cases h; exact .inl ⟨rfl, .inl rfl⟩
    · cases h; exact .inl ⟨rfl, .inl rfl⟩
    · cases h
  | _ => cases htask

/-! ## The others -/

theorem import_apart_of_family {task : Task} (hfamily : task.family ≠ .problem) (houtside : task.family ≠ .outside) :
    importExchange.Apart task := by
  cases task <;> first | exact ⟨rfl, rfl⟩ | exact absurd rfl hfamily | exact absurd rfl houtside

theorem import_opens_of_apart {task : Task} (htask : importExchange.Apart task) :
    importExchange.opens (.task task o) = none := by
  cases task with
  | importQuota => cases htask.1
  | _ => rfl

theorem import_apart {task : Task} (htask : importExchange.Apart task)
    (h : (server cfg).fire s (.task task o) = some g) : ∀ task' ∈ g.next, importExchange.Apart task' := by
  intro task' hm
  by_cases hproblem : triggerFamily (.task task o) = .problem
  · cases task with
    | admitted socket event seen =>
      cases event with
      | problemSelect id =>
        change resumeTask cfg s _ o = some g at h
        cases o <;> cases h
        change task' ∈ (runHandler cfg s socket seen (.problemSelect id)).next at hm
        unfold runHandler at hm
        dsimp only at hm
        split_ifs at hm
        · unfold handleProblemSelect at hm
          split at hm
          · cases hm
          · cases hm
          · rw [List.mem_singleton.mp hm]
            exact ⟨rfl, rfl⟩
        · cases hm
      | problemImport url => cases htask.1
      | _ => cases hproblem
    | selecting socket id =>
      change afterSelecting cfg s socket id o = some g at h
      unfold afterSelecting at h
      split at h
      · split_ifs at h
        cases h
        cases hm
      · cases h; cases hm
      · cases h; cases hm
      · cases h
    | importIpLimiter => cases htask.1
    | importQuota => cases htask.1
    | importLimiter => cases htask.2
    | importReserve => cases htask.2
    | importScrape => cases htask.2
    | importLoad => cases htask.2
    | importFailing => cases htask.2
    | _ => cases hproblem
  · exact Exchange.apart_of_family (fun _ => import_apart_of_family) h hproblem hm

theorem import_steps : importExchange.Steps cfg where
  disjoint
    | .problemImportStatus .saved _ _, _ => rfl
    | .problemImportStatus .failed _ _, _ => rfl
  event h := ⟨rfl, Exchange.event_apart (fun _ _ _ => rfl) h⟩
  apart htask h := ⟨import_opens_of_apart htask, import_apart htask h⟩
  prepares := import_prepares
  works := import_works

/-! ## The bracket -/

/-- The import ends with a message to the importer alone. -/
def endsForImporter (turns : List ServerTurn) : Bool := turns.getLast?.any fun last => refusesImporter last.trigger

/-- An import that has begun and ended: who hears that it begins, and stays, hears of its end exactly when that
is told to the room or the socket itself asked. -/
theorem import_bracket_iff {mode : RoomMode} {now : Time} {acts : List ServerAct} {d : ThreadedServerConf}
    {out : List Effect} (h : ReachesThreaded cfg mode now acts d out) {n : ℕ} (hn : n < d.shared.2)
    {beginning : ServerTurn} (hbeginning : beginning ∈ threadTurns cfg mode now acts n) {importer : SocketId}
    (hbegins : beginning.trigger = .task (.importQuota importer url) (.answer true))
    (hended : tasksOf n d.pool = [])
    (hheard : .problemImportStatus .scraping none none ∈ importExchange.heardIn k (threadTurns cfg mode now acts n))
    (hstays : importExchange.Stays k (threadTurns cfg mode now acts n)) :
    importExchange.Answered k (threadTurns cfg mode now acts n) ↔
      k = importer ∨ endsForImporter (threadTurns cfg mode now acts n) = false := by
  have hsteps : importExchange.Steps cfg := import_steps
  have hopens : importExchange.opens beginning.trigger = some importer := by
    rw [hbegins]
    rfl
  obtain ⟨init, last, hturns, hannounces, hends⟩ := hsteps.ended h hn hbeginning hopens hended
  have hattendance : Attendance last.before.shared := by
    refine h.attendance (k := n) ?_
    rw [hturns]
    exact List.mem_append_right _ (List.mem_singleton_self _)
  rw [hturns] at hheard hstays ⊢
  have hk : k ∈ last.before.shared.joined := hstays.last hsteps hends hheard rfl
  rw [hends.answered_iff hsteps hannounces hattendance hk, endsForImporter,
    List.getLast?_concat, Option.any_some, or_comm]
  rfl

/-- One of two guests imports a problem. -/
def exampleImportRun (reserved : List ServerAct) : List ServerAct :=
  exampleTwoUsers ++ [.event (.receive 0 (.problemImport (some (js "u")))), .resume 0 .go, .resume 0 .allowed,
    .resume 0 (.answer true)] ++ reserved

def exampleSaved : List ServerAct :=
  exampleImportRun [.resume 0 (.answer true), .resume 0 (.imported 7), .resume 0 (.detail (some (exampleDetail 7)))]

/-- The last import of the day has been reserved by another room in the meantime. -/
def exampleQuotaGone : List ServerAct := exampleImportRun [.resume 0 (.answer false)]

theorem import_bracket_iff_example : ∃ d out, ReachesThreaded plainConfig .collaboration 0 exampleSaved d out ∧
    endsForImporter (threadTurns plainConfig .collaboration 0 exampleSaved 4) = false ∧
    (importExchange.Answered 1 (threadTurns plainConfig .collaboration 0 exampleSaved 4) ↔
      (1 : SocketId) = 0 ∨ endsForImporter (threadTurns plainConfig .collaboration 0 exampleSaved 4) = false) := by
  obtain ⟨d, out, hreach, hn, hended⟩ : ∃ d out,
      ReachesThreaded plainConfig .collaboration 0 exampleSaved d out ∧ 4 < d.shared.2 ∧ tasksOf 4 d.pool = [] :=
    ⟨_, _, rfl, by decide, rfl⟩
  have hthere : ∀ turn ∈ threadTurns plainConfig .collaboration 0 exampleSaved 4, 1 ∈ turn.before.shared.joined := by
    decide +kernel
  obtain ⟨beginning, hbeginning, hbegins⟩ : ∃ turn ∈ threadTurns plainConfig .collaboration 0 exampleSaved 4,
      turn.trigger = .task (.importQuota 0 (js "u")) (.answer true) :=
    ⟨_, List.mem_of_getElem? (i := 3) rfl, rfl⟩
  exact ⟨d, out, hreach, rfl, import_bracket_iff hreach hn hbeginning hbegins hended
    (.head _) (Exchange.stays_of_forall hthere)⟩

theorem import_left_open : ¬ ∀ (acts : List ServerAct) (d : ThreadedServerConf) (out : List Effect) (n : ℕ)
    (beginning : ServerTurn) (importer k : SocketId) (url : JsString),
    ReachesThreaded plainConfig .collaboration 0 acts d out → n < d.shared.2 →
    beginning ∈ threadTurns plainConfig .collaboration 0 acts n →
    beginning.trigger = .task (.importQuota importer url) (.answer true) → tasksOf n d.pool = [] →
    .problemImportStatus .scraping none none ∈
      importExchange.heardIn k (threadTurns plainConfig .collaboration 0 acts n) →
    importExchange.Stays k (threadTurns plainConfig .collaboration 0 acts n) →
    importExchange.Answered k (threadTurns plainConfig .collaboration 0 acts n) := by
  intro hclaim
  obtain ⟨d, out, hreach, hn, hended⟩ : ∃ d out,
      ReachesThreaded plainConfig .collaboration 0 exampleQuotaGone d out ∧ 4 < d.shared.2 ∧
        tasksOf 4 d.pool = [] := ⟨_, _, rfl, by decide, rfl⟩
  have hthere : ∀ turn ∈ threadTurns plainConfig .collaboration 0 exampleQuotaGone 4,
      1 ∈ turn.before.shared.joined := by
    decide +kernel
  have hheard : importExchange.heardIn 1 (threadTurns plainConfig .collaboration 0 exampleQuotaGone 4) =
      [.problemImportStatus .scraping none none] := rfl
  obtain ⟨beginning, hbeginning, hbegins⟩ : ∃ turn ∈ threadTurns plainConfig .collaboration 0 exampleQuotaGone 4,
      turn.trigger = .task (.importQuota 0 (js "u")) (.answer true) :=
    ⟨_, List.mem_of_getElem? (i := 3) rfl, rfl⟩
  refine Exchange.not_answered_of_announcement hheard rfl (hclaim exampleQuotaGone d out 4 beginning 0 1 (js "u")
    hreach hn hbeginning hbegins hended ?_ (Exchange.stays_of_forall hthere))
  rw [hheard]
  exact List.mem_singleton_self _

end CodeShare
