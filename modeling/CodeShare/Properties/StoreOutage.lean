import CodeShare.Server.Handshake
import CodeShare.Server.Rejections

/-! # An outage of the reliability store

Calls to the rate limiter and to the daily counters may be rejected at any await. The state never
suffers: a rejected call leaves what its refusal leaves. The process does where nobody catches the
rejection.
-/

namespace CodeShare
open Tasks
set_option autoImplicit false

/-- How a call to the rate limiter or to a daily counter says no. -/
def Task.refuses : Task → Outcome → Bool
  | joinLimiter _ _, .limited _ | executionIpLimiter _, .limited _ | hintIpLimiter _, .limited _
  | importIpLimiter _ _, .limited _ => true
  | executionReserve _ _, .answer false | hintQuota _, .answer false | hintReserve _ _, .answer false
  | importQuota _ _, .answer false | importReserve _ _, .answer false => true
  | _, _ => false

/-- The state when the error paths that a segment left behind have run, one after the other. -/
def settled (cfg : Config) (tasks : List Task) (later : Server) : Option Server :=
  tasks.foldlM (fun s task => (resumeTask cfg s task .go).map (·.state)) later

/-- A rejected call changes nothing, and the error path behind it changes any later state as the one
behind a refusal does. -/
structure AsRefused (cfg : Config) (s : Server) (failed refused : Step) : Prop where
  unchanged : failed.state = s
  unchanged' : refused.state = s
  settled : ∀ later, ∃ s', settled cfg failed.next later = some s' ∧
    settled cfg refused.next later = some s'

def Restores (cfg : Config) (s : Server) (task : Task) (reason : Failure) : Prop :=
  ∀ refusal failed, task.refuses refusal = true →
    (server cfg).fire s (.task task (.failed reason)) = some failed →
    ∃ refused, (server cfg).fire s (.task task refusal) = some refused ∧
      AsRefused cfg s failed refused

/-- The lock is given back in `finally`, on both paths. -/
theorem settled_executionSettling (cfg : Config) (later : Server) (x : Execution) (reserved : Bool)
    (failure : Option Failure) :
    settled cfg [.executionSettling x reserved failure] later =
      some (finishExecution (.of later) x reserved).state := by
  cases failure <;> rfl

theorem settled_hintFailing (cfg : Config) (later : Server) (d : Delivery) (reason : Failure) :
    settled cfg [.hintFailing d reason] later = some later := by
  cases reason <;> rfl

theorem settled_importFailing (cfg : Config) (later : Server) (socket : SocketId)
    (reason : Failure) : settled cfg [.importFailing socket reason] later = some later := by
  cases reason <;> rfl

theorem restores (cfg : Config) (s : Server) (task : Task) (reason : Failure) :
    Restores cfg s task reason := by
  intro refusal failed hrefuses h
  have hsilent : ∀ later, ∃ s', settled cfg [] later = some s' ∧ settled cfg [] later = some s' :=
    fun later => ⟨later, rfl, rfl⟩
  have hhint : ∀ d later, ∃ s', settled cfg [.hintFailing d reason] later = some s' ∧
      settled cfg [] later = some s' :=
    fun d later => ⟨later, settled_hintFailing cfg later d reason, rfl⟩
  unfold Task.refuses at hrefuses
  split at hrefuses
  case h_10 => cases hrefuses
  all_goals obtain rfl := Option.some.inj h
  case h_1 => exact ⟨_, rfl, rfl, rfl, hsilent⟩
  case h_2 => exact ⟨_, rfl, rfl, rfl, hsilent⟩
  case h_3 d _ => exact ⟨_, rfl, rfl, rfl, hhint d⟩
  case h_4 => exact ⟨_, rfl, rfl, rfl, hsilent⟩
  case h_5 x loaded =>
    exact ⟨_, rfl, rfl, rfl, fun later => ⟨_,
      settled_executionSettling cfg later x false (some reason),
      settled_executionSettling cfg later x false none⟩⟩
  case h_6 d => exact ⟨_, rfl, rfl, rfl, hhint d⟩
  case h_7 d _ => exact ⟨_, rfl, rfl, rfl, hhint d⟩
  case h_8 => exact ⟨_, rfl, rfl, rfl, hsilent⟩
  case h_9 socket url =>
    exact ⟨_, rfl, rfl, rfl, fun later =>
      ⟨later, settled_importFailing cfg later socket reason, rfl⟩⟩

/-! ## Handshakes -/

/-- A handshake, with what the access service and the rate limiter answer to it. -/
structure HandshakeAttempt where
  request : Handshake
  validation : Except Failure Bool
  check : Except Failure RateLimitCheck

/-- The limit is consulted, and the call is rejected. -/
def HandshakeAttempt.strands (cfg : HandshakeConfig) (a : HandshakeAttempt) : Bool :=
  handshakeRefusal cfg a.request a.validation = none && !a.check.isOk

def HandshakeAttempt.result (cfg : HandshakeConfig) (a : HandshakeAttempt) : HandshakeResult :=
  handshakeMiddleware cfg a.request a.validation a.check

theorem HandshakeAttempt.settles_iff {cfg : HandshakeConfig} {a : HandshakeAttempt} :
    (∀ reason, a.result cfg ≠ .rejected reason) ↔ a.strands cfg = false := by
  unfold result strands
  simp only [ne_eq, handshakeMiddleware_rejected_iff]
  cases a.check with
  | ok answer => simp [Except.isOk, Except.toBool]
  | error reason => simp [Except.isOk, Except.toBool]

/-! ## Runs -/

/-- What every outage must leave of a run and of the handshakes beside it. -/
structure Survives (cfg : Config) (handshakeCfg : HandshakeConfig) (mode : RoomMode) (now : Time)
    (acts : List ServerAct) (attempts : List HandshakeAttempt) (out : List Effect) : Prop where
  settles : Effect.unhandledRejection ∉ out
  restores : ∀ turn ∈ (server cfg).history (initial cfg mode now) acts, ∀ task reason,
    turn.trigger = .task task (.failed reason) → Restores cfg turn.before.shared task reason
  handshakes : ∀ a ∈ attempts, ∀ reason, a.result handshakeCfg ≠ .rejected reason

/-- The server survives exactly the outages in which only calls inside an error boundary are
rejected. -/
theorem survives_iff {cfg : Config} {handshakeCfg : HandshakeConfig} {mode : RoomMode} {now : Time}
    {acts : List ServerAct} {c : ServerConf} {out : List Effect} (attempts : List HandshakeAttempt)
    (hreach : Reaches cfg mode now acts c out) :
    Survives cfg handshakeCfg mode now acts attempts out ↔
      Meeting cfg (fun _ t => strands t = false) mode now acts ∧
        ∀ a ∈ attempts, a.strands handshakeCfg = false := by
  have hsettles : Meeting cfg (fun _ t => strands t = false) mode now acts ↔
      ∀ e ∈ out, e ≠ Effect.unhandledRejection := by
    refine Machine.meets_iff_forall_out (fun c t g hfire => ?_) hreach
    rw [← fire_settles hfire]
    exact ⟨fun h e he heq => h (heq ▸ he), fun h hm => h _ hm rfl⟩
  rw [hsettles]
  constructor
  · intro h
    exact ⟨fun e he heq => h.settles (heq ▸ he), fun a ha =>
      HandshakeAttempt.settles_iff.mp (h.handshakes a ha)⟩
  · rintro ⟨hout, hattempts⟩
    exact ⟨fun hm => hout _ hm rfl, fun turn _ task reason _ => restores cfg _ task reason,
      fun a ha => HandshakeAttempt.settles_iff.mpr (hattempts a ha)⟩

/-! ## An outage while code is executed -/

/-- No access service, and every origin is allowed; room codes are ASCII. -/
def plainHandshakeConfig : HandshakeConfig where
  hasAccessService := false
  allowedOrigins := none
  trustedProxyIps := []
  toLowerCase := fun text => text.map fun c => if 65 ≤ c ∧ c ≤ 90 then c + 32 else c

/-- A handshake without a room code: its address is not counted. -/
def exampleStrayHandshake : HandshakeAttempt :=
  ⟨⟨none, none, none, some (js "127.0.0.1"), none⟩, .ok true, .error .other⟩

/-- The daily counter fails when the execution is reserved. -/
def exampleExecutionOutage : List ServerAct :=
  exampleJoin 0 .go ++ exampleSelect 0 7 ++
    [.event (.receive 0 .codeRun), .resume 0 .go, .resume 0 .allowed, .resume 0 (.cases []),
      .resume 0 (.resources (some (exampleBoilerplate 7)) (some (exampleProblem 7))),
      .resume 0 (.failed .other), .resume 0 .go]

theorem survives_iff_example : ∃ c out,
    Reaches plainConfig .collaboration 0 exampleExecutionOutage c out ∧ c.pool = [] ∧
    c.shared.room.executionInProgress = false ∧
    Survives plainConfig plainHandshakeConfig .collaboration 0 exampleExecutionOutage
      [exampleStrayHandshake] out := by
  obtain ⟨c, out, hreach, hpool, hlock⟩ : ∃ c out,
      Reaches plainConfig .collaboration 0 exampleExecutionOutage c out ∧ c.pool = [] ∧
      c.shared.room.executionInProgress = false :=
    ⟨_, _, rfl, rfl, rfl⟩
  have hmeets : Meeting plainConfig (fun _ t => strands t = false) .collaboration 0
      exampleExecutionOutage := by
    unfold Meeting
    decide
  have hattempts : ∀ a ∈ [exampleStrayHandshake], a.strands plainHandshakeConfig = false := by
    decide
  exact ⟨c, out, hreach, hpool, hlock, (survives_iff _ hreach).mpr ⟨hmeets, hattempts⟩⟩

/-- The limiter of the join attempts fails. -/
def exampleJoinOutage : List ServerAct :=
  [.event .connect, .event (.receive 0 (.userJoin (some ⟨js "guest", none⟩))), .resume 0 .go,
    .resume 0 (.failed .other)]

theorem join_outage_strands : ¬ ∀ (acts : List ServerAct) (attempts : List HandshakeAttempt)
    (c : ServerConf) (out : List Effect), Reaches plainConfig .collaboration 0 acts c out →
    Survives plainConfig plainHandshakeConfig .collaboration 0 acts attempts out := by
  intro hclaim
  obtain ⟨c, out, hreach, hmem⟩ : ∃ c out,
      Reaches plainConfig .collaboration 0 exampleJoinOutage c out ∧
      Effect.unhandledRejection ∈ out :=
    ⟨_, _, rfl, List.mem_singleton_self _⟩
  exact (hclaim _ [] c out hreach).settles hmem

end CodeShare
