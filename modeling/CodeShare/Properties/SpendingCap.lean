import CodeShare.Properties.HintStreams

/-! # The room's LLM calls

The room's limit is compared with `llmCallsUsed`, which counts the streams that ended with a hint. The
calls made are these, the streams that failed, and those that are running; runs in which a delivery
passes the limit only while there is room for all of them, and for the deliveries on their way, keep to
it.
-/

namespace CodeShare
open Tasks
set_option autoImplicit false

/-- The streams that ended without a hint. -/
def failedStreams (cfg : Config) (past : List ServerTurn) : ℕ :=
  past.countP fun turn => endsStream cfg turn.trigger == some false

/-- The calls that the room's counter does not show: those that failed, those that are running, and those
of the deliveries that are past the limit. -/
def uncounted (cfg : Config) (past : List ServerTurn) (c : ServerConf) : ℕ :=
  failedStreams cfg past + c.pool.countP Task.isStream + c.pool.countP Task.pastLimit

/-- A delivery passes the limit only while the limit has room for the uncounted calls too. -/
def LeavesRoom (cfg : Config) (past : List ServerTurn) (c : ServerConf) (t : ServerTrigger) : Prop :=
  passesLimit cfg c.shared t = true →
    c.shared.room.llmCallsUsed + uncounted cfg past c < cfg.maxLLMCallsPerRoom

instance (cfg : Config) (past : List ServerTurn) (c : ServerConf) (t : ServerTrigger) :
    Decidable (LeavesRoom cfg past c t) :=
  inferInstanceAs (Decidable (_ → _))

/-- The calls made, and those that may still be made. -/
structure CallAccount (cfg : Config) (past : List ServerTurn) (c : ServerConf) : Prop where
  made : llmRequests (past.flatMap Turn.out) =
    c.shared.room.llmCallsUsed + failedStreams cfg past + c.pool.countP Task.isStream
  limit : c.shared.room.llmCallsUsed + uncounted cfg past c ≤ cfg.maxLLMCallsPerRoom

section
variable {cfg : Config} {past : List ServerTurn} {c c' : ServerConf} {out : List Effect}
  {t : ServerTrigger} {g : Step} {rest : List Task}

theorem failedStreams_concat (turn : ServerTurn) : failedStreams cfg (past ++ [turn]) =
    failedStreams cfg past + (endsStream cfg turn.trigger == some false).toNat := by
  unfold failedStreams
  rw [List.countP_append, List.countP_singleton]
  cases endsStream cfg turn.trigger == some false <;> rfl

/-- A stream that ends is counted as used or as failed. -/
theorem endsStream_toNat : (endsStream cfg t == some true).toNat +
    (endsStream cfg t == some false).toNat = (endsStream cfg t).isSome.toNat := by
  rcases endsStream cfg t with _ | _ | _ <;> rfl

/-- Every call is counted once: running, failed, or used. -/
theorem made_step (h : llmRequests (past.flatMap Turn.out) =
      c.shared.room.llmCallsUsed + failedStreams cfg past + c.pool.countP Task.isStream)
    (hby : (server cfg).StepBy c c' out t g rest) :
    llmRequests ((past ++ [(⟨c, t, c', out⟩ : ServerTurn)]).flatMap Turn.out) = c'.shared.room.llmCallsUsed +
      failedStreams cfg (past ++ [⟨c, t, c', out⟩]) + c'.pool.countP Task.isStream := by
  have hstep := fire_stream hby.fire
  have hrunning := hby.countP_after Task.isStream
  have hstreams := hstep.streams
  have hends := @endsStream_toNat cfg t
  rw [List.flatMap_append, List.flatMap_singleton, llmRequests_append, h, failedStreams_concat, hby.out,
    hstep.requests, hby.shared, hstep.used]
  dsimp only
  omega

theorem callAccount_step (h : CallAccount cfg past c) (hroom : LeavesRoom cfg past c t)
    (hby : (server cfg).StepBy c c' out t g rest) :
    CallAccount cfg (past ++ [⟨c, t, c', out⟩]) c' := by
  refine ⟨made_step h.made hby, ?_⟩
  have hstep := fire_stream hby.fire
  have hrunning := hby.countP_after Task.isStream
  have hcoming := hby.countP_after Task.pastLimit
  have hstreams := hstep.streams
  have hpast := hstep.past
  have hends := @endsStream_toNat cfg t
  have hlimit := h.limit
  have hpasses : (passesLimit cfg c.shared t).toNat + c.shared.room.llmCallsUsed +
      uncounted cfg past c ≤ cfg.maxLLMCallsPerRoom := by
    cases hpass : passesLimit cfg c.shared t with
    | true =>
      have hlt := hroom hpass
      rw [Bool.toNat_true]
      omega
    | false =>
      rw [Bool.toNat_false]
      omega
  unfold uncounted at hpasses ⊢
  rw [failedStreams_concat, hby.shared, hstep.used]
  dsimp only
  omega

end

/-! ## Runs -/

/-- **The spending cap.** The calls of a room are those counted, those that failed and those that are
running; they stay within the limit in every run in which deliveries pass the check only while the limit
has room for the calls that the counter does not show. -/
theorem llm_calls_capped {cfg : Config} {mode : RoomMode} {now : Time} {acts : List ServerAct}
    {c : ServerConf} {out : List Effect} (hreach : Reaches cfg mode now acts c out) :
    llmRequests out = c.shared.room.llmCallsUsed +
      failedStreams cfg ((server cfg).history (initial cfg mode now) acts) +
      c.pool.countP Task.isStream ∧
    ((server cfg).MeetsPast (LeavesRoom cfg) [] (initial cfg mode now) acts →
      llmRequests out ≤ cfg.maxLLMCallsPerRoom) := by
  have hout := Machine.history_out hreach
  have hmade : llmRequests (((server cfg).history (initial cfg mode now) acts).flatMap Turn.out) =
      c.shared.room.llmCallsUsed + failedStreams cfg ((server cfg).history (initial cfg mode now) acts) +
        c.pool.countP Task.isStream :=
    Machine.run_history_preserves (P := fun _ _ _ => True)
      (I := fun past c => llmRequests (past.flatMap Turn.out) =
        c.shared.room.llmCallsUsed + failedStreams cfg past + c.pool.countP Task.isStream)
      (fun _ _ _ _ _ _ _ h _ hby => made_step h hby) rfl (fun _ _ _ _ => trivial) hreach
  rw [hout] at hmade
  refine ⟨hmade, fun hmeets => ?_⟩
  have haccount := Machine.run_history_preserves (I := CallAccount cfg)
    (fun _ _ _ _ _ _ _ h hroom hby => callAccount_step h hroom hby) ⟨rfl, Nat.zero_le _⟩
    (fun before turn later hsplit => Machine.meetsPast_split hmeets hsplit) hreach
  have hlimit := haccount.limit
  unfold uncounted at hlimit
  rw [hmade]
  omega

theorem llm_calls_capped_example : ∃ c out,
    Reaches plainConfig .collaboration 10000 exampleLlmRun c out ∧ llmRequests out = 1 ∧
    llmRequests out = c.shared.room.llmCallsUsed +
      failedStreams plainConfig
        ((server plainConfig).history (initial plainConfig .collaboration 10000) exampleLlmRun) +
      c.pool.countP Task.isStream ∧
    llmRequests out ≤ plainConfig.maxLLMCallsPerRoom := by
  obtain ⟨c, out, hreach, hone⟩ : ∃ c out,
      Reaches plainConfig .collaboration 10000 exampleLlmRun c out ∧ llmRequests out = 1 :=
    ⟨_, _, rfl, rfl⟩
  have hmeets : (server plainConfig).MeetsPast (LeavesRoom plainConfig) []
      (initial plainConfig .collaboration 10000) exampleLlmRun := by
    decide
  have h := llm_calls_capped hreach
  exact ⟨c, out, hreach, hone, h.1, h.2 hmeets⟩

/-- A room with one LLM call. -/
def oneCallConfig : Config := { plainConfig with maxLLMCallsPerRoom := 1 }

/-- The stream fails midway, and the user asks again. -/
def exampleFailedStream : List ServerAct :=
  exampleJoin 0 .go ++ exampleSelect 0 7 ++ exampleLlmHint ++
    [.resume 0 (.chunk (js "Use")), .resume 0 (.failed .other), .event (.tick 5000)] ++ exampleLlmHint

theorem failed_stream_not_counted : ∃ c out,
    Reaches oneCallConfig .collaboration 10000 exampleFailedStream c out ∧
    c.shared.room.llmCallsUsed = 0 ∧ llmRequests out = 2 ∧
    ¬ llmRequests out ≤ oneCallConfig.maxLLMCallsPerRoom :=
  ⟨_, _, rfl, rfl, rfl, by decide⟩

end CodeShare
