import CodeShare.Client.Mirror

/-! # The dialog of a pending hint request

Each client shows a dialog while a hint request waits for consent. The messages that change the request
tell every client, but `hint:error`, `hint:done` and a hydrated problem close the dialog whether the
request is still pending or not: the dialogs agree as long as none of them arrives while it is.
-/

namespace CodeShare
open Tasks
set_option autoImplicit false

/-! ## The pending request, as far as it matters -/

/-- A part of the pending request, such as the requester. -/
def Shown.pendingAs {β : Type} (φ : PendingHintRequest → β) (v : Shown) : Option β :=
  v.pendingHintRequest.map φ

theorem Shown.pendingAs_shown {β : Type} (φ : PendingHintRequest → β) (room : Room) :
    room.shown.pendingAs φ = room.pendingHintRequest.map fun r => φ r.toPendingHintRequest := by
  change (room.pendingHintRequest.map fun r => r.toPendingHintRequest).map φ = _
  rw [Option.map_map]
  rfl

section
variable {β : Type} {φ : PendingHintRequest → β}

theorem Message.spares_pendingAs_of_quiet {m : Message} (h : m.quiet = true) : m.Spares (Shown.pendingAs φ) := by
  intro now v
  rw [Shown.receive_quiet h]

theorem Message.spares_pendingAs_of_isExecution {m : Message} (h : m.isExecution = true) :
    m.Spares (Shown.pendingAs φ) := by
  intro now v
  cases m <;> first | rfl | cases h

/-- The message closes the dialog. -/
def Message.closesDialog : Message → Bool
  | hintError _ | hintDone _ _ | hintDenied | problemLoaded _ _ _ _ _ => true
  | _ => false

variable {cfg : Config} {s : Server} {t : ServerTrigger} {g : Step} {k : SocketId} {v : Shown}

/-- Closing a dialog that is not there. -/
theorem heard_closesDialog (clock : ℕ → Time) (hpending : s.room.pendingHintRequest = none)
    (hv : v.pendingAs φ = s.room.shown.pendingAs φ) (hroom : g.state.room.shown.pendingAs φ = s.room.shown.pendingAs φ)
    (hout : ∀ m ∈ messagesTo k g.out, m.closesDialog = true ∨ m.Spares (Shown.pendingAs φ)) :
    (heard clock v k g.out).pendingAs φ = g.state.room.shown.pendingAs φ := by
  have hnone : s.room.shown.pendingAs φ = none := by
    rw [Shown.pendingAs_shown, hpending]
    rfl
  rw [hroom, hnone]
  refine Shown.receiveAll_induction (p := fun w => w.pendingAs φ = none) (hv.trans hnone) ?_
  intro m hm now w hw
  rcases hout m hm with hcloses | hspares
  · cases m <;> first | rfl | cases hcloses
  · exact (hspares now w).trans hw

/-- One segment, seen by a client in the room that does not join anew. -/
theorem Announces.pendingAs (hannounces : Announces cfg s t g) (hcount : s.joined.count k = 1)
    (hjoined : k ∈ g.state.joined)
    (hnot : ∀ user announced users fresh, ¬ AnswersJoin s t g k user announced users fresh)
    (hspares : s.room.pendingHintRequest ≠ none →
      refusesHint cfg s t ≠ some k ∧ charges cfg t = none ∧ (rehydrates t).map Prod.fst ≠ some k)
    (hasked : ∀ requester, requestsConsent cfg s t = some requester → s.partner requester = some k →
      ∀ now now', φ ⟨requester.id, now⟩ = φ ⟨requester.id, now'⟩)
    (clock : ℕ → Time) (hv : v.pendingAs φ = s.room.shown.pendingAs φ) :
    (heard clock v k g.out).pendingAs φ = g.state.room.shown.pendingAs φ := by
  have hkept : ∀ {w : RoomView}, g.state.roomView = w → w.shown.pendingAs φ = s.room.shown.pendingAs φ →
      (∀ m ∈ messagesTo k g.out, m.Spares (Shown.pendingAs φ)) →
      (heard clock v k g.out).pendingAs φ = g.state.room.shown.pendingAs φ := by
    rintro w rfl hsame hout
    exact heard_kept clock hv hsame hout
  have hclosing : ∀ {w : RoomView}, s.room.pendingHintRequest = none → g.state.roomView = w →
      w.shown.pendingAs φ = s.room.shown.pendingAs φ →
      (∀ m ∈ messagesTo k g.out, m.closesDialog = true ∨ m.Spares (Shown.pendingAs φ)) →
      (heard clock v k g.out).pendingAs φ = g.state.room.shown.pendingAs φ := by
    rintro w hpending rfl hsame hout
    exact heard_closesDialog clock hpending hv hsame hout
  cases hannounces with
  | quiet hview hout =>
    exact hkept hview rfl fun m hm => Message.spares_pendingAs_of_quiet (hout k m hm)
  | connected hview hout =>
    refine hkept hview rfl ?_
    rw [hout k]
    exact List.forall_mem_nil _
  | replies hreplies hview =>
    obtain ⟨flag, used, hview⟩ := hview
    exact hkept hview rfl fun m hm =>
      Message.spares_pendingAs_of_isExecution (hreplies.isExecution k m hm)
  | hintRefused socket message hrefuses hview hout =>
    by_cases hk : socket = k
    · subst hk
      have hpending : s.room.pendingHintRequest = none := by
        by_contra hpending
        exact (hspares hpending).1 hrefuses
      refine hclosing hpending hview rfl fun m hm => .inl ?_
      rw [hout socket] at hm
      rw [List.eq_of_mem_replicate hm]
      rfl
    · refine hkept hview rfl ?_
      rw [hout k, reaches_ne hk]
      exact List.forall_mem_nil _
  | hintDelivered charge fullHint remaining hcharge hview hout =>
    have hpending : s.room.pendingHintRequest = none := by
      by_contra hpending
      rw [(hspares hpending).2.1] at hcharge
      cases hcharge
    refine hclosing hpending hview rfl fun m hm => .inl ?_
    rw [hout k] at hm
    rw [List.eq_of_mem_replicate hm]
    rfl
  | hintAsked requester hrequester hpending hview hout =>
    -- behind the sync the partner is told once more, with a time of its own
    have hroom : g.state.room.shown.pendingAs φ = some (φ ⟨requester.id, s.now⟩) := by
      rw [← shown_roomView g.state, hview]
      rfl
    refine heard_behind clock hcount (hout k) rfl fun m hm now w _ => ?_
    obtain ⟨other, hother, hm⟩ := List.mem_flatMap.mp hm
    have hk : other = k := by
      by_contra hne
      rw [reaches_ne hne] at hm
      cases hm
    subst hk
    rw [List.eq_of_mem_replicate hm, hroom]
    exact congrArg some (hasked requester hrequester (Option.mem_toList.mp hother) _ _)
  | hintAnswered requester _ hview hout =>
    have hroom : g.state.room.shown.pendingAs φ = none := by
      rw [← shown_roomView g.state, hview]
      rfl
    refine heard_behind clock hcount (hout k) rfl fun m hm now w _ => ?_
    obtain ⟨socket, -, hm⟩ := List.mem_flatMap.mp hm
    rw [List.eq_of_mem_replicate hm, hroom]
    rfl
  | loaded detail after _ hafter hview hout =>
    refine heard_first clock hcount (hout k) ?_ (spares_flatMap fun m hm =>
      Message.spares_pendingAs_of_quiet (hafter m hm))
    rw [← shown_roomView g.state, hview]
    rfl
  | testCaseAdded testCase hview hout =>
    refine hkept hview rfl ?_
    rw [hout k]
    exact spares_replicate (fun _ _ => rfl) _
  | joined socket user announced users fresh hanswers =>
    refine hkept hanswers.view rfl ?_
    rw [(hanswers.unheard hnot).2]
    exact List.forall_mem_nil _
  | hydrated socket p announced hends =>
    by_cases hpending : s.room.pendingHintRequest = none
    · refine hclosing hpending hends.view rfl fun m hm => ?_
      rw [hends.out k] at hm
      rcases List.mem_append.mp hm with hm | hm
      · obtain ⟨delivered, -, hm⟩ := List.mem_flatMap.mp hm
        rw [List.eq_of_mem_replicate hm]
        exact .inl rfl
      · exact .inr (spares_flatMap (fun _ _ _ _ => rfl) m hm)
    · refine hkept hends.view rfl (hends.spares (fun detail hdetail => ?_) fun _ _ _ _ => rfl)
      refine (hspares hpending).2.2 ?_
      rw [hdetail]
      rfl
  | closed socket before _ _ hbefore hview hout =>
    have hjoined' : g.state.joined = s.joined.filter (· ≠ socket) := congrArg RoomView.joined hview
    refine heard_closed clock hcount (hjoined' ▸ hjoined) hv (fun hdrops => ?_)
      (fun m hm => Message.spares_pendingAs_of_quiet (hbefore k m hm)) (fun _ _ _ => rfl) (hout k)
    rw [← shown_roomView g.state, hview, hdrops]
    rfl
  | removed userId rotated _ hview hout =>
    refine hkept hview rfl ?_
    rw [hout k]
    split_ifs
    · exact spares_replicate (fun _ _ => rfl) _
    · exact List.forall_mem_nil _

end

/-! ## Runs -/

/-- The client shows the dialog exactly when a request is pending, with the same requester. -/
def MirrorsDialog (clock : ℕ → Time) (state : ClientRoomState) (k : SocketId) (c : ServerConf)
    (out : List Effect) : Prop :=
  (clientState clock state (messagesTo k out)).pendingHintRequest.map (fun r => r.requestedBy) =
    c.shared.room.pendingHintRequest.map fun r => r.requestedBy

/-- While a request is pending, no attempt of the client is refused, no hint is delivered, and no
hydration of the client delivers a problem. -/
def SparesDialog (cfg : Config) (k : SocketId) (c : ServerConf) (t : ServerTrigger) : Prop :=
  k ∈ c.shared.joined → c.shared.room.pendingHintRequest ≠ none →
    refusesHint cfg c.shared t ≠ some k ∧ charges cfg t = none ∧
      (rehydrates t).map Prod.fst ≠ some k

instance (cfg : Config) (k : SocketId) (c : ServerConf) (t : ServerTrigger) :
    Decidable (SparesDialog cfg k c t) := by
  unfold SparesDialog
  infer_instance

/-- **The dialog mirrors the server** in every run in which nothing closes it at a client while the
request is pending. -/
theorem dialog_mirrors {cfg : Config} {mode : RoomMode} {now : Time} {acts : List ServerAct}
    {c : ServerConf} {out : List Effect} {k : SocketId} (clock : ℕ → Time) (state : ClientRoomState)
    (hreach : Reaches cfg mode now acts c out)
    (hmeets : Meeting cfg (SparesDialog cfg k) mode now acts) (hjoined : k ∈ c.shared.joined) :
    MirrorsDialog clock state k c out := by
  have h : (heard clock state.shown k out).pendingAs (fun r => r.requestedBy) =
      c.shared.room.shown.pendingAs fun r => r.requestedBy := by
    refine mirror_run (A := fun v c => v.pendingAs (fun r => r.requestedBy) =
      c.shared.room.shown.pendingAs fun r => r.requestedBy) (I := fun _ _ => True)
      (P := SparesDialog cfg k) trivial (fun _ _ _ _ _ _ _ _ _ _ => trivial) ?_ ?_ clock state.shown
      hmeets hreach hjoined
    · intro c c' past out t g rest user announced users fresh _ _ hby _
      rw [hby.shared]
    · intro c c' past out t g rest v clock _ hcount hjoined hlive hA hP hby hnot
      have hbefore : k ∈ c.shared.joined := List.count_pos_iff.mp (by omega)
      rw [hby.shared]
      exact (fire_announces hby.fire).pendingAs hcount hjoined hnot (hP hbefore)
        (fun _ _ _ _ _ => rfl) clock hA
  have hheard : (clientState clock state (messagesTo k out)).shown = heard clock state.shown k out :=
    shown_clientState clock state (messagesTo k out)
  rw [← hheard, Shown.pendingAs_shown] at h
  exact h

/-- Two users are there, with a problem, and the first asks for a hint. -/
def exampleAsk : List ServerAct :=
  exampleJoin 0 .go ++ exampleJoin 1 .go ++ exampleSelect 0 7 ++
    [.event (.receive 0 .hintRequest), .resume 0 .go]

theorem dialog_mirrors_example : ∃ c out,
    Reaches plainConfig .collaboration 10000 exampleAsk c out ∧ 1 ∈ c.shared.joined ∧
    (c.shared.room.pendingHintRequest.map fun r => r.requestedBy) = some 1 ∧
    MirrorsDialog id initialRoomState 1 c out := by
  obtain ⟨c, out, hreach, hjoined, hpending⟩ : ∃ c out,
      Reaches plainConfig .collaboration 10000 exampleAsk c out ∧ 1 ∈ c.shared.joined ∧
      (c.shared.room.pendingHintRequest.map fun r => r.requestedBy) = some 1 :=
    ⟨_, _, rfl, by decide, rfl⟩
  have hmeets : Meeting plainConfig (SparesDialog plainConfig 1) .collaboration 10000 exampleAsk := by
    unfold Meeting
    decide
  exact ⟨c, out, hreach, hjoined, hpending, dialog_mirrors id initialRoomState hreach hmeets hjoined⟩

/-- The partner presses the button at the same time. -/
def exampleAskTwice : List ServerAct :=
  exampleAsk ++ [.event (.receive 1 .hintRequest), .resume 0 .go]

/-- Its request is refused, and it loses the dialog in which it should answer. -/
theorem dialog_lost : ¬ ∀ (acts : List ServerAct) (c : ServerConf) (out : List Effect) (k : SocketId),
    Reaches plainConfig .collaboration 10000 acts c out → k ∈ c.shared.joined →
    MirrorsDialog id initialRoomState k c out := by
  intro hclaim
  obtain ⟨c, out, hreach, hjoined, hpending, hdialog⟩ : ∃ c out,
      Reaches plainConfig .collaboration 10000 exampleAskTwice c out ∧ 1 ∈ c.shared.joined ∧
      (c.shared.room.pendingHintRequest.map fun r => r.requestedBy) = some 1 ∧
      ((clientState id initialRoomState (messagesTo 1 out)).pendingHintRequest.map
        fun r => r.requestedBy) = none :=
    ⟨_, _, rfl, by decide, rfl, rfl⟩
  have h := hclaim _ c out 1 hreach hjoined
  unfold MirrorsDialog at h
  rw [hdialog, hpending] at h
  cases h

end CodeShare
