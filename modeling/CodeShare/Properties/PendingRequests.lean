import CodeShare.Foundations.Enumeration
import CodeShare.Properties.SeatInvariant
import CodeShare.Server.TimerTable

/-! # Pending hint requests

A pending request has its timeout, and the timeout that runs is its own: what survives a switch of the
problem is cleared when the next request starts its timeout. The requester of a pending request is
connected, so that a request ends with an answer, its timeout, a switch, or the requester's departure.
-/

namespace CodeShare
open Tasks
set_option autoImplicit false

/-- No socket is bound to two users. -/
def BoundOnce (c : ServerConf) : Prop :=
  ∀ socket, (c.shared.room.users.countP fun u => u.socketId = some socket) ≤ 1

/-- The request that a segment makes pending, with the timeout that it starts. -/
def asksFor (cfg : Config) (s : Server) (t : ServerTrigger) : Option (PendingRequest × TimerId) :=
  (requestsConsent cfg s t).map fun requester =>
    (⟨⟨requester.id, s.now⟩, s.nextRequest⟩, s.nextTimer)

/-- The requests of a history, with their timeouts. -/
def requestsMade (cfg : Config) (past : List ServerTurn) : List (PendingRequest × TimerId) :=
  past.filterMap fun turn => asksFor cfg turn.before.shared turn.trigger

/-- The timeout that was started for a request, and is running. -/
structure TimeoutOf (cfg : Config) (past : List ServerTurn) (s : Server) (r : PendingRequest)
    (timer : Timer) : Prop where
  mem : timer ∈ s.timers
  kind : timer.kind = .consent
  entry : s.consentTimer = some timer.id
  started : (r, timer.id) ∈ requestsMade cfg past
  due : timer.due = r.requestedAt + cfg.hintConsentMs

/-- What may end a pending request. -/
inductive EndsRequest (cfg : Config) (past : List ServerTurn) (s : Server) (t : ServerTrigger)
    (r : PendingRequest) : Prop where
  | approved (socket : SocketId) (seen : Option SeenRequest)
      (ht : t = .task (.admitted socket .hintApprove seen) .go)
  | denied (socket : SocketId) (seen : Option SeenRequest)
      (ht : t = .task (.admitted socket .hintDeny seen) .go)
  | timedOut (timer : Timer)
      (ht : t = .event (.timeout timer.id))
      (htimeout : TimeoutOf cfg past s r timer)
      (hdue : timer.due ≤ s.now)
  | switched (p : ProblemId)
      (hloads : loads t = some p)
  | left (socket : SocketId) (user : RoomUserInternal)
      (hcloses : closes s t = some socket)
      (hleaver : s.leaver socket = some user)
      (hrequester : user.id = r.requestedBy)

/-- The requester of a pending request is connected. -/
def RequesterThere (s : Server) : Prop :=
  ∀ r, s.room.pendingHintRequest = some r →
    ∃ u ∈ s.room.users, u.id = r.requestedBy ∧ u.connected = true

section
variable {cfg : Config} {s : Server} {t : ServerTrigger} {g : Step} {past : List ServerTurn}
  {r : PendingRequest} {requester : RoomUserInternal}

/-! ## Requests -/

/-- With two connected users on sockets of their own, somebody else can be asked. -/
theorem partner_isSome (hseats : SeatTable s.tableView)
    (hbound : ∀ socket, (s.room.users.countP fun u => u.socketId = some socket) ≤ 1)
    (h : requestsConsent cfg s t = some requester) : (s.partner requester).isSome = true := by
  obtain ⟨socket, seen, -, -, hcount, -, -, hsocket⟩ := requestsConsent_spec h
  have hother : ∃ u ∈ s.room.users, (u.connected && u.socketId ≠ requester.socketId) = true := by
    by_contra hnone
    simp only [not_exists, not_and, Bool.and_eq_true, decide_eq_true_eq, not_not] at hnone
    have hle : s.room.connectedUserCount ≤
        s.room.users.countP fun u => u.socketId = some socket := by
      refine List.countP_mono_left fun u hu hconnected => ?_
      rw [decide_eq_true_eq, hnone u hu hconnected, hsocket]
    exact absurd (hcount.trans_le (hle.trans (hbound socket))) (Nat.lt_irrefl 1)
  obtain ⟨u, hu, hpartner⟩ := hother
  unfold Server.partner
  cases hfind : s.room.users.find? fun u => u.connected && u.socketId ≠ requester.socketId with
  | none => exact absurd hpartner (List.find?_eq_none.mp hfind u hu)
  | some w =>
    have hw := List.find?_some hfind
    rw [Bool.and_eq_true] at hw
    have hbound' := hseats.bound w (List.mem_of_find?_eq_some hfind)
    rw [Option.bind_some, ← hbound']
    exact hw.1

/-- A request starts its timeout. -/
theorem fire_asked (hseats : SeatTable s.tableView)
    (hbound : ∀ socket, (s.room.users.countP fun u => u.socketId = some socket) ≤ 1)
    (hfire : (server cfg).fire s t = some g) (h : requestsConsent cfg s t = some requester) :
    g.state.timerView =
      s.timerView.ask ⟨⟨requester.id, s.now⟩, s.nextRequest⟩ (s.now + cfg.hintConsentMs) := by
  obtain ⟨socket, seen, ht, -⟩ := requestsConsent_spec h
  have hpartner := partner_isSome hseats hbound h
  cases fire_timers hfire with
  | kept hasks => rw [h] at hasks; cases hasks
  | loaded _ hloads => rw [ht] at hloads; cases hloads
  | asked requester' other hrequester _ hview =>
    obtain rfl := Option.some.inj (h.symm.trans hrequester)
    exact hview
  | unheard requester' hrequester hnone =>
    obtain rfl := Option.some.inj (h.symm.trans hrequester)
    rw [hnone] at hpartner
    cases hpartner
  | answered socket' event _ ht' hevent =>
    rw [ht] at ht'
    cases ht'
    cases hevent
  | lapsed timer ht' => rw [ht] at ht'; cases ht'
  | expired timer userId destroyed ht' => rw [ht] at ht'; cases ht'
  | closed socket' hcloses => rw [ht] at hcloses; cases hcloses
  | resumed socket' payload existing hseating => rw [ht] at hseating; cases hseating
  | destroyed ht' => rw [ht] at ht'; cases ht'

/-! ## The requester -/

theorem expels_spec {userId : UserId} (h : expels s t = some userId) :
    ∃ u ∈ s.room.users, u.id = userId ∧ u.connected = false := by
  unfold expels at h
  split at h
  · split at h
    · rename_i userId' _
      split_ifs at h with hgone
      obtain rfl := Option.some.inj h
      cases hfound : s.room.findUser userId' with
      | none => rw [hfound] at hgone; cases hgone
      | some u =>
        rw [hfound, Option.any_some, Bool.and_eq_true, Bool.not_eq_true'] at hgone
        exact ⟨u, List.mem_of_find?_eq_some hfound, by simpa using List.find?_some hfound, hgone.1⟩
    · cases h
  · cases h

/-- Only users who are away are removed. -/
theorem connected_not_expelled (hseats : SeatTable s.tableView) {userId : UserId} (hexpels : expels s t = some userId)
    {u : RoomUserInternal} (hu : u ∈ s.room.users) (hconnected : u.connected = true) :
    u ∈ s.room.users.filter (·.id ≠ userId) := by
  refine List.mem_filter.mpr ⟨hu, ?_⟩
  have hne : u.id ≠ userId := by
    intro heq
    obtain ⟨w, hw, hid, haway⟩ := expels_spec hexpels
    rw [hseats.eq_of_id hu hw (heq.trans hid.symm), haway] at hconnected
    cases hconnected
  simpa using hne

theorem reseat_connected {u : RoomUserInternal} (hu : u ∈ s.room.users) (hconnected : u.connected = true)
    (userId : UserId) (socket : SocketId) :
    ∃ w ∈ s.reseat userId socket, w.id = u.id ∧ w.connected = true := by
  refine ⟨_, List.mem_map_of_mem hu, ?_⟩
  split_ifs
  · exact ⟨rfl, rfl⟩
  · exact ⟨rfl, hconnected⟩

/-- Closing a socket disconnects its user, and nobody else. -/
theorem leave_connected (hseats : SeatTable s.tableView) (socket : SocketId) {u : RoomUserInternal}
    (hu : u ∈ s.room.users) (hconnected : u.connected = true) :
    (∃ w ∈ s.leave socket, w.id = u.id ∧ w.connected = true) ∨ s.leaver socket = some u := by
  unfold Server.leave Server.leaver
  split_ifs
  · cases hfind : s.room.findBySocketId socket with
    | none => exact .inl ⟨u, hu, rfl, hconnected⟩
    | some user =>
      by_cases hid : u.id = user.id
      · rw [hseats.eq_of_id hu (List.mem_of_find?_eq_some hfind) hid]
        exact .inr rfl
      · refine .inl ⟨u, List.mem_map.mpr ⟨u, hu, if_neg hid⟩, rfl, hconnected⟩
  · exact .inl ⟨u, hu, rfl, hconnected⟩

theorem leave_ids (s : Server) (socket : SocketId) :
    (s.leave socket).map (·.id) = s.room.users.map (·.id) := by
  unfold Server.leave
  split_ifs
  · split
    · rfl
    · unfold Room.updateUser
      rw [List.map_map]
      apply List.map_congr_left
      intro u _
      rw [Function.comp_apply]
      split_ifs <;> rfl
  · rfl

/-- A request is dropped when its requester is no longer connected. -/
theorem dropsRequest_eq (hseats : SeatTable s.tableView) {socket : SocketId} {w : RoomUserInternal}
    (hpending : s.room.pendingHintRequest = some r) (hw : w ∈ s.leave socket)
    (hid : w.id = r.requestedBy) : s.dropsRequest socket = (s.registered && !w.connected) := by
  have hdistinct : ((s.leave socket).map (·.id)).Nodup := by
    rw [leave_ids]
    exact hseats.roster.distinct
  have hfind : (s.leave socket).find? (fun u => u.id = r.requestedBy) = some w :=
    (Enumeration.find_key_iff hdistinct).mpr ⟨hw, hid⟩
  unfold Server.dropsRequest
  rw [hpending, Option.any_some, hfind, Option.any_some]

theorem leaver_dropsRequest (hseats : SeatTable s.tableView) (hregistered : s.registered = true)
    {socket : SocketId} {u : RoomUserInternal} (hpending : s.room.pendingHintRequest = some r)
    (hleaver : s.leaver socket = some u) (hid : u.id = r.requestedBy) :
    s.dropsRequest socket = true := by
  unfold Server.leaver at hleaver
  rw [if_pos hregistered] at hleaver
  have hw : { u with connected := false, socketId := none } ∈ s.leave socket := by
    unfold Server.leave
    rw [if_pos hregistered, hleaver]
    exact List.mem_map.mpr ⟨u, List.mem_of_find?_eq_some hleaver, if_pos rfl⟩
  rw [dropsRequest_eq hseats hpending hw hid, hregistered]
  rfl

/-- A request is dropped with a socket only if its requester is the user of the socket. -/
theorem dropsRequest_leaver (hseats : SeatTable s.tableView) {socket : SocketId}
    (hpending : s.room.pendingHintRequest = some r) (hthere : RequesterThere s)
    (hdrops : s.dropsRequest socket = true) :
    ∃ user, s.leaver socket = some user ∧ user.id = r.requestedBy := by
  obtain ⟨u, hu, hid, hconnected⟩ := hthere r hpending
  rcases leave_connected hseats socket hu hconnected with ⟨w, hw, hid', hconnected'⟩ | hleaver
  · rw [dropsRequest_eq hseats hpending hw (hid'.trans hid), hconnected', Bool.not_true,
      Bool.and_false] at hdrops
    cases hdrops
  · exact ⟨u, hleaver, hid⟩

/-- A room that stays registered keeps the requester of a pending request connected. -/
theorem requesterThere_step (hseats : SeatTable s.tableView) (hregistered : s.registered = true)
    (hthere : RequesterThere s) (hfire : (server cfg).fire s t = some g) :
    RequesterThere g.state := by
  have hkept : g.state.room.users = s.room.users →
      g.state.room.pendingHintRequest = s.room.pendingHintRequest → RequesterThere g.state := by
    intro husers hpending r hr
    rw [husers]
    exact hthere r (hpending.symm.trans hr)
  have hgone : g.state.room.pendingHintRequest = none → RequesterThere g.state := by
    intro hnone r hr
    rw [hnone] at hr
    cases hr
  cases fire_announces hfire with
  | quiet hview _ =>
    exact hkept (congrArg RoomView.users hview) (congrArg RoomView.pendingHintRequest hview)
  | connected hview _ =>
    exact hkept (congrArg RoomView.users hview) (congrArg RoomView.pendingHintRequest hview)
  | replies _ hview =>
    obtain ⟨_, _, hview⟩ := hview
    exact hkept (congrArg RoomView.users hview) (congrArg RoomView.pendingHintRequest hview)
  | hintRefused _ _ _ hview _ =>
    exact hkept (congrArg RoomView.users hview) (congrArg RoomView.pendingHintRequest hview)
  | hintDelivered _ _ _ _ hview _ =>
    exact hkept (congrArg RoomView.users hview) (congrArg RoomView.pendingHintRequest hview)
  | hintAsked requester hrequester _ hview _ =>
    obtain ⟨socket, seen, -, -, -, -, hmem, hsocket⟩ := requestsConsent_spec hrequester
    intro r hr
    have hpending : g.state.room.pendingHintRequest = some ⟨⟨requester.id, s.now⟩, s.nextRequest⟩ :=
      congrArg RoomView.pendingHintRequest hview
    rw [hpending, Option.some.injEq] at hr
    have husers : g.state.room.users = s.room.users := congrArg RoomView.users hview
    have hbound : requester.connected = requester.socketId.isSome := hseats.bound requester hmem
    refine ⟨requester, husers ▸ hmem, by rw [← hr], ?_⟩
    rw [hbound, hsocket]
    rfl
  | hintAnswered _ _ hview _ => exact hgone (congrArg RoomView.pendingHintRequest hview)
  | loaded _ _ _ _ hview _ => exact hgone (congrArg RoomView.pendingHintRequest hview)
  | testCaseAdded _ hview _ =>
    exact hkept (congrArg RoomView.users hview) (congrArg RoomView.pendingHintRequest hview)
  | hydrated _ _ _ hends =>
    exact hkept (congrArg RoomView.users hends.view) (congrArg RoomView.pendingHintRequest hends.view)
  | joined socket user announced users fresh hanswers =>
    have husers : g.state.room.users = users := congrArg RoomView.users hanswers.view
    have hpending : g.state.room.pendingHintRequest = s.room.pendingHintRequest :=
      congrArg RoomView.pendingHintRequest hanswers.view
    cases hanswers.joins with
    | again => exact hkept husers hpending
    | reconnect payload existing =>
      intro r hr
      obtain ⟨u, hu, hid, hconnected⟩ := hthere r (hpending.symm.trans hr)
      obtain ⟨w, hw, hid', hconnected'⟩ := reseat_connected hu hconnected existing.id socket
      exact ⟨w, husers ▸ hw, hid'.trans hid, hconnected'⟩
    | add payload =>
      intro r hr
      obtain ⟨u, hu, hrest⟩ := hthere r (hpending.symm.trans hr)
      exact ⟨u, husers ▸ List.mem_append_left _ hu, hrest⟩
  | closed socket _ _ _ _ hview _ =>
    have husers : g.state.room.users = s.leave socket := congrArg RoomView.users hview
    have hpending : g.state.room.pendingHintRequest =
        if s.dropsRequest socket then none else s.room.pendingHintRequest :=
      congrArg RoomView.pendingHintRequest hview
    cases hdrops : s.dropsRequest socket with
    | true => exact hgone (by rw [hpending, if_pos hdrops])
    | false =>
      intro r hr
      rw [hpending, hdrops, if_neg Bool.false_ne_true] at hr
      obtain ⟨u, hu, hid, hconnected⟩ := hthere r hr
      rcases leave_connected hseats socket hu hconnected with ⟨w, hw, hid', hconnected'⟩ | hleaver
      · exact ⟨w, husers ▸ hw, hid'.trans hid, hconnected'⟩
      · rw [leaver_dropsRequest hseats hregistered hr hleaver hid] at hdrops
        cases hdrops
  | removed userId rotated hexpels hview _ =>
    have husers : g.state.room.users = s.room.users.filter (·.id ≠ userId) :=
      congrArg RoomView.users hview
    have hpending : g.state.room.pendingHintRequest = s.room.pendingHintRequest :=
      congrArg RoomView.pendingHintRequest hview
    intro r hr
    obtain ⟨u, hu, hid, hconnected⟩ := hthere r (hpending.symm.trans hr)
    exact ⟨u, husers ▸ connected_not_expelled hseats hexpels hu hconnected, hid, hconnected⟩

/-! ## One step -/

/-- What a segment does to the pending request and to the timeout for it. -/
inductive RequestStep (cfg : Config) (s : Server) (t : ServerTrigger) (g : Step) : Prop where
  | asked (requester : RoomUserInternal)
      (hrequester : requestsConsent cfg s t = some requester)
      (hview : g.state.timerView =
        s.timerView.ask ⟨⟨requester.id, s.now⟩, s.nextRequest⟩ (s.now + cfg.hintConsentMs))
  | ended
      (hasks : requestsConsent cfg s t = none)
      (hpending : g.state.room.pendingHintRequest = none)
      (hnext : s.nextTimer ≤ g.state.nextTimer)
  | kept
      (hasks : requestsConsent cfg s t = none)
      (hpending : g.state.room.pendingHintRequest = s.room.pendingHintRequest)
      (hentry : g.state.consentTimer = s.consentTimer)
      (htimers : ∀ timer ∈ g.state.timers, timer.kind = .consent → timer ∈ s.timers)
      (hnext : s.nextTimer ≤ g.state.nextTimer)

theorem clearConsentTimer_nextTimer (v : TimerView) : v.clearConsentTimer.nextTimer = v.nextTimer := by
  unfold TimerView.clearConsentTimer
  split <;> rfl

theorem fire_request (hseats : s.registered = true → SeatTable s.tableView)
    (hbound : ∀ socket, (s.room.users.countP fun u => u.socketId = some socket) ≤ 1)
    (hfire : (server cfg).fire s t = some g) : RequestStep cfg s t g := by
  cases hrequester : requestsConsent cfg s t with
  | some requester =>
    obtain ⟨_, _, -, hregistered, -⟩ := requestsConsent_spec hrequester
    exact .asked requester hrequester (fire_asked (hseats hregistered) hbound hfire hrequester)
  | none =>
    have hkept : ∀ {v : TimerView}, g.state.timerView = v → v.pending = s.timerView.pending →
        v.consentTimer = s.timerView.consentTimer →
        (∀ timer ∈ v.timers, timer.kind = .consent → timer ∈ s.timers) →
        s.timerView.nextTimer ≤ v.nextTimer → RequestStep cfg s t g := by
      rintro v rfl hpending hentry htimers hnext
      exact .kept hrequester hpending hentry htimers hnext
    have hended : ∀ {v : TimerView}, g.state.timerView = v → v.pending = none →
        s.timerView.nextTimer ≤ v.nextTimer → RequestStep cfg s t g := by
      rintro v rfl hpending hnext
      exact .ended hrequester hpending hnext
    have hfilter : ∀ p : Timer → Bool, ∀ timer ∈ s.timers.filter p, timer.kind = .consent →
        timer ∈ s.timers := fun p timer hm _ => (List.mem_filter.mp hm).1
    cases fire_timers hfire with
    | kept _ hview => exact hkept hview rfl rfl (fun _ hm _ => hm) le_rfl
    | loaded _ _ hview => exact hended hview rfl le_rfl
    | asked _ _ hrequester' => rw [hrequester] at hrequester'; cases hrequester'
    | unheard _ hrequester' => rw [hrequester] at hrequester'; cases hrequester'
    | answered _ _ _ _ _ hview =>
      exact hended hview rfl (clearConsentTimer_nextTimer s.timerView).ge
    | lapsed _ _ _ _ _ hview => exact hended hview rfl le_rfl
    | expired timer userId destroyed _ _ _ _ hview =>
      cases destroyed with
      | false => exact hkept hview rfl rfl (hfilter _) le_rfl
      | true =>
        refine hkept hview rfl rfl (fun timer' hm _ => ?_) le_rfl
        exact (List.mem_filter.mp (List.mem_filter.mp hm).1).1
    | closed socket _ _ hview =>
      have hreleased : ∀ user : RoomUserInternal, ∀ timer ∈ (s.timerView.release user.id
          (s.now + s.room.gracePeriodMs)).timers, timer.kind = .consent → timer ∈ s.timers := by
        intro user timer hm hkind
        rcases List.mem_append.mp hm with hm | hm
        · exact hm
        · rw [List.mem_singleton.mp hm] at hkind
          cases hkind
      cases hleaver : s.leaver socket with
      | none =>
        rw [hleaver] at hview
        cases hdrops : s.dropsRequest socket with
        | false =>
          rw [hdrops] at hview
          exact hkept hview rfl rfl (fun _ hm _ => hm) le_rfl
        | true =>
          rw [hdrops] at hview
          exact hended hview rfl (clearConsentTimer_nextTimer s.timerView).ge
      | some user =>
        rw [hleaver] at hview
        cases hdrops : s.dropsRequest socket with
        | false =>
          rw [hdrops] at hview
          exact hkept hview rfl rfl (hreleased user) (Nat.le_succ _)
        | true =>
          rw [hdrops] at hview
          refine hended hview rfl ?_
          exact (Nat.le_succ _).trans (clearConsentTimer_nextTimer (s.timerView.release user.id
            (s.now + s.room.gracePeriodMs))).ge
    | resumed _ _ _ _ _ hview => exact hkept hview rfl rfl (hfilter _) le_rfl
    | destroyed _ hview => exact hkept hview rfl rfl (hfilter _) le_rfl

/-- What ends a request. -/
theorem fire_endsRequest (hseats : s.registered = true → SeatTable s.tableView)
    (hthere : s.registered = true → RequesterThere s)
    (htimed : ∃ timer, TimeoutOf cfg past s r timer)
    (htable : TimerTable s.timerView) (hfire : (server cfg).fire s t = some g)
    (hpending : s.room.pendingHintRequest = some r)
    (hended : g.state.room.pendingHintRequest ≠ some r) : EndsRequest cfg past s t r := by
  have hkept : ∀ {v : TimerView}, g.state.timerView = v → v.pending = s.timerView.pending →
      EndsRequest cfg past s t r := by
    rintro v rfl hsame
    exact absurd (Eq.trans hsame hpending) hended
  cases fire_timers hfire with
  | kept _ hview => exact hkept hview rfl
  | loaded p hloads _ => exact .switched p hloads
  | asked requester _ hrequester =>
    obtain ⟨_, _, -, -, -, hnone, -⟩ := requestsConsent_spec hrequester
    rw [hpending] at hnone
    cases hnone
  | unheard requester hrequester =>
    obtain ⟨_, _, -, -, -, hnone, -⟩ := requestsConsent_spec hrequester
    rw [hpending] at hnone
    cases hnone
  | answered socket event seen ht hevent _ =>
    cases event with
    | hintApprove => exact .approved socket seen ht
    | hintDeny => exact .denied socket seen ht
    | _ => cases hevent
  | lapsed timer ht hm hkind hdue _ =>
    obtain ⟨timer', htimeout⟩ := htimed
    have hid : timer.id = timer'.id :=
      Option.some.inj ((htable.entry timer hm hkind).symm.trans htimeout.entry)
    obtain rfl := htable.eq_of_id hm htimeout.mem hid
    exact .timedOut timer ht htimeout hdue
  | expired _ _ destroyed _ _ _ _ hview => cases destroyed <;> exact hkept hview rfl
  | closed socket hcloses _ hview =>
    cases hdrops : s.dropsRequest socket with
    | false =>
      rw [hdrops] at hview
      cases hleaver : s.leaver socket <;> rw [hleaver] at hview <;> exact hkept hview rfl
    | true =>
      have hregistered : s.registered = true := by
        unfold Server.dropsRequest at hdrops
        exact (Bool.and_eq_true_iff.mp hdrops).1
      obtain ⟨user, hleaver, hid⟩ := dropsRequest_leaver (hseats hregistered) hpending
        (hthere hregistered) hdrops
      exact .left socket user hcloses hleaver hid
  | resumed _ _ _ _ _ hview => exact hkept hview rfl
  | destroyed _ hview => exact hkept hview rfl

end

/-! ## Runs -/

section
variable {cfg : Config} {past : List ServerTurn} {c c' : ServerConf} {out : List Effect}
  {t : ServerTrigger} {g : Step} {rest : List Task}

structure RequestInvariant (cfg : Config) (past : List ServerTurn) (c : ServerConf) : Prop where
  table : TimerTable c.shared.timerView
  seats : c.shared.registered = true → SeatTable c.shared.tableView
  requester : c.shared.registered = true → RequesterThere c.shared
  distinct : ((requestsMade cfg past).map Prod.snd).Nodup
  earlier : ∀ made ∈ requestsMade cfg past, made.2 < c.shared.nextTimer
  timed : ∀ r, c.shared.room.pendingHintRequest = some r →
    ∃ timer, TimeoutOf cfg past c.shared r timer

theorem requestsMade_concat (turn : ServerTurn) : requestsMade cfg (past ++ [turn]) =
    requestsMade cfg past ++ (asksFor cfg turn.before.shared turn.trigger).toList := by
  unfold requestsMade
  rw [List.filterMap_append, List.filterMap_cons, List.filterMap_nil]
  cases asksFor cfg turn.before.shared turn.trigger <;> rfl

theorem request_step (h : RequestInvariant cfg past c) (hbound : BoundOnce c)
    (hby : (server cfg).StepBy c c' out t g rest) :
    RequestInvariant cfg (past ++ [⟨c, t, c', out⟩]) c' := by
  have htable : TimerTable c'.shared.timerView := by
    rw [hby.shared]
    exact timerTable_step h.table hby.fire
  have hregistered : c'.shared.registered = true → c.shared.registered = true := by
    rw [hby.shared]
    exact fun hs => (fire_table hby.fire hs).1
  have hseats : c'.shared.registered = true → SeatTable c'.shared.tableView := by
    rw [hby.shared]
    exact fun hs => (fire_table hby.fire hs).2 (h.seats (fire_table hby.fire hs).1)
  have hrequester : c'.shared.registered = true → RequesterThere c'.shared := by
    intro hs
    have hs' := hregistered hs
    rw [hby.shared]
    exact requesterThere_step (h.seats hs') hs' (h.requester hs') hby.fire
  have hmade : requestsMade cfg (past ++ [⟨c, t, c', out⟩]) =
      requestsMade cfg past ++ (asksFor cfg c.shared t).toList := requestsMade_concat _
  have hquiet : requestsConsent cfg c.shared t = none → c.shared.nextTimer ≤ g.state.nextTimer →
      (∀ r, c'.shared.room.pendingHintRequest = some r →
        ∃ timer, TimeoutOf cfg past c'.shared r timer) →
      RequestInvariant cfg (past ++ [⟨c, t, c', out⟩]) c' := by
    intro hasks hnext htimed
    have hsame : requestsMade cfg (past ++ [⟨c, t, c', out⟩]) = requestsMade cfg past := by
      rw [hmade, asksFor, hasks]
      exact List.append_nil _
    refine ⟨htable, hseats, hrequester, ?_, fun made hm => ?_, fun r hr => ?_⟩
    · rw [hsame]
      exact h.distinct
    · rw [hsame] at hm
      rw [hby.shared]
      exact (h.earlier made hm).trans_le hnext
    · obtain ⟨timer, htimeout⟩ := htimed r hr
      exact ⟨timer, { htimeout with started := hsame ▸ htimeout.started }⟩
  cases fire_request h.seats hbound hby.fire with
  | asked requester hasks hview =>
    have hsome : requestsMade cfg (past ++ [⟨c, t, c', out⟩]) = requestsMade cfg past ++
        [(⟨⟨requester.id, c.shared.now⟩, c.shared.nextRequest⟩, c.shared.nextTimer)] := by
      rw [hmade, asksFor, hasks]
      rfl
    rw [← hby.shared] at hview
    refine ⟨htable, hseats, hrequester, ?_, ?_, fun r hr => ?_⟩
    · rw [hsome, List.map_append]
      refine nodup_concat h.distinct fun hm => ?_
      obtain ⟨made, hm, heq⟩ := List.mem_map.mp hm
      exact absurd heq (h.earlier made hm).ne
    · have hnext : c'.shared.nextTimer = c.shared.nextTimer + 1 := congrArg TimerView.nextTimer hview
      rw [hsome, hnext]
      exact forall_mem_concat (fun made hm => Nat.lt_succ_of_lt (h.earlier made hm))
        (Nat.lt_succ_self _)
    · have hpending : c'.shared.room.pendingHintRequest =
          some ⟨⟨requester.id, c.shared.now⟩, c.shared.nextRequest⟩ :=
        congrArg TimerView.pending hview
      have htimers : c'.shared.timers = c.shared.timerView.clearConsentTimer.timers ++
          [⟨c.shared.nextTimer, c.shared.now + cfg.hintConsentMs, .consent⟩] :=
        congrArg TimerView.timers hview
      rw [hpending, Option.some.injEq] at hr
      subst hr
      refine ⟨⟨c.shared.nextTimer, c.shared.now + cfg.hintConsentMs, .consent⟩, ?_, rfl, ?_, ?_, rfl⟩
      · rw [htimers]
        exact List.mem_append_right _ (List.mem_singleton_self _)
      · exact congrArg TimerView.consentTimer hview
      · rw [hsome]
        exact List.mem_append_right _ (List.mem_singleton_self _)
  | ended hasks hpending hnext =>
    refine hquiet hasks hnext fun r hr => ?_
    rw [hby.shared, hpending] at hr
    cases hr
  | kept hasks hpending hentry htimers hnext =>
    refine hquiet hasks hnext fun r hr => ?_
    rw [hby.shared] at hr ⊢
    obtain ⟨timer, htimeout⟩ := h.timed r (hpending.symm.trans hr)
    have hentry' : g.state.consentTimer = some timer.id := hentry.trans htimeout.entry
    -- the entry still runs, and no other timeout has its id
    obtain ⟨timer', hm', hid, hkind⟩ := (timerTable_step h.table hby.fire).running _ hentry'
    obtain rfl := h.table.eq_of_id (htimers timer' hm' hkind) htimeout.mem hid
    exact ⟨timer', hm', hkind, hentry', htimeout.started, htimeout.due⟩

theorem initial_request (cfg : Config) (mode : RoomMode) (now : Time) :
    RequestInvariant cfg [] (initial cfg mode now) where
  table := ⟨List.nodup_nil, nofun, nofun, nofun, nofun⟩
  seats _ := initial_table cfg mode now
  requester _ := nofun
  distinct := List.nodup_nil
  earlier := nofun
  timed := nofun

/-- The timeout of a request can fire when its time has come, and ends the request. -/
theorem timeout_ends (htable : TimerTable c.shared.timerView) {r : PendingRequest} {timer : Timer}
    (htimeout : TimeoutOf cfg past c.shared r timer) {elapsed : Time}
    (hdue : timer.due ≤ c.shared.now + elapsed) :
    ∃ c' out, (server cfg).run c [.event (.tick elapsed), .event (.timeout timer.id)] = some (c', out) ∧
      c'.shared.room.pendingHintRequest = none := by
  have hfind : c.shared.timers.find? (fun other => other.id = timer.id) = some timer :=
    Enumeration.find_of_mem htable.distinct htimeout.mem
  have htimeout' : handleTimeout { c.shared with now := c.shared.now + elapsed } timer =
      handleConsentTimeout
        (Server.clearTimeout { c.shared with now := c.shared.now + elapsed } timer.id) := by
    unfold handleTimeout
    rw [htimeout.kind]
  have hfire : (server cfg).fire { c.shared with now := c.shared.now + elapsed }
      (.event (.timeout timer.id)) =
      some (handleTimeout { c.shared with now := c.shared.now + elapsed } timer) := by
    show handleEvent cfg { c.shared with now := c.shared.now + elapsed } (.timeout timer.id) = _
    simp only [handleEvent, hfind]
    exact if_pos hdue
  have hpending : (handleTimeout { c.shared with now := c.shared.now + elapsed }
      timer).state.room.pendingHintRequest = none := by
    rw [htimeout']
    exact congrArg TimerView.pending (handleConsentTimeout_timerView _ timer.id)
  have hrun : (server cfg).run c [.event (.tick elapsed), .event (.timeout timer.id)] =
      some (⟨(handleTimeout { c.shared with now := c.shared.now + elapsed } timer).state,
        (c.pool ++ []) ++ (handleTimeout { c.shared with now := c.shared.now + elapsed } timer).next⟩,
        [] ++ ((handleTimeout { c.shared with now := c.shared.now + elapsed } timer).out ++ [])) := by
    have htick : (server cfg).step c (.event (.tick elapsed)) =
        some (⟨{ c.shared with now := c.shared.now + elapsed }, c.pool ++ []⟩, []) := rfl
    have hstep := Machine.step_eq (M := server cfg)
      (c := ⟨{ c.shared with now := c.shared.now + elapsed }, c.pool ++ []⟩)
      (a := .event (.timeout timer.id)) rfl hfire
    rw [Machine.run, htick]
    dsimp only
    rw [Machine.run, hstep]
    rfl
  exact ⟨_, _, hrun, hpending⟩

theorem request_run {mode : RoomMode} {now : Time} {acts : List ServerAct}
    (hmeets : Meeting cfg (fun c _ => BoundOnce c) mode now acts)
    (hreach : Reaches cfg mode now acts c out) :
    RequestInvariant cfg ((server cfg).history (initial cfg mode now) acts) c := by
  have hturns := (Machine.meets_iff_history hreach).mp hmeets
  refine Machine.run_history_preserves (P := fun _ c _ => BoundOnce c) (I := RequestInvariant cfg)
    (fun _ _ _ _ _ _ _ h hbound hby => request_step h hbound hby) (initial_request cfg mode now) ?_
    hreach
  intro before turn later hsplit
  exact hturns turn (by rw [hsplit]; simp)

end

/-- **Pending requests.** In runs that bind no socket to two users, a pending request always has the
timeout that was started for it, which ends it when nothing else does; the timeout that runs while a
request is pending is that of no other; and a request ends with an approval, a denial, its timeout, a
switch of the problem, or the departure of its requester. -/
theorem hint_requests_end {cfg : Config} {mode : RoomMode} {now : Time} {acts : List ServerAct}
    {c : ServerConf} {out : List Effect}
    (hmeets : Meeting cfg (fun c _ => BoundOnce c) mode now acts)
    (hreach : Reaches cfg mode now acts c out) :
    (∀ r, c.shared.room.pendingHintRequest = some r →
      ∃ timer, TimeoutOf cfg ((server cfg).history (initial cfg mode now) acts) c.shared r timer ∧
        ∀ elapsed, timer.due ≤ c.shared.now + elapsed → ∃ c' out',
          (server cfg).run c [.event (.tick elapsed), .event (.timeout timer.id)] = some (c', out') ∧
            c'.shared.room.pendingHintRequest = none) ∧
    ∀ past turn later, (server cfg).history (initial cfg mode now) acts = past ++ turn :: later →
      ∀ r, turn.before.shared.room.pendingHintRequest = some r →
        (∀ timer ∈ turn.before.shared.timers, timer.kind = .consent →
          TimeoutOf cfg past turn.before.shared r timer ∧
            ∀ r', (r', timer.id) ∈ requestsMade cfg past → r' = r) ∧
        (turn.after.shared.room.pendingHintRequest ≠ some r →
          EndsRequest cfg past turn.before.shared turn.trigger r) := by
  have h := request_run hmeets hreach
  refine ⟨fun r hr => ?_, fun past turn later hsplit r hr => ?_⟩
  · obtain ⟨timer, htimeout⟩ := h.timed r hr
    exact ⟨timer, htimeout, fun elapsed => timeout_ends h.table htimeout⟩
  · obtain ⟨before, a, after, rfl, rfl, hrun, htrigger, hstep⟩ := Machine.history_split hsplit
    have hbefore : Meeting cfg (fun c _ => BoundOnce c) mode now before := by
      refine (Machine.meets_iff_history hrun).mpr fun turn' hm => ?_
      refine (Machine.meets_iff_history hreach).mp hmeets turn' ?_
      rw [hsplit]
      exact List.mem_append_left _ hm
    have hinv := request_run hbefore hrun
    obtain ⟨t, g, ht, hby⟩ := Machine.step_by hstep
    obtain rfl := Option.some.inj (htrigger.symm.trans ht)
    obtain ⟨timer', htimeout⟩ := hinv.timed r hr
    refine ⟨fun timer hm hkind => ?_, fun hended => ?_⟩
    · have hid : timer.id = timer'.id :=
        Option.some.inj ((hinv.table.entry timer hm hkind).symm.trans htimeout.entry)
      obtain rfl := hinv.table.eq_of_id hm htimeout.mem hid
      refine ⟨htimeout, fun r' hr' => ?_⟩
      exact congrArg Prod.fst (List.inj_on_of_nodup_map hinv.distinct hr' htimeout.started rfl)
    · rw [hby.shared] at hended
      exact fire_endsRequest hinv.seats hinv.requester ⟨timer', htimeout⟩ hinv.table hby.fire hr hended

instance (c : ServerConf) : Decidable (BoundOnce c) :=
  decidable_of_iff (∀ u ∈ c.shared.room.users, ∀ socket ∈ u.socketId,
      (c.shared.room.users.countP fun u => u.socketId = some socket) ≤ 1) <| by
    refine ⟨fun h socket => ?_, fun h u _ socket _ => h socket⟩
    by_cases hseated : ∃ u ∈ c.shared.room.users, u.socketId = some socket
    · obtain ⟨u, hu, hsocket⟩ := hseated
      exact h u hu socket hsocket
    · have hnone : (c.shared.room.users.countP fun u => u.socketId = some socket) = 0 := by
        apply List.countP_eq_zero.mpr
        intro u hu hsocket
        exact hseated ⟨u, hu, by simpa using hsocket⟩
      omega

/-- The second user asks for a hint. -/
def examplePendingRequest : List ServerAct :=
  exampleJoin 0 .go ++ exampleJoin 1 .go ++ exampleSelect 0 7 ++
    [.event (.receive 1 .hintRequest), .resume 0 .go]

theorem hint_requests_end_example : ∃ c out,
    Reaches plainConfig .collaboration 10000 examplePendingRequest c out ∧
    c.shared.room.pendingHintRequest = some ⟨⟨3, 10000⟩, 0⟩ ∧
    (∃ timer, TimeoutOf plainConfig
        ((server plainConfig).history (initial plainConfig .collaboration 10000) examplePendingRequest)
        c.shared ⟨⟨3, 10000⟩, 0⟩ timer ∧
      ∀ elapsed, timer.due ≤ c.shared.now + elapsed → ∃ c' out',
        (server plainConfig).run c [.event (.tick elapsed), .event (.timeout timer.id)] =
          some (c', out') ∧ c'.shared.room.pendingHintRequest = none) := by
  obtain ⟨c, out, hreach, hpending⟩ : ∃ c out,
      Reaches plainConfig .collaboration 10000 examplePendingRequest c out ∧
      c.shared.room.pendingHintRequest = some ⟨⟨3, 10000⟩, 0⟩ :=
    ⟨_, _, rfl, rfl⟩
  have hmeets : Meeting plainConfig (fun c _ => BoundOnce c) .collaboration 10000 examplePendingRequest := by
    unfold Meeting
    decide
  exact ⟨c, out, hreach, hpending, (hint_requests_end hmeets hreach).1 _ hpending⟩

end CodeShare
