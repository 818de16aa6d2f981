import CodeShare.Server.AnnouncementSteps
import CodeShare.Server.TableSteps

/-! # What a segment does to reconnect tokens

A join behind its rate limiter issues a token: a new user gets its first one, a user who comes back gets
a new one in exchange for the one presented. `TokenStep` says that nothing else touches the tokens, and
`fire_sends` that a token is sent to the socket of its user alone.
-/

namespace CodeShare
open Tasks
set_option autoImplicit false

/-! ## Issuing -/

/-- A token is issued to a user who takes a seat with a socket; a user who comes back presented the
token that it had before. -/
structure Issue where
  userId : UserId
  socket : SocketId
  token : Token
  presented : Option Token
  deriving DecidableEq

/-- What a segment issues. -/
def issue (s : Server) : ServerTrigger → Option Issue
  | .task (.joinLimiter socket payload) .allowed =>
    match reconnectingUser s.room payload.reconnectToken with
    | some existing => some ⟨existing.id, socket, s.fresh, some existing.reconnectToken⟩
    | none => if s.room.isFull then none else some ⟨s.fresh, socket, s.fresh + 1, none⟩
  | _ => none

/-- The tokens in a message. -/
def Message.tokens : Message → List Token
  | userJoined _ _ _ _ reconnectToken yjsToken => reconnectToken.toList ++ yjsToken.toList
  | yjsTokenRotated yjsToken => [yjsToken]
  | _ => []

/-- The user was there before the segment; it may have lost its socket. -/
structure Remains (u u' : RoomUserInternal) : Prop where
  id : u'.id = u.id
  token : u'.reconnectToken = u.reconnectToken
  socketId : u'.socketId = u.socketId ∨ u'.socketId = none
  away : u.connected = false → u'.connected = false

/-- The user to whom a token is issued. -/
structure Holds (i : Issue) (u : RoomUserInternal) : Prop where
  id : u.id = i.userId
  token : u.reconnectToken = i.token
  socketId : u.socketId = some i.socket

/-- The user whose token is accepted. -/
structure Accepted (s : Server) (t : ServerTrigger) (i : Issue) (existing : RoomUserInternal) :
    Prop where
  mem : existing ∈ s.room.users
  id : existing.id = i.userId
  away : existing.connected = false
  presented : i.presented = some existing.reconnectToken
  trigger : ∃ payload, t = .task (.joinLimiter i.socket payload) .allowed ∧
    payload.reconnectToken = some (.wellFormed existing.reconnectToken)

/-- A token of a new user. -/
structure Enrols (s : Server) (g : Step) (i : Issue) : Prop where
  presented : i.presented = none
  fresh : s.fresh ≤ i.userId
  lt : i.userId < g.state.fresh

inductive TokenStep (s : Server) (t : ServerTrigger) (g : Step) : Prop where
  | kept
      (hissue : issue s t = none)
      (hfresh : s.fresh ≤ g.state.fresh)
      (hyjs : g.state.room.yjsToken = s.room.yjsToken ∨
        s.fresh ≤ g.state.room.yjsToken ∧ g.state.room.yjsToken < g.state.fresh)
      (husers : ∀ u' ∈ g.state.room.users, ∃ u ∈ s.room.users, Remains u u')
  | issued (i : Issue)
      (hissue : issue s t = some i)
      (hfresh : s.fresh ≤ i.token ∧ i.token < g.state.fresh)
      (hyjs : g.state.room.yjsToken = s.room.yjsToken)
      (husers : ∀ u' ∈ g.state.room.users,
        Holds i u' ∨ u'.id ≠ i.userId ∧ u' ∈ s.room.users)
      (huser : (∃ existing, Accepted s t i existing) ∨ Enrols s g i)

variable {cfg : Config} {s : Server} {t : ServerTrigger} {g : Step} {socket : SocketId}

theorem reconnectingUser_spec {room : Room} {presented : Option PresentedToken}
    {existing : RoomUserInternal} (h : reconnectingUser room presented = some existing) :
    existing ∈ room.users ∧ existing.connected = false ∧
      presented = some (.wellFormed existing.reconnectToken) := by
  refine ⟨reconnectingUser_mem h, ?_⟩
  unfold reconnectingUser at h
  split at h
  · rename_i token
    have hfound := List.find?_some h
    simp only [Bool.and_eq_true, Bool.not_eq_true', decide_eq_true_eq] at hfound
    exact ⟨hfound.1, by rw [hfound.2]⟩
  · cases h

theorem issue_eq_none (hseating : seating t = none) : issue s t = none := by
  have hother : ∀ socket payload, t ≠ .task (.joinLimiter socket payload) .allowed := by
    rintro socket payload rfl
    cases hseating
  unfold issue
  split
  · exact absurd rfl (hother _ _)
  · rfl

/-! ## Joining -/

theorem seating_eq {payload : UserJoinPayload} (h : seating t = some (socket, payload)) :
    t = .task (.joinLimiter socket payload) .allowed := by
  unfold seating at h
  split at h <;> cases h
  rfl

/-- An answered join issues a token, or repeats one. -/
theorem AnswersJoin.tokens {user : RoomUserInternal} {announced : Option RoomUser}
    {users : List RoomUserInternal} {fresh : ℕ} (hids : ∀ u ∈ s.room.users, u.id < s.fresh)
    (h : AnswersJoin s t g socket user announced users fresh) : TokenStep s t g := by
  have husers : g.state.room.users = users := congrArg RoomView.users h.view
  have hfresh : g.state.fresh = fresh := congrArg RoomView.fresh h.view
  have hyjs : g.state.room.yjsToken = s.room.yjsToken := congrArg RoomView.yjsToken h.view
  cases h.joins with
  | again user hseating _ =>
    refine .kept (issue_eq_none hseating) hfresh.ge (.inl hyjs) ?_
    rw [husers]
    exact fun u hu => ⟨u, hu, rfl, rfl, .inl rfl, id⟩
  | reconnect payload existing user hseating hexisting huser =>
    obtain ⟨hmem, haway, hpresented⟩ := reconnectingUser_spec hexisting
    have hissue : issue s t = some ⟨existing.id, socket, s.fresh, some existing.reconnectToken⟩ := by
      rw [seating_eq hseating]
      unfold issue
      dsimp only
      rw [hexisting]
    refine .issued _ hissue ⟨Nat.le_refl _, by rw [hfresh]; exact Nat.lt_succ_self _⟩ hyjs ?_
      (.inl ⟨existing, hmem, rfl, haway, rfl, payload, seating_eq hseating, hpresented⟩)
    rw [husers]
    refine List.forall_mem_map.mpr fun u hu => ?_
    by_cases hid : u.id = existing.id
    · rw [if_pos hid]
      exact .inl ⟨hid, rfl, rfl⟩
    · rw [if_neg hid]
      exact .inr ⟨hid, hu⟩
  | add payload hseating hnew hroom =>
    have hissue : issue s t = some ⟨s.fresh, socket, s.fresh + 1, none⟩ := by
      rw [seating_eq hseating]
      unfold issue
      dsimp only
      rw [hnew, hroom]
      rfl
    refine .issued _ hissue ⟨Nat.le_succ _, by rw [hfresh]; exact Nat.lt_succ_self _⟩ hyjs ?_
      (.inr ⟨rfl, Nat.le_refl _, by rw [hfresh]; exact Nat.lt_add_of_pos_right Nat.two_pos⟩)
    rw [husers]
    exact forall_mem_concat (fun u hu => .inr ⟨(hids u hu).ne, hu⟩) (.inl ⟨rfl, rfl, rfl⟩)

/-! ## Every segment -/

theorem leave_remains {u' : RoomUserInternal} (hu' : u' ∈ s.leave socket) :
    ∃ u ∈ s.room.users, Remains u u' := by
  unfold Server.leave at hu'
  split_ifs at hu'
  · split at hu'
    · exact ⟨u', hu', rfl, rfl, .inl rfl, id⟩
    · obtain ⟨u, hu, rfl⟩ := List.mem_map.mp hu'
      refine ⟨u, hu, ?_⟩
      split_ifs
      · exact ⟨rfl, rfl, .inr rfl, fun _ => rfl⟩
      · exact ⟨rfl, rfl, .inl rfl, id⟩
  · exact ⟨u', hu', rfl, rfl, .inl rfl, id⟩

theorem Announces.tokens (hids : ∀ u ∈ s.room.users, u.id < s.fresh)
    (hannounces : Announces cfg s t g) (hissue : issue s t = none) : TokenStep s t g := by
  have hself : ∀ u ∈ s.room.users, ∃ u₀ ∈ s.room.users, Remains u₀ u :=
    fun u hu => ⟨u, hu, rfl, rfl, .inl rfl, id⟩
  have hkept : ∀ {v : RoomView}, g.state.roomView = v →
      (v.users, v.fresh, v.yjsToken) = (s.room.users, s.fresh, s.room.yjsToken) →
      TokenStep s t g := by
    rintro v rfl hsame
    obtain ⟨husers, hrest⟩ := Prod.mk.inj hsame
    obtain ⟨hfresh, hyjs⟩ := Prod.mk.inj hrest
    change g.state.room.users = s.room.users at husers
    exact .kept hissue hfresh.ge (.inl hyjs) (husers ▸ hself)
  cases hannounces with
  | quiet hview => exact hkept hview rfl
  | connected hview => exact hkept hview rfl
  | replies _ hview =>
    obtain ⟨_, _, hview⟩ := hview
    exact hkept hview rfl
  | hintRefused _ _ _ hview => exact hkept hview rfl
  | hintDelivered _ _ _ _ hview => exact hkept hview rfl
  | hintAsked _ _ _ hview => exact hkept hview rfl
  | hintAnswered _ _ hview => exact hkept hview rfl
  | loaded _ _ _ _ hview => exact hkept hview rfl
  | testCaseAdded _ hview => exact hkept hview rfl
  | joined _ _ _ _ _ hanswers => exact hanswers.tokens hids
  | hydrated _ _ _ hends => exact hkept hends.view rfl
  | closed socket _ _ _ _ hview =>
    have husers : g.state.room.users = s.leave socket := congrArg RoomView.users hview
    have hfresh : g.state.fresh = s.fresh := congrArg RoomView.fresh hview
    refine .kept hissue hfresh.ge (.inl (congrArg RoomView.yjsToken hview)) fun u' hu' => ?_
    rw [husers] at hu'
    exact leave_remains hu'
  | removed userId rotated _ hview =>
    have husers : g.state.room.users = s.room.users.filter (·.id ≠ userId) :=
      congrArg RoomView.users hview
    have hfresh : g.state.fresh = if rotated then s.fresh + 1 else s.fresh :=
      congrArg RoomView.fresh hview
    have hyjs : g.state.room.yjsToken = if rotated then s.fresh else s.room.yjsToken :=
      congrArg RoomView.yjsToken hview
    refine .kept hissue ?_ ?_ ?_
    · rw [hfresh]
      split_ifs
      · exact Nat.le_succ _
      · exact Nat.le_refl _
    · rw [hfresh, hyjs]
      split_ifs
      · exact .inr ⟨Nat.le_refl _, Nat.lt_succ_self _⟩
      · exact .inl rfl
    · rw [husers]
      exact fun u hu => hself u (List.mem_filter.mp hu).1

/-- **Tokens.** Every segment issues the token that `issue` says, and leaves the others alone. -/
theorem fire_tokens (hids : ∀ u ∈ s.room.users, u.id < s.fresh)
    (h : (server cfg).fire s t = some g) : TokenStep s t g := by
  cases hissue : issue s t with
  | none => exact (fire_announces h).tokens hids hissue
  | some i =>
    obtain ⟨socket, payload, rfl, hseats⟩ : ∃ socket payload,
        t = .task (.joinLimiter socket payload) .allowed ∧ s.room.seats payload = true := by
      unfold issue at hissue
      split at hissue
      · rename_i socket payload
        refine ⟨socket, payload, rfl, ?_⟩
        unfold Room.seats
        cases hexisting : reconnectingUser s.room payload.reconnectToken with
        | some existing => rfl
        | none =>
          rw [hexisting] at hissue
          dsimp only at hissue
          split_ifs at hissue with hfull
          simpa using hfull
      · cases hissue
    obtain ⟨user, announced, users, fresh, hanswers⟩ := takeSeat_answers socket hseats
    obtain rfl : takeSeat s socket payload = g := Option.some.inj h
    exact hanswers.tokens hids

/-! ## Sending -/

theorem Message.tokens_of_quiet {m : Message} (h : m.quiet = true) : m.tokens = [] := by
  cases m <;> first | rfl | cases h

theorem Message.tokens_of_execution {m : Message} (h : m.isExecution = true) : m.tokens = [] := by
  cases m <;> first | rfl | cases h

/-- Whoever joins has a seat with its socket. -/
theorem Joins.seated {user : RoomUserInternal} {announced : Option RoomUser}
    {users : List RoomUserInternal} {fresh : ℕ} (h : Joins s t socket user announced users fresh) :
    user ∈ users ∧ user.socketId = some socket := by
  cases h with
  | again user _ huser =>
    have hfound := List.find?_some huser
    simp only [Bool.and_eq_true, decide_eq_true_eq] at hfound
    exact ⟨List.mem_of_find?_eq_some huser, hfound.1⟩
  | reconnect payload existing user _ hexisting huser =>
    subst huser
    have hmem : { existing with
        connected := true, socketId := some socket, reconnectToken := s.fresh } ∈
        s.reseat existing.id socket := by
      refine List.mem_map.mpr ⟨existing, (reconnectingUser_spec hexisting).1, ?_⟩
      rw [if_pos rfl]
    exact ⟨hmem, rfl⟩
  | add payload _ _ _ => exact ⟨List.mem_append_right _ (List.mem_singleton_self _), rfl⟩

/-- A token that a segment sends is the one of the document, or belongs to the user with the socket. -/
def Sends (g : Step) : Prop :=
  ∀ k, ∀ m ∈ messagesTo k g.out, ∀ τ ∈ m.tokens,
    τ = g.state.room.yjsToken ∨ ∃ u ∈ g.state.room.users, u.socketId = some k ∧ u.reconnectToken = τ

theorem Sends.of_silent (h : ∀ k, ∀ m ∈ messagesTo k g.out, m.tokens = []) : Sends g := by
  intro k m hm τ hτ
  rw [h k m hm] at hτ
  cases hτ

theorem AnswersJoin.sends {user : RoomUserInternal} {announced : Option RoomUser}
    {users : List RoomUserInternal} {fresh : ℕ}
    (h : AnswersJoin s t g socket user announced users fresh) : Sends g := by
  intro k m hm τ hτ
  have husers : g.state.room.users = users := congrArg RoomView.users h.view
  obtain ⟨hmem, hsocket⟩ := h.joins.seated
  rw [h.out k] at hm
  obtain ⟨m', hm', hm⟩ := List.mem_flatMap.mp hm
  have hk : socket = k := by
    by_contra hne
    rw [reaches, if_neg fun hboth => hne hboth.1] at hm
    cases hm
  obtain rfl := List.eq_of_mem_replicate hm
  rcases List.mem_cons.mp hm' with rfl | hm'
  · rcases List.mem_cons.mp hτ with rfl | hτ
    · exact .inr ⟨user, husers ▸ hmem, hk ▸ hsocket, rfl⟩
    · exact .inl (List.mem_singleton.mp hτ)
  · rw [List.mem_singleton.mp hm'] at hτ
    cases hτ

theorem spread_tokens {m : Message} {n : ℕ} (h : m.tokens = []) :
    ∀ m' ∈ List.replicate n m, m'.tokens = [] := by
  intro m' hm'
  rwa [List.eq_of_mem_replicate hm']

theorem flatMap_tokens {α : Type} {items : List α} {send : α → Message} {n : α → ℕ}
    (h : ∀ a, (send a).tokens = []) :
    ∀ m ∈ items.flatMap fun a => List.replicate (n a) (send a), m.tokens = [] := by
  intro m hm
  obtain ⟨a, -, hm⟩ := List.mem_flatMap.mp hm
  exact spread_tokens (h a) m hm

/-- **Sending.** No segment sends a token to another socket than that of its user. -/
theorem fire_sends (h : (server cfg).fire s t = some g) : Sends g := by
  have hreplicated : (∀ k, ∃ m n, messagesTo k g.out = List.replicate n m ∧ m.tokens = []) →
      Sends g := by
    intro hout
    refine .of_silent fun k => ?_
    obtain ⟨m, n, hk, hm⟩ := hout k
    rw [hk]
    exact spread_tokens hm
  cases fire_announces h with
  | quiet _ hout => exact .of_silent fun k m hm => Message.tokens_of_quiet (hout k m hm)
  | connected _ hout =>
    refine .of_silent fun k => ?_
    rw [hout k]
    exact List.forall_mem_nil _
  | replies hreplies _ =>
    exact .of_silent fun k m hm => Message.tokens_of_execution (hreplies.isExecution k m hm)
  | hintRefused _ _ _ _ hout => exact hreplicated fun k => ⟨_, _, hout k, rfl⟩
  | hintDelivered _ _ _ _ _ hout => exact hreplicated fun k => ⟨_, _, hout k, rfl⟩
  | hintAsked _ _ _ _ hout =>
    refine .of_silent fun k => ?_
    rw [hout k]
    exact List.forall_mem_append.mpr ⟨spread_tokens rfl, flatMap_tokens fun _ => rfl⟩
  | hintAnswered _ _ _ hout =>
    refine .of_silent fun k => ?_
    rw [hout k]
    exact List.forall_mem_append.mpr ⟨spread_tokens rfl, flatMap_tokens fun _ => rfl⟩
  | loaded detail after _ hafter _ hout =>
    refine .of_silent fun k => ?_
    rw [hout k]
    refine List.forall_mem_append.mpr ⟨spread_tokens rfl, fun m hm => ?_⟩
    obtain ⟨m', hm', hm⟩ := List.mem_flatMap.mp hm
    exact spread_tokens (Message.tokens_of_quiet (hafter m' hm')) m hm
  | testCaseAdded _ _ hout => exact hreplicated fun k => ⟨_, _, hout k, rfl⟩
  | joined _ _ _ _ _ hanswers => exact hanswers.sends
  | hydrated _ _ _ hends =>
    refine .of_silent fun k => ?_
    rw [hends.out k]
    exact List.forall_mem_append.mpr ⟨flatMap_tokens fun _ => rfl, flatMap_tokens fun _ => rfl⟩
  | closed socket before _ _ hbefore _ hout =>
    refine .of_silent fun k => ?_
    rw [hout k]
    refine List.forall_mem_append.mpr ⟨List.forall_mem_append.mpr
      ⟨fun m hm => Message.tokens_of_quiet (hbefore k m hm), flatMap_tokens fun _ => rfl⟩, ?_⟩
    split_ifs
    · exact spread_tokens rfl
    · exact List.forall_mem_nil _
  | removed userId rotated _ hview hout =>
    have hyjs : g.state.room.yjsToken = if rotated then s.fresh else s.room.yjsToken :=
      congrArg RoomView.yjsToken hview
    intro k m hm τ hτ
    rw [hout k] at hm
    split_ifs at hm hyjs
    · rw [List.eq_of_mem_replicate hm] at hτ
      exact .inl ((List.mem_singleton.mp hτ).trans hyjs.symm)
    · cases hm

end CodeShare
