import CodeShare.Server.TokenSteps

/-! # Messages with tokens

Tokens get into messages in two ways: the answer to a join has that of its user and that of the document, and
a new token of the document is sent to everybody in the room.
-/

namespace CodeShare
open Tasks
set_option autoImplicit false

/-- The answer to a join names its user, with the token to come back with. -/
def Message.seat : Message → Option (UserId × Token)
  | userJoined userId _ _ _ reconnectToken _ => reconnectToken.map fun token => (userId, token)
  | _ => none

variable {cfg : Config} {s : Server} {t : ServerTrigger} {g : Step}

/-- The ways in which tokens get into messages. -/
inductive TokenMessages (s : Server) (t : ServerTrigger) (g : Step) : Prop where
  | silent (hyjs : g.state.room.yjsToken = s.room.yjsToken) (hjoined : g.state.joined.Sublist s.joined)
      (hout : ∀ k, ∀ m ∈ messagesTo k g.out, m.tokens = [])
  | joined (socket : SocketId) (user : RoomUserInternal) (announced : Option RoomUser)
      (users : List RoomUserInternal) (fresh : ℕ) (h : AnswersJoin s t g socket user announced users fresh)
  | rotated (hjoined : g.state.joined = s.joined)
      (hout : ∀ k, messagesTo k g.out =
        List.replicate (s.joined.count k) (.yjsTokenRotated g.state.room.yjsToken))

theorem TokenMessages.of_view {v : RoomView} (hview : g.state.roomView = v)
    (hyjs : v.yjsToken = s.room.yjsToken) (hjoined : v.joined.Sublist s.joined)
    (hout : ∀ k, ∀ m ∈ messagesTo k g.out, m.tokens = []) : TokenMessages s t g := by
  subst hview
  exact .silent hyjs hjoined hout

/-- Every segment sends tokens in one of these ways. -/
theorem fire_tokenMessages (h : (server cfg).fire s t = some g) : TokenMessages s t g := by
  have hreplicated : (∀ k, ∃ m n, messagesTo k g.out = List.replicate n m ∧ m.tokens = []) →
      ∀ k, ∀ m ∈ messagesTo k g.out, m.tokens = [] := by
    intro hout k
    obtain ⟨m, n, hk, hm⟩ := hout k
    rw [hk]
    exact spread_tokens hm
  cases fire_announces h with
  | quiet hview hout =>
    exact .of_view hview rfl (.refl _) fun k m hm => Message.tokens_of_quiet (hout k m hm)
  | connected hview hout =>
    refine .of_view hview rfl (.refl _) fun k => ?_
    rw [hout k]
    exact List.forall_mem_nil _
  | replies hreplies hview =>
    obtain ⟨_, _, hview⟩ := hview
    exact .of_view hview rfl (.refl _)
      fun k m hm => Message.tokens_of_execution (hreplies.isExecution k m hm)
  | hintRefused _ _ _ hview hout =>
    exact .of_view hview rfl (.refl _) (hreplicated fun k => ⟨_, _, hout k, rfl⟩)
  | hintDelivered _ _ _ _ hview hout =>
    exact .of_view hview rfl (.refl _) (hreplicated fun k => ⟨_, _, hout k, rfl⟩)
  | hintAsked _ _ _ hview hout =>
    refine .of_view hview rfl (.refl _) fun k => ?_
    rw [hout k]
    exact List.forall_mem_append.mpr ⟨spread_tokens rfl, flatMap_tokens fun _ => rfl⟩
  | hintAnswered _ _ hview hout =>
    refine .of_view hview rfl (.refl _) fun k => ?_
    rw [hout k]
    exact List.forall_mem_append.mpr ⟨spread_tokens rfl, flatMap_tokens fun _ => rfl⟩
  | loaded detail after _ hafter hview hout =>
    refine .of_view hview rfl (.refl _) fun k => ?_
    rw [hout k]
    refine List.forall_mem_append.mpr ⟨spread_tokens rfl, fun m hm => ?_⟩
    obtain ⟨m', hm', hm⟩ := List.mem_flatMap.mp hm
    exact spread_tokens (Message.tokens_of_quiet (hafter m' hm')) m hm
  | testCaseAdded _ hview hout =>
    exact .of_view hview rfl (.refl _) (hreplicated fun k => ⟨_, _, hout k, rfl⟩)
  | joined socket user announced users fresh hanswers => exact .joined socket user announced users fresh hanswers
  | hydrated _ _ _ hends =>
    refine .of_view hends.view rfl (.refl _) fun k => ?_
    rw [hends.out k]
    exact List.forall_mem_append.mpr ⟨flatMap_tokens fun _ => rfl, flatMap_tokens fun _ => rfl⟩
  | closed socket before _ _ hbefore hview hout =>
    refine .of_view hview rfl List.filter_sublist fun k => ?_
    rw [hout k]
    refine List.forall_mem_append.mpr ⟨List.forall_mem_append.mpr
      ⟨fun m hm => Message.tokens_of_quiet (hbefore k m hm), flatMap_tokens fun _ => rfl⟩, ?_⟩
    split_ifs
    · exact spread_tokens rfl
    · exact List.forall_mem_nil _
  | removed userId rotated _ hview hout =>
    cases rotated with
    | true =>
      have hyjs : g.state.room.yjsToken = s.fresh := congrArg RoomView.yjsToken hview
      refine .rotated (congrArg RoomView.joined hview) fun k => ?_
      rw [hout k, hyjs]
      rfl
    | false =>
      refine .of_view hview rfl (.refl _) fun k => ?_
      rw [hout k]
      exact List.forall_mem_nil _

theorem Message.seat_of_tokens {m : Message} (h : m.tokens = []) : m.seat = none := by
  cases m with
  | userJoined userId displayName role mode reconnectToken yjsToken =>
    cases reconnectToken with
    | none => rfl
    | some τ => simp [Message.tokens] at h
  | _ => rfl

/-- The answer to a join goes to its socket alone. -/
theorem AnswersJoin.received {socket k : SocketId} {user : RoomUserInternal} {announced : Option RoomUser}
    {users : List RoomUserInternal} {fresh : ℕ} {m : Message}
    (h : AnswersJoin s t g socket user announced users fresh) (hm : m ∈ messagesTo k g.out) :
    socket = k ∧ m ∈ joinMessages g.state.room user := by
  rw [h.out k] at hm
  obtain ⟨m', hm', hm⟩ := List.mem_flatMap.mp hm
  obtain rfl := List.eq_of_mem_replicate hm
  refine ⟨?_, hm'⟩
  by_contra hne
  rw [reaches, if_neg fun hboth => hne hboth.1] at hm
  cases hm

/-- Only the answer to a join names its user with a token, which is that of the user with the socket. -/
theorem fire_names {k : SocketId} {m : Message} {seat : UserId × Token} (h : (server cfg).fire s t = some g)
    (hm : m ∈ messagesTo k g.out) (hseat : m.seat = some seat) :
    ∃ u ∈ g.state.room.users, u.id = seat.1 ∧ u.socketId = some k ∧ u.reconnectToken = seat.2 := by
  cases fire_tokenMessages h with
  | silent _ _ hout =>
    rw [Message.seat_of_tokens (hout k m hm)] at hseat
    cases hseat
  | joined socket user announced users fresh hanswers =>
    have husers : g.state.room.users = users := congrArg RoomView.users hanswers.view
    obtain ⟨hmem, hsocket⟩ := hanswers.joins.seated
    obtain ⟨rfl, hreceived⟩ := hanswers.received hm
    rcases List.mem_cons.mp hreceived with rfl | hsync
    · cases hseat
      exact ⟨user, husers ▸ hmem, rfl, hsocket, rfl⟩
    · rw [List.mem_singleton.mp hsync] at hseat
      cases hseat
  | rotated _ hout =>
    rw [hout k] at hm
    rw [List.eq_of_mem_replicate hm] at hseat
    cases hseat

end CodeShare
