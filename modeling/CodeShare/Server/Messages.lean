import CodeShare.Server.System

/-! # What a socket receives

The messages that the outputs of a segment deliver to one socket, for each way of sending.
-/

namespace CodeShare
open Tasks
set_option autoImplicit false

/-- The message that an effect delivers to a socket. -/
def Effect.messageTo (socket : SocketId) : Effect → Option Message
  | deliver receiver m => if receiver = socket then some m else none
  | _ => none

/-- The messages delivered to a socket, in order. -/
def messagesTo (socket : SocketId) (out : List Effect) : List Message :=
  out.filterMap (Effect.messageTo socket)

variable {k socket : SocketId} {m : Message} {out : List Effect}

@[simp] theorem messagesTo_nil : messagesTo k [] = [] := rfl

theorem messagesTo_append (out out' : List Effect) :
    messagesTo k (out ++ out') = messagesTo k out ++ messagesTo k out' :=
  List.filterMap_append

theorem mem_messagesTo : m ∈ messagesTo k out ↔ .deliver k m ∈ out := by
  unfold messagesTo
  rw [List.mem_filterMap]
  constructor
  · rintro ⟨e, he, hm⟩
    cases e with
    | deliver receiver m' =>
      simp only [Effect.messageTo] at hm
      split_ifs at hm with hk
      obtain rfl := Option.some.inj hm
      exact hk ▸ he
    | _ => cases hm
  · intro h
    exact ⟨_, h, if_pos rfl⟩

/-- What a message sent to several sockets puts before one of them. -/
theorem messagesTo_deliveries (sockets : List SocketId) :
    messagesTo k (sockets.map (.deliver · m)) = List.replicate (sockets.count k) m := by
  induction sockets with
  | nil => rfl
  | cons receiver sockets ih =>
    rw [List.map_cons, messagesTo, List.filterMap_cons, ← messagesTo, ih, List.count_cons]
    by_cases hk : receiver = k
    · simp [Effect.messageTo, hk, List.replicate_succ]
    · simp [Effect.messageTo, hk]

section
variable (g : Step) (e : Effect)

theorem messagesTo_toRoom :
    messagesTo k (g.toRoom m).out = messagesTo k g.out ++ List.replicate (g.state.joined.count k) m := by
  unfold Tasks.Segment.toRoom
  rw [Segment.emits_out, messagesTo_append, messagesTo_deliveries]

theorem messagesTo_toOthers :
    messagesTo k (g.toOthers socket m).out = messagesTo k g.out ++
      List.replicate ((g.state.joined.filter (· ≠ socket)).count k) m := by
  unfold Tasks.Segment.toOthers
  rw [Segment.emits_out, messagesTo_append, messagesTo_deliveries]

theorem messagesTo_syncRoom :
    messagesTo k g.syncRoom.out = messagesTo k g.out ++
      List.replicate (g.state.joined.count k) (.roomSync g.state.room.toSyncPayload) := by
  unfold Tasks.Segment.syncRoom
  rw [Segment.emits_out, messagesTo_append, messagesTo_deliveries]

theorem messagesTo_toSocket :
    messagesTo k (g.toSocket socket m).out = messagesTo k g.out ++
      List.replicate (if socket = k ∧ socket ∈ g.state.live then 1 else 0) m := by
  unfold Tasks.Segment.toSocket
  rw [Segment.emits_out, messagesTo_append]
  by_cases hlive : socket ∈ g.state.live
  · by_cases hk : socket = k
    · rw [if_pos hlive, if_pos ⟨hk, hlive⟩, hk]
      simp [messagesTo, Effect.messageTo]
    · simp [hlive, hk, messagesTo, Effect.messageTo]
  · rw [if_neg hlive, if_neg fun hboth => hlive hboth.2]
    rfl

/-- Notes and calls to services reach no socket. -/
theorem messagesTo_emit (h : e.messageTo k = none) :
    messagesTo k (g.emit e).out = messagesTo k g.out := by
  have hnone : messagesTo k [e] = [] := by simp [messagesTo, h]
  rw [Segment.emit_out, messagesTo_append, hnone, List.append_nil]

end

end CodeShare
