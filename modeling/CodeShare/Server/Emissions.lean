import CodeShare.Foundations.Threads
import CodeShare.Server.ExecutionReplies

/-! # Emissions

What a segment sends, each message with its audience: the room or one socket.
-/

namespace CodeShare
open Tasks
set_option autoImplicit false

inductive Emission where
  | toRoom (message : Message)
  | toSocket (socket : SocketId) (message : Message)

/-- What a socket receives of it. -/
def Emission.reaching (s : Server) (k : SocketId) : Emission → List Message
  | toRoom message => List.replicate (s.joined.count k) message
  | toSocket socket message => List.replicate (reaches s.live socket k) message

/-- The outputs deliver these emissions and nothing else. -/
def Delivers (s : Server) (out : List Effect) (es : List Emission) : Prop :=
  ∀ k, messagesTo k out = es.flatMap (Emission.reaching s k)

/-- What a segment sends, to the sockets that are there when it starts. -/
def Says (turn : ServerTurn) (es : List Emission) : Prop := Delivers turn.before.shared turn.out es

abbrev ThreadedServerConf := Conf (Server × ℕ) (Threaded Server Task ServerEvent)

/-- The runs of a room from its creation, with threads. -/
def ReachesThreaded (cfg : Config) (mode : RoomMode) (now : Time) (acts : List ServerAct)
    (d : ThreadedServerConf) (out : List Effect) : Prop :=
  (server cfg).threaded.run ⟨(initialServer cfg mode now, 0), []⟩ acts = some (d, out)

/-- The segments of a thread of such a run. -/
def threadTurns (cfg : Config) (mode : RoomMode) (now : Time) (acts : List ServerAct) (k : ℕ) :
    List ServerTurn :=
  turnsOf k ((server cfg).threaded.history ⟨(initialServer cfg mode now, 0), []⟩ acts)

theorem ReachesThreaded.reaches {cfg : Config} {mode : RoomMode} {now : Time} {acts : List ServerAct}
    {d : ThreadedServerConf} {out : List Effect} (h : ReachesThreaded cfg mode now acts d out) :
    Reaches cfg mode now acts d.base out :=
  (Machine.run_of_threaded h).1

/-- An invariant of the runs holds before each segment of a thread. -/
theorem ReachesThreaded.before {cfg : Config} {mode : RoomMode} {now : Time} {acts : List ServerAct}
    {d : ThreadedServerConf} {out : List Effect} (h : ReachesThreaded cfg mode now acts d out)
    {I : ServerConf → Prop} (hinit : I (initial cfg mode now))
    (hstep : ∀ c c' out t g rest, I c → (server cfg).StepBy c c' out t g rest → I c') {k : ℕ}
    {turn : ServerTurn} (hturn : turn ∈ threadTurns cfg mode now acts k) : I turn.before := by
  obtain ⟨hrun, hhistory⟩ := Machine.run_of_threaded h
  refine (Machine.meets_iff_history hrun).mp (Machine.meets_of_invariant hstep hinit acts) turn ?_
  rw [hhistory]
  obtain ⟨tagged, htagged, rfl⟩ := List.mem_map.mp hturn
  exact List.mem_map_of_mem (List.mem_of_mem_filter htagged)

/-! ## Ways of sending -/

section
variable {s : Server} {g : Step} {es : List Emission} {message : Message} {socket : SocketId}

theorem delivers_nil (s : Server) : Delivers s [] [] := fun _ => rfl

theorem Delivers.toRoom (h : Delivers s g.out es) (hjoined : g.state.joined = s.joined) :
    Delivers s (g.toRoom message).out (es ++ [.toRoom message]) := by
  intro k
  rw [messagesTo_toRoom, h k, hjoined, List.flatMap_append, List.flatMap_singleton]
  rfl

theorem Delivers.toSocket (h : Delivers s g.out es) (hlive : g.state.live = s.live) :
    Delivers s (g.toSocket socket message).out (es ++ [.toSocket socket message]) := by
  intro k
  rw [messagesTo_toSocket, h k, hlive, List.flatMap_append, List.flatMap_singleton]
  rfl

end

end CodeShare
