import CodeShare.Properties.Seats
import CodeShare.Server.TableSteps

/-! # The seat invariant

In every registered room the users, their sockets and the running grace timers agree, whatever the
order of joins, reconnects, disconnects and expiries.
-/

namespace CodeShare
open Tasks
set_option autoImplicit false

/-- A grace timer runs under the id of the user. -/
def Server.InGrace (s : Server) (userId : UserId) : Prop :=
  ∃ id, (userId, id) ∈ s.room.gracePeriodTimers ∧
    ∃ timer ∈ s.timers, timer.id = id ∧ timer.kind = .grace userId

structure SeatInvariant (s : Server) : Prop where
  full : s.room.users.length ≤ maxUsers
  distinct : (s.room.users.map (·.id)).Nodup
  connected_iff : ∀ u ∈ s.room.users, u.connected = true ↔ u.socketId ≠ none
  disconnected_iff : ∀ u ∈ s.room.users, u.connected = false ↔ s.InGrace u.id
  /-- the timers are a map, and nobody else has one -/
  keys : (s.room.gracePeriodTimers.map Prod.fst).Nodup
  keyed : ∀ key ∈ s.room.gracePeriodTimers.map Prod.fst, ∃ u ∈ s.room.users, u.id = key
  interviewer : s.room.mode = .interview →
    (s.room.users.countP fun u => u.role = .interviewer) ≤ 1

theorem SeatTable.seatInvariant {s : Server} (h : SeatTable s.tableView) : SeatInvariant s where
  full := h.roster.full
  distinct := h.roster.distinct
  connected_iff u hu := by
    have hbound : u.connected = u.socketId.isSome := h.bound u hu
    rw [hbound, Option.isSome_iff_ne_none]
  disconnected_iff u hu := by
    constructor
    · intro hdisconnected
      obtain ⟨⟨key, id⟩, hentry, heq⟩ := List.mem_map.mp (h.waiting u hu hdisconnected)
      have hkey : key = u.id := heq
      subst hkey
      exact ⟨id, hentry, h.running _ hentry⟩
    · rintro ⟨id, hentry, -⟩
      obtain ⟨w, hw, heq, hdisconnected⟩ := h.disconnected _ hentry
      have hsame : w = u := h.eq_of_id hw hu heq
      rw [← hsame]
      exact hdisconnected
  keys := h.keys
  keyed key hkey := by
    obtain ⟨entry, hentry, heq⟩ := List.mem_map.mp hkey
    obtain ⟨u, hu, hid, -⟩ := h.disconnected entry hentry
    exact ⟨u, hu, hid.trans heq⟩
  interviewer := h.roster.interviewer

theorem initial_table (cfg : Config) (mode : RoomMode) (now : Time) :
    SeatTable (initialServer cfg mode now).tableView where
  timed := ⟨List.nodup_nil, List.forall_mem_nil _, fun _ h => by cases h⟩
  roster := ⟨Nat.zero_le _, List.nodup_nil, List.forall_mem_nil _, fun _ => Nat.zero_le _⟩
  bound := List.forall_mem_nil _
  keys := List.nodup_nil
  waiting := List.forall_mem_nil _
  disconnected := List.forall_mem_nil _
  running := List.forall_mem_nil _

/-- A room that is still registered has its table. -/
theorem seatTable_run {cfg : Config} {mode : RoomMode} {now : Time} {acts : List ServerAct} {c : ServerConf}
    {out : List Effect} (hreach : Reaches cfg mode now acts c out) (hregistered : c.shared.registered = true) :
    SeatTable c.shared.tableView := by
  have h : c.shared.registered = true → SeatTable c.shared.tableView := by
    refine Machine.run_preserves_always
      (I := fun (c : ServerConf) (_ : List Effect) =>
        c.shared.registered = true → SeatTable c.shared.tableView)
      (fun c c' past out t g rest h hby => ?_) (fun _ => initial_table cfg mode now) hreach
    rw [hby.shared]
    intro hregistered
    obtain ⟨hbefore, hkeeps⟩ := fire_table hby.fire hregistered
    exact hkeeps (h hbefore)
  exact h hregistered

/-- **The seat invariant** holds in every room that is still registered. -/
theorem seat_invariant {cfg : Config} {mode : RoomMode} {now : Time} {acts : List ServerAct}
    {c : ServerConf} {out : List Effect} (hreach : Reaches cfg mode now acts c out)
    (hregistered : c.shared.registered = true) : SeatInvariant c.shared := by
  have htable : SeatTable c.shared.tableView := seatTable_run hreach hregistered
  exact htable.seatInvariant

/-- The user of the run is in its grace period. -/
theorem seat_invariant_example : ∃ c out,
    Reaches plainConfig .interview 0 exampleLeave c out ∧ c.shared.registered = true ∧
    (c.shared.room.users.map fun u => (u.role, u.connected)) = [(.interviewer, false)] ∧
    SeatInvariant c.shared := by
  obtain ⟨c, out, hreach, hregistered, husers⟩ : ∃ c out,
      Reaches plainConfig .interview 0 exampleLeave c out ∧ c.shared.registered = true ∧
      (c.shared.room.users.map fun u => (u.role, u.connected)) = [(.interviewer, false)] :=
    ⟨_, _, rfl, rfl, rfl⟩
  exact ⟨c, out, hreach, hregistered, husers, seat_invariant hreach hregistered⟩

end CodeShare
