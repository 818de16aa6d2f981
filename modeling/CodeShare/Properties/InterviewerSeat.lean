import CodeShare.Server.AnnouncementSteps
import CodeShare.Server.TableSteps

/-! # The interviewer's seat

Roles are given out when seats are taken: the first user of an interview is the interviewer, everybody
who joins an occupied room a candidate. An occupied room keeps exactly one interviewer as long as the
interviewer's grace period does not end before the others have left.
-/

namespace CodeShare
open Tasks
set_option autoImplicit false

/-- The users with the role of an interviewer. -/
def interviewers (users : List RoomUserInternal) : ℕ := users.countP fun u => u.role = .interviewer

/-- An occupied interview room has exactly one interviewer. -/
def Interviewed (c : ServerConf) : Prop :=
  c.shared.room.mode = .interview → c.shared.room.users ≠ [] → interviewers c.shared.room.users = 1

/-- No grace period takes the interviewer out of an interview while somebody else has a seat. -/
def InterviewerLeavesLast (c : ServerConf) (t : ServerTrigger) : Prop :=
  c.shared.room.mode = .interview → ∀ userId ∈ expels c.shared t,
    (∃ u ∈ c.shared.room.users, u.id = userId ∧ u.role = .interviewer) →
      ∀ u ∈ c.shared.room.users, u.id = userId

instance (c : ServerConf) (t : ServerTrigger) : Decidable (InterviewerLeavesLast c t) :=
  inferInstanceAs (Decidable (_ → ∀ userId ∈ expels c.shared t, _ → _))

/-! ## Roles -/

section
variable {cfg : Config} {s : Server} {t : ServerTrigger} {g : Step}

theorem leave_roles (s : Server) (socket : SocketId) :
    (s.leave socket).map (·.role) = s.room.users.map (·.role) := by
  unfold Server.leave
  split_ifs
  · split
    · rfl
    · unfold Room.updateUser
      rw [List.map_map]
      apply List.map_congr_left
      intro u _
      rw [Function.comp_apply]
      split_ifs <;> rfl
  · rfl

theorem reseat_roles (s : Server) (userId : UserId) (socket : SocketId) :
    (s.reseat userId socket).map (·.role) = s.room.users.map (·.role) := by
  unfold Server.reseat
  rw [List.map_map]
  apply List.map_congr_left
  intro u _
  rw [Function.comp_apply]
  split_ifs <;> rfl

/-- What a segment does to the users, seen through their roles. -/
inductive RoleStep (s : Server) (t : ServerTrigger) (g : Step) : Prop where
  | kept
      (hexpels : expels s t = none)
      (hroles : g.state.room.users.map (·.role) = s.room.users.map (·.role))
  | added
      (hexpels : expels s t = none)
      (hroles : g.state.room.users.map (·.role) = s.room.users.map (·.role) ++ [determineRole s.room])
  | removed (userId : UserId)
      (hexpels : expels s t = some userId)
      (husers : g.state.room.users = s.room.users.filter (·.id ≠ userId))

/-- The user whose grace period is over is removed. -/
theorem fire_expels (h : (server cfg).fire s t = some g) {userId : UserId}
    (hexpels : expels s t = some userId) :
    g.state.room.users = s.room.users.filter (·.id ≠ userId) := by
  unfold expels at hexpels
  split at hexpels
  · rename_i id
    split at hexpels
    · rename_i timerId due userId' hfind
      split_ifs at hexpels with hgone
      obtain rfl := Option.some.inj hexpels
      change handleEvent cfg s (.timeout id) = some g at h
      simp only [handleEvent, hfind] at h
      split_ifs at h with hdue
      obtain rfl := Option.some.inj h
      show (handleGraceTimeout (s.clearTimeout timerId) userId').state.room.users = _
      unfold handleGraceTimeout removeDisconnectedUser
      cases hfound : s.room.findUser userId' with
      | none => rw [hfound] at hgone; cases hgone
      | some user =>
        have hfound' : ((s.clearTimeout timerId).room.cancelGracePeriod userId').findUser userId' =
            some user := hfound
        rw [hfound, Option.any_some] at hgone
        simp only [hfound']
        rw [if_neg (by simpa using hgone)]
        split_ifs
        · rfl
        · exact congrArg RoomView.users (destroyRoom_roomView _)
    · cases hexpels
  · cases hexpels

theorem fire_roles (h : (server cfg).fire s t = some g) : RoleStep s t g := by
  cases hexpels : expels s t with
  | some userId => exact .removed userId hexpels (fire_expels h hexpels)
  | none =>
    have hkept : g.state.room.users = s.room.users → RoleStep s t g :=
      fun husers => .kept hexpels (by rw [husers])
    cases fire_announces h with
    | quiet hview _ => exact hkept (congrArg RoomView.users hview)
    | connected hview _ => exact hkept (congrArg RoomView.users hview)
    | replies _ hview =>
      obtain ⟨_, _, hview⟩ := hview
      exact hkept (congrArg RoomView.users hview)
    | hintRefused _ _ _ hview _ => exact hkept (congrArg RoomView.users hview)
    | hintDelivered _ _ _ _ hview _ => exact hkept (congrArg RoomView.users hview)
    | hintAsked _ _ _ hview _ => exact hkept (congrArg RoomView.users hview)
    | hintAnswered _ _ hview _ => exact hkept (congrArg RoomView.users hview)
    | loaded _ _ _ _ hview _ => exact hkept (congrArg RoomView.users hview)
    | testCaseAdded _ hview _ => exact hkept (congrArg RoomView.users hview)
    | hydrated _ _ _ hends => exact hkept (congrArg RoomView.users hends.view)
    | joined socket user announced users fresh hanswers =>
      have husers : g.state.room.users = users := congrArg RoomView.users hanswers.view
      cases hanswers.joins with
      | again => exact hkept husers
      | reconnect payload existing =>
        exact .kept hexpels (by rw [husers, reseat_roles])
      | add payload =>
        exact .added hexpels (by rw [husers, List.map_append]; rfl)
    | closed socket _ _ _ _ hview _ =>
      have husers : g.state.room.users = s.leave socket := congrArg RoomView.users hview
      exact .kept hexpels (by rw [husers, leave_roles])
    | removed userId _ hexpels' => rw [hexpels] at hexpels'; cases hexpels'

end

/-! ## One step -/

section
variable {cfg : Config} {c c' : ServerConf} {out : List Effect} {t : ServerTrigger} {g : Step}
  {rest : List Task}

theorem interviewers_roles (users : List RoomUserInternal) :
    interviewers users = (users.map (·.role)).count .interviewer := by
  unfold interviewers
  rw [List.count, List.countP_map]
  apply List.countP_congr
  intro u _
  simp

/-- Without the user of an id, whose role is that of the interviewer or is not. -/
theorem interviewers_filter {users : List RoomUserInternal} {userId : UserId}
    (hone : interviewers users = 1) :
    interviewers (users.filter (·.id ≠ userId)) =
      if ∃ u ∈ users, u.id = userId ∧ u.role = .interviewer then 0 else 1 := by
  have hsplit : interviewers users = interviewers (users.filter (·.id ≠ userId)) +
      interviewers (users.filter (·.id = userId)) := by
    unfold interviewers
    rw [List.countP_eq_countP_filter_add users _ fun u => decide (u.id ≠ userId)]
    simp only [ne_eq, decide_not, Bool.not_not]
  split_ifs with hinterviewer
  · obtain ⟨u, hu, hid, hrole⟩ := hinterviewer
    have hpos : 0 < interviewers (users.filter (·.id = userId)) :=
      List.countP_pos_iff.mpr ⟨u, List.mem_filter.mpr ⟨hu, by simpa using hid⟩, by simpa using hrole⟩
    omega
  · have hzero : interviewers (users.filter (·.id = userId)) = 0 := by
      apply List.countP_eq_zero.mpr
      intro u hu hrole
      obtain ⟨hu, hid⟩ := List.mem_filter.mp hu
      exact hinterviewer ⟨u, hu, by simpa using hid, by simpa using hrole⟩
    omega

theorem filter_id_eq_nil {users : List RoomUserInternal} {userId : UserId} :
    users.filter (·.id ≠ userId) = [] ↔ ∀ u ∈ users, u.id = userId := by
  rw [List.filter_eq_nil_iff]
  simp

/-- Joins give out the role when the room is empty, and only the end of a grace period takes it away. -/
theorem interviewed_step (h : Interviewed c) (hby : (server cfg).StepBy c c' out t g rest) :
    InterviewerLeavesLast c t ↔ Interviewed c' := by
  have hmode : g.state.room.mode = c.shared.room.mode := by
    refine (fire_within hby.fire).observe (·.room.mode) fun s => ?_
    cases triggerFamily t <;> rfl
  unfold InterviewerLeavesLast Interviewed
  unfold Interviewed at h
  rw [hby.shared, hmode]
  apply forall_congr'
  intro hinterview
  have hcount := h hinterview
  cases fire_roles hby.fire with
  | kept hexpels hroles =>
    rw [hexpels]
    refine iff_of_true nofun fun hne => ?_
    rw [interviewers_roles, hroles, ← interviewers_roles]
    apply hcount
    intro hempty
    rw [hempty, List.map_nil, List.map_eq_nil_iff] at hroles
    exact hne hroles
  | added hexpels hroles =>
    rw [hexpels]
    refine iff_of_true nofun fun _ => ?_
    rw [interviewers_roles, hroles, List.count_append, ← interviewers_roles]
    by_cases hempty : c.shared.room.users = []
    · rw [hempty, determineRole, if_neg (not_not.mpr hinterview), if_pos hempty]
      rfl
    · rw [hcount hempty, determineRole, if_neg (not_not.mpr hinterview), if_neg hempty]
      rfl
  | removed userId hexpels husers =>
    rw [hexpels, husers]
    by_cases hempty : c.shared.room.users = []
    · rw [hempty]
      exact iff_of_true (fun _ _ _ => nofun) fun hne => absurd rfl hne
    · rw [interviewers_filter (hcount hempty), Ne, filter_id_eq_nil]
      simp only [Option.mem_def, Option.some.injEq, forall_eq']
      split_ifs with hinterviewer
      · constructor
        · intro hlast hne
          exact absurd (hlast hinterviewer) hne
        · intro hleft _
          by_contra hother
          exact hleft hother
      · exact iff_of_true (fun hsome => absurd hsome hinterviewer) fun _ => rfl

end

/-! ## Runs -/

/-- **The interviewer's seat.** An occupied interview room has exactly one interviewer in every
configuration of a run, if and only if in this run no grace period takes the interviewer out of the room
while somebody else has a seat. -/
theorem interviewed_iff {cfg : Config} {mode : RoomMode} {now : Time} {acts : List ServerAct}
    {c : ServerConf} {out : List Effect} (hreach : Reaches cfg mode now acts c out) :
    (server cfg).Always Interviewed (initial cfg mode now) acts ↔
      Meeting cfg InterviewerLeavesLast mode now acts := by
  refine (Machine.meets_iff_always (R := fun _ _ => True)
    (fun c c' out t g rest h _ hby => interviewed_step h hby) ?_ (Machine.meets_true _ acts) hreach).symm
  intro _ hne
  exact absurd rfl hne

/-- Two users join an interview. -/
def exampleTwoUsers : List ServerAct := exampleJoin 0 .go ++ exampleJoin 1 .go

theorem interviewed_example : ∃ c out, Reaches plainConfig .interview 0 exampleTwoUsers c out ∧
    c.shared.room.users.map (·.role) = [.interviewer, .candidate] ∧
    (server plainConfig).Always Interviewed (initial plainConfig .interview 0) exampleTwoUsers := by
  obtain ⟨c, out, hreach, hroles⟩ : ∃ c out,
      Reaches plainConfig .interview 0 exampleTwoUsers c out ∧
      c.shared.room.users.map (·.role) = [.interviewer, .candidate] :=
    ⟨_, _, rfl, rfl⟩
  have hmeets : Meeting plainConfig InterviewerLeavesLast .interview 0 exampleTwoUsers := by
    unfold Meeting
    decide
  exact ⟨c, out, hreach, hroles, (interviewed_iff hreach).mpr hmeets⟩

/-- The interviewer leaves and its grace period ends; whoever takes the free seat is a candidate too, and
nobody may select a problem. -/
def exampleNoInterviewer : List ServerAct :=
  exampleTwoUsers ++ [.event (.disconnect 0), .event (.tick 300000), .event (.timeout 0)] ++
    exampleJoin 2 .go

theorem interview_without_interviewer : ∃ c out,
    Reaches plainConfig .interview 0 exampleNoInterviewer c out ∧
    c.shared.room.users.map (fun u => (u.role, u.connected)) = [(.candidate, true), (.candidate, true)] ∧
    (∀ u ∈ c.shared.room.users, ∀ p,
      (eventRejection c.shared.room u (.problemSelect p)).isSome = true) ∧
    ¬ (server plainConfig).Always Interviewed (initial plainConfig .interview 0)
      exampleNoInterviewer := by
  obtain ⟨c, out, hreach, hmode, hroles⟩ : ∃ c out,
      Reaches plainConfig .interview 0 exampleNoInterviewer c out ∧
      c.shared.room.mode = .interview ∧
      c.shared.room.users.map (fun u => (u.role, u.connected)) =
        [(.candidate, true), (.candidate, true)] :=
    ⟨_, _, rfl, rfl, rfl⟩
  have hcandidate : ∀ u ∈ c.shared.room.users, u.role = .candidate := by
    intro u hu
    have hmem := List.mem_map_of_mem (f := fun u : RoomUserInternal => (u.role, u.connected)) hu
    rw [hroles] at hmem
    simp at hmem
    exact hmem.1
  refine ⟨c, out, hreach, hroles, fun u hu p => ?_, fun hall => ?_⟩
  · simp [eventRejection, modeRejection, hmode, ClientEvent.interviewerOnly, hcandidate u hu]
  · have hone := hall.last hreach hmode (fun hempty => by rw [hempty] at hroles; cases hroles)
    have hzero : interviewers c.shared.room.users = 0 := by
      apply List.countP_eq_zero.mpr
      intro u hu
      simp [hcandidate u hu]
    rw [hzero] at hone
    cases hone

end CodeShare
