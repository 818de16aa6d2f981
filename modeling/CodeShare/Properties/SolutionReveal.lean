import CodeShare.Foundations.Ledger
import CodeShare.Server.Messages
import CodeShare.Server.ProblemSteps
import CodeShare.Server.Speakers

/-! # Revealed solutions

`solution:reveal` reads the room's problem before its look-up and never again, so what it shows is the
current problem's solution as long as no problem with another solution is put into the room meanwhile.
-/

namespace CodeShare
open Tasks
set_option autoImplicit false

/-- An empty text is no solution. -/
def Database.revealable (db : Database) (p : ProblemId) : Option JsString :=
  (db.solution p).filter fun solution => solution ≠ []

/-- The solution that a segment sends to the room. -/
def shows (cfg : Config) : ServerTrigger → Option JsString
  | .task (.revealing _ p) (.problem (some _)) => cfg.db.revealable p
  | _ => none

/-- What the reveal, if the task is one, would show is the solution of the problem. -/
def Task.RevealFor (db : Database) (p : Option ProblemId) : Task → Prop
  | revealing _ q => ∀ solution, db.revealable q = some solution → p.bind db.revealable = some solution
  | _ => True

/-- The problem whose solution the task reveals. -/
def Task.reveals : Task → Option ProblemId
  | revealing _ q => some q
  | _ => none

theorem Task.revealFor_iff (db : Database) (p : Option ProblemId) (t : Task) : t.RevealFor db p ↔
    ∀ q ∈ t.reveals, ∀ solution ∈ db.revealable q, p.bind db.revealable = some solution := by
  cases t <;> simp [Task.RevealFor, Task.reveals]

instance (db : Database) (p : Option ProblemId) (t : Task) : Decidable (t.RevealFor db p) :=
  decidable_of_iff _ (Task.revealFor_iff db p t).symm

/-- A problem is put into the room only while no solution of another text is about to be shown. -/
def LoadsBetweenReveals (db : Database) (c : ServerConf) (t : ServerTrigger) : Prop :=
  ∀ p ∈ loads t, ∀ task ∈ c.pool, task.RevealFor db (some p)

instance (db : Database) (c : ServerConf) (t : ServerTrigger) :
    Decidable (LoadsBetweenReveals db c t) :=
  inferInstanceAs (Decidable (∀ p ∈ loads t, ∀ task ∈ c.pool, task.RevealFor db (some p)))

/-- Every SOLUTION_REVEALED of the segment carries the solution of the room's problem. -/
def RevealsCurrent (db : Database) (turn : ServerTurn) : Prop :=
  ∀ k solution, .deliver k (.solutionRevealed solution) ∈ turn.out →
    ∃ p, turn.after.shared.room.problemId = some p ∧ db.solution p = some solution

variable {cfg : Config} {s : Server} {t : ServerTrigger} {o : Outcome} {g : Step} {socket : SocketId}
  {p : ProblemId} {solution : JsString}

/-! ## Revealing -/

theorem revealable_eq_some {db : Database} :
    db.revealable p = some solution ↔ db.solution p = some solution ∧ solution ≠ [] := by
  unfold Database.revealable
  rw [Option.filter_eq_some_iff, decide_eq_true_eq]

theorem not_mem_hintError (message : JsString) (k : SocketId) (solution : JsString) :
    .deliver k (.solutionRevealed solution) ∉
      ((Segment.of s).toSocket socket (.hintError message)).out := by
  intro hmem
  rw [← mem_messagesTo, messagesTo_toSocket] at hmem
  cases List.eq_of_mem_replicate hmem

/-- A reveal looks up the solution of the problem that is in the room. -/
theorem handleSolutionReveal_spec (s : Server) (socket : SocketId) :
    (∀ k solution, .deliver k (.solutionRevealed solution) ∉ (handleSolutionReveal s socket).out) ∧
      ∀ task ∈ (handleSolutionReveal s socket).next, ∀ db : Database,
        task.RevealFor db s.room.problemId := by
  unfold handleSolutionReveal Server.getRoom
  split
  · exact ⟨fun _ _ => List.not_mem_nil, fun _ => nofun⟩
  · rename_i room hroom
    obtain rfl : s.room = room := by
      split_ifs at hroom
      exact Option.some.inj hroom
    split_ifs
    · exact ⟨not_mem_hintError _, fun _ => nofun⟩
    · split
      · exact ⟨not_mem_hintError _, fun _ => nofun⟩
      · rename_i p hproblem
        refine ⟨fun _ _ => List.not_mem_nil, fun task hm db => ?_⟩
        rw [List.mem_singleton.mp hm, hproblem]
        exact fun solution hsolution => hsolution

/-- The end of a reveal changes nothing, and shows its solution to everyone in the room. -/
theorem afterRevealing_spec (h : afterRevealing cfg s socket p o = some g) :
    g.state = s ∧ g.next = [] ∧ ∀ k solution, .deliver k (.solutionRevealed solution) ∈ g.out ↔
      k ∈ s.joined ∧ shows cfg (.task (.revealing socket p) o) = some solution := by
  unfold afterRevealing at h
  split at h
  · rename_i problem
    have hshows : shows cfg (.task (.revealing socket p) (.problem (some problem))) =
        cfg.db.revealable p := rfl
    simp only [hshows, revealable_eq_some]
    split_ifs at h
    split at h
    · rename_i hnone
      cases h
      exact ⟨rfl, rfl, fun k solution => iff_of_false (not_mem_hintError _ k solution) (by simp [hnone])⟩
    · rename_i hempty
      cases h
      refine ⟨rfl, rfl, fun k solution => iff_of_false (not_mem_hintError _ k solution) ?_⟩
      rintro ⟨-, hsolution, hne⟩
      rw [hempty] at hsolution
      exact hne (Option.some.inj hsolution).symm
    · rename_i text hne hsolution
      cases h
      refine ⟨rfl, rfl, fun k solution => ?_⟩
      rw [hsolution, ← mem_messagesTo, messagesTo_toRoom, Segment.of_out, messagesTo_nil,
        List.nil_append, List.mem_replicate, Ne, List.count_eq_zero, not_not,
        Message.solutionRevealed.injEq, Option.some.injEq]
      refine and_congr_right' ⟨?_, fun h => h.1.symm⟩
      rintro rfl
      exact ⟨rfl, hne⟩
  · cases h
    exact ⟨rfl, rfl, fun k solution => iff_of_false (not_mem_hintError _ k solution) nofun⟩
  · cases h
    exact ⟨rfl, rfl, fun k solution => iff_of_false (not_mem_hintError _ k solution) nofun⟩
  · cases h

/-- A segment shows a solution exactly when a reveal ends with it, with somebody in the room. -/
theorem mem_revealed_iff (h : (server cfg).fire s t = some g) (k : SocketId) (solution : JsString) :
    .deliver k (.solutionRevealed solution) ∈ g.out ↔ k ∈ s.joined ∧ shows cfg t = some solution := by
  by_cases hf : triggerFamily t = .reveal
  · cases t with
    | event e => cases hf
    | task t o =>
      change resumeTask cfg s t o = some g at h
      cases t with
      | admitted socket event seen =>
        cases o <;> cases h
        refine iff_of_false ?_ nofun
        unfold runHandler
        split
        · exact List.not_mem_nil
        · cases event with
          | solutionReveal => exact (handleSolutionReveal_spec s socket).1 k solution
          | _ => cases hf
      | revealing socket p => exact (afterRevealing_spec h).2.2 k solution
      | _ => cases hf
  · refine iff_of_false (fun hmem => ?_) fun hshows => ?_
    · exact hf (List.mem_singleton.mp (fire_speaks h k _ hmem))
    · unfold shows at hshows
      split at hshows
      · exact hf rfl
      · cases hshows.2

/-- New reveals are of the problem in the room. -/
theorem next_revealFor (h : (server cfg).fire s t = some g) (db : Database) :
    ∀ task ∈ g.next, task.RevealFor db s.room.problemId := by
  intro task hm
  have hfamily := (fire_within h).next task hm
  cases task with
  | revealing socket' q =>
    cases t with
    | event e => cases hfamily
    | task t o =>
      change resumeTask cfg s t o = some g at h
      cases t with
      | admitted socket event seen =>
        cases o <;> cases h
        unfold runHandler at hm
        split at hm
        · cases hm
        · cases event with
          | solutionReveal => exact (handleSolutionReveal_spec s socket).2 _ hm db
          | _ => cases hfamily
      | revealing socket p =>
        rw [(afterRevealing_spec h).2.1] at hm
        cases hm
      | _ => cases hfamily
  | _ => trivial

/-! ## Runs -/

/-- Every suspended reveal would show the current problem's solution. -/
def RevealsFor (db : Database) (c : ServerConf) : Prop :=
  ∀ task ∈ c.pool, task.RevealFor db c.shared.room.problemId

theorem revealsFor_step {c c' : ServerConf} {out : List Effect} {rest : List Task}
    (h : RevealsFor cfg.db c) (hbetween : LoadsBetweenReveals cfg.db c t)
    (hby : (server cfg).StepBy c c' out t g rest) : RevealsFor cfg.db c' := by
  intro task hm
  rw [hby.shared]
  cases hload : loads t with
  | some p =>
    have hswitched := fire_switched hby.fire hload
    have hproblem : g.state.room.problemId = some p := by
      obtain ⟨hintLimit, importsUsed, hroom⟩ := hswitched.room
      rw [hroom]
      rfl
    rw [hproblem]
    rcases hby.mem_after hm with hm | hm
    · exact hbetween p hload task (hby.mem_of_rest hm)
    · rw [hswitched.next] at hm
      cases hm
  | none =>
    rw [fire_problemId hby.fire hload]
    rcases hby.mem_after hm with hm | hm
    · exact h task (hby.mem_of_rest hm)
    · exact next_revealFor hby.fire cfg.db task hm

theorem revealsCurrent_of_revealsFor {turn : ServerTurn} {rest : List Task}
    (h : RevealsFor cfg.db turn.before)
    (hby : (server cfg).StepBy turn.before turn.after turn.out turn.trigger g rest) :
    RevealsCurrent cfg.db turn := by
  obtain ⟨before, trigger, after, out⟩ := turn
  dsimp only at h hby
  intro k solution hmem
  change .deliver k (.solutionRevealed solution) ∈ out at hmem
  change ∃ p, after.shared.room.problemId = some p ∧ cfg.db.solution p = some solution
  rw [hby.out] at hmem
  have hshows := ((mem_revealed_iff hby.fire k solution).mp hmem).2
  unfold shows at hshows
  split at hshows
  · rename_i socket q problem
    have hfor := h (.revealing socket q) (hby.mem_of_taken List.mem_cons_self) solution hshows
    obtain ⟨p, hproblem, hp⟩ := Option.bind_eq_some_iff.mp hfor
    refine ⟨p, ?_, (revealable_eq_some.mp hp).1⟩
    rw [hby.shared, fire_problemId hby.fire rfl]
    exact hproblem
  · cases hshows

/-- A problem that is put into the room under a reveal of another solution: the reveal may end next. -/
theorem stale_reveal {c c' : ServerConf} {out : List Effect} {a : ServerAct}
    (ht : Machine.trigger c a = some t) (hs : (server cfg).step c a = some (c', out))
    (hroom : c.shared.joined ≠ []) (hbreaks : ¬ LoadsBetweenReveals cfg.db c t) :
    ∃ a' turn, (server cfg).history c' [a'] = [turn] ∧ ¬ RevealsCurrent cfg.db turn := by
  obtain ⟨t', g, ht', hby⟩ := Machine.step_by hs
  obtain rfl := Option.some.inj (ht.symm.trans ht')
  simp only [LoadsBetweenReveals, not_forall] at hbreaks
  obtain ⟨p, hload, task, hm, hfor⟩ := hbreaks
  cases task with
  | revealing socket q =>
    simp only [Task.RevealFor, not_forall] at hfor
    obtain ⟨solution, hsolution, hother⟩ := hfor
    obtain ⟨hq, hne⟩ := revealable_eq_some.mp hsolution
    obtain ⟨k, hk⟩ := List.exists_mem_of_ne_nil _ hroom
    -- the reveal is still suspended, and the sockets are where they were
    have hrest : .revealing socket q ∈ c'.pool := by
      rw [hby.after]
      refine List.mem_append_left _ ((List.mem_append.mp (hby.before.mem_iff.mpr hm)).resolve_left ?_)
      unfold loads at hload
      split at hload
      · exact fun htaken => nomatch List.mem_singleton.mp htaken
      · exact fun htaken => nomatch List.mem_singleton.mp htaken
      · cases hload
    have hjoined : c'.shared.joined = c.shared.joined := by
      have hwithin := fire_within hby.fire
      rw [triggerFamily_of_loads hload] at hwithin
      rw [hby.shared]
      exact hwithin.observe (·.joined) fun _ => rfl
    have hproblem : c'.shared.room.problemId = some p := by
      obtain ⟨hintLimit, importsUsed, hswitched⟩ := (fire_switched hby.fire hload).room
      rw [hby.shared, hswitched]
      rfl
    obtain ⟨position, hposition⟩ := List.mem_iff_getElem?.mp hrest
    have hfire : (server cfg).fire c'.shared
        (.task (.revealing socket q) (.problem (some (exampleProblem q)))) =
        some ((Segment.of c'.shared).toRoom (.solutionRevealed solution)) := by
      change afterRevealing cfg c'.shared socket q (.problem (some (exampleProblem q))) = _
      unfold afterRevealing
      have hid : (exampleProblem q).id = q := rfl
      dsimp only
      rw [if_neg (not_not.mpr hid), hq]
      cases solution with
      | nil => exact absurd rfl hne
      | cons => rfl
    have htrigger : Machine.trigger c'
        (.resume position (Outcome.problem (some (exampleProblem q))) : ServerAct) =
          some (.task (.revealing socket q) (.problem (some (exampleProblem q)))) := by
      rw [Machine.trigger, hposition]
      rfl
    have hstep := Machine.step_eq htrigger hfire
    refine ⟨_, _, Machine.history_cons htrigger hstep [], fun hcurrent => ?_⟩
    obtain ⟨p', hp', hsolution'⟩ := hcurrent k solution
      (((mem_revealed_iff hfire k solution).mpr ⟨by rw [hjoined]; exact hk, hsolution⟩))
    obtain rfl : p = p' := Option.some.inj (hproblem.symm.trans hp')
    exact hother (revealable_eq_some.mpr ⟨hsolution', hne⟩)
  | _ => exact absurd trivial hfor

/-! ## Runs -/

/-- **Revealed solutions are current** in runs that put a problem into the room only while no reveal of
another solution is suspended, and a run that does otherwise can go wrong in its next step. -/
theorem reveals_current {mode : RoomMode} {now : Time} {acts : List ServerAct} {c : ServerConf}
    {out : List Effect} (hreach : Reaches cfg mode now acts c out) :
    (Meeting cfg (LoadsBetweenReveals cfg.db) mode now acts →
      ∀ turn ∈ (server cfg).history (initial cfg mode now) acts, RevealsCurrent cfg.db turn) ∧
    ∀ a t c' out', Machine.trigger c a = some t → (server cfg).step c a = some (c', out') →
      c.shared.joined ≠ [] → ¬ LoadsBetweenReveals cfg.db c t →
      ∃ a' turn, (server cfg).history c' [a'] = [turn] ∧ ¬ RevealsCurrent cfg.db turn := by
  refine ⟨fun hmeets => ?_, fun a t c' out' => stale_reveal⟩
  have hturns := (Machine.meets_iff_history hreach).mp hmeets
  have hall := Machine.run_history_preserves
    (P := fun _ c t => LoadsBetweenReveals cfg.db c t)
    (I := fun past c => RevealsFor cfg.db c ∧ ∀ turn ∈ past, RevealsCurrent cfg.db turn)
    (fun past c c' out t g rest h hbetween hby => ⟨revealsFor_step h.1 hbetween hby,
      forall_mem_concat h.2 (@revealsCurrent_of_revealsFor cfg g ⟨c, t, c', out⟩ rest h.1 hby)⟩)
    ⟨fun _ hm => absurd hm List.not_mem_nil, fun _ hm => absurd hm List.not_mem_nil⟩
    (fun before turn later hsplit => hturns turn (by rw [hsplit]; simp)) hreach
  exact hall.2

/-- Two problems with a solution each. -/
def twoSolutions : Database := ⟨fun p => some (if p = 7 then js "hash map" else js "two pointers")⟩

/-- The interviewer selects problem 7 and asks for its solution. -/
def exampleReveal : List ServerAct :=
  exampleJoin 0 .go ++ exampleSelect 0 7 ++ [.event (.receive 0 .solutionReveal), .resume 0 .go]

/-- The look-up ends. -/
def exampleRevealed : List ServerAct :=
  exampleReveal ++ [.resume 0 (.problem (some (exampleProblem 7)))]

theorem reveals_current_example : ∃ c out,
    Reaches (exampleConfig twoSolutions) .interview 0 exampleRevealed c out ∧
    (messagesTo 0 out).getLast? = some (.solutionRevealed (js "hash map")) ∧
    ∀ turn ∈ (server (exampleConfig twoSolutions)).history
        (initial (exampleConfig twoSolutions) .interview 0) exampleRevealed,
      RevealsCurrent twoSolutions turn := by
  obtain ⟨c, out, hreach, hlast⟩ : ∃ c out,
      Reaches (exampleConfig twoSolutions) .interview 0 exampleRevealed c out ∧
      (messagesTo 0 out).getLast? = some (.solutionRevealed (js "hash map")) :=
    ⟨_, _, rfl, rfl⟩
  have hmeets : Meeting (exampleConfig twoSolutions) (LoadsBetweenReveals twoSolutions) .interview 0
      exampleRevealed := by
    unfold Meeting
    decide
  exact ⟨c, out, hreach, hlast, (reveals_current hreach).1 hmeets⟩

/-- Problem 8 is loaded while the solution of problem 7 is looked up. -/
def exampleStaleReveal : List ServerAct :=
  exampleReveal ++ [.event (.receive 0 (.problemSelect (some 8))), .resume 1 .go,
    .resume 1 (.detail (some (exampleDetail 8))), .resume 0 (.problem (some (exampleProblem 7)))]

theorem stale_solution_revealed : ∃ c out,
    Reaches (exampleConfig twoSolutions) .interview 0 exampleStaleReveal c out ∧
    c.shared.room.problemId = some 8 ∧
    (messagesTo 0 out).getLast? = some (.solutionRevealed (js "hash map")) ∧
    ¬ ∀ turn ∈ (server (exampleConfig twoSolutions)).history
        (initial (exampleConfig twoSolutions) .interview 0) exampleStaleReveal,
      RevealsCurrent twoSolutions turn := by
  obtain ⟨c, out, turn, hreach, hproblem, hlast, hturn, hafter, hout⟩ : ∃ c out turn,
      Reaches (exampleConfig twoSolutions) .interview 0 exampleStaleReveal c out ∧
      c.shared.room.problemId = some 8 ∧
      (messagesTo 0 out).getLast? = some (.solutionRevealed (js "hash map")) ∧
      ((server (exampleConfig twoSolutions)).history
        (initial (exampleConfig twoSolutions) .interview 0) exampleStaleReveal).getLast? = some turn ∧
      turn.after.shared.room.problemId = some 8 ∧
      turn.out = [.deliver 0 (.solutionRevealed (js "hash map"))] :=
    ⟨_, _, _, rfl, rfl, rfl, rfl, rfl, rfl⟩
  refine ⟨c, out, hreach, hproblem, hlast, fun hall => ?_⟩
  obtain ⟨p, hp, hsolution⟩ := hall turn (List.mem_of_getLast? hturn) 0 (js "hash map")
    (by rw [hout]; exact List.mem_cons_self)
  rw [hafter] at hp
  obtain rfl := Option.some.inj hp
  exact absurd hsolution (by decide)

end CodeShare
