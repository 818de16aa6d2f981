import CodeShare.Server.Announcements

/-! # Every segment announces what it does

The proof of `fire_announces`, handler by handler, and what follows for the sockets in the room.
-/

namespace CodeShare
open Tasks
set_option autoImplicit false

variable {cfg : Config} {s : Server} {t : ServerTrigger} {o : Outcome} {g : Step} {socket : SocketId}

/-! ## Problems and test cases -/

section Problems
variable {p : ProblemId} {url : JsString}

theorem handleProblemSelect_announces (s : Server) (socket : SocketId) (id : Option ProblemId) :
    Announces cfg s t (handleProblemSelect s socket id) := by
  unfold handleProblemSelect
  split
  · exact .of_silent rfl rfl
  · exact .of_toSocket (.of s) socket rfl rfl rfl
  · exact .of_silent rfl rfl

theorem loadProblemIntoRoom_messages (s : Server) (detail : ProblemDetail) (k : SocketId) :
    messagesTo k (loadProblemIntoRoom cfg (.of s) detail).out =
      List.replicate (s.joined.count k) (problemLoadedPayload cfg detail) := by
  unfold loadProblemIntoRoom
  dsimp only
  rw [messagesTo_toRoom, messagesTo_emit _ _ rfl]
  rfl

theorem afterSelecting_announces (h : afterSelecting cfg s socket p o = some g) :
    Announces cfg s (.task (.selecting socket p) o) g := by
  unfold afterSelecting at h
  split at h
  · rename_i detail
    split_ifs at h
    cases h
    refine .loaded detail [] rfl (List.forall_mem_nil _) rfl fun k => ?_
    rw [loadProblemIntoRoom_messages, List.flatMap_nil, List.append_nil]
  · cases h; exact .of_toSocket (.of s) socket rfl rfl rfl
  · cases h; exact .of_toSocket (.of s) socket rfl rfl rfl
  · cases h

theorem handleProblemImport_announces (s : Server) (socket : SocketId) (url : Option JsString) :
    Announces cfg s t (handleProblemImport cfg s socket url) := by
  unfold handleProblemImport
  split
  · exact .of_silent rfl rfl
  · split_ifs
    · exact .of_toSocket (.of s) socket rfl rfl rfl
    · split
      · exact .of_toSocket (.of s) socket rfl rfl rfl
      · exact .of_silent rfl rfl

theorem afterImportIpLimiter_announces (h : afterImportIpLimiter s socket url o = some g) :
    Announces cfg s t g := by
  unfold afterImportIpLimiter at h
  split at h
  · split_ifs at h <;> cases h
    · exact .of_toSocket (.of s) socket rfl rfl rfl
    · exact .of_silent rfl rfl
  · cases h; exact .of_toSocket (.of s) socket rfl rfl rfl
  · cases h; exact .of_state rfl fun _ => List.forall_mem_nil _
  · cases h

theorem afterImportQuota_announces (h : afterImportQuota cfg s socket url o = some g) :
    Announces cfg s t g := by
  unfold afterImportQuota at h
  split at h
  · dsimp only at h
    have hscraping : ∀ k, ∀ m ∈ messagesTo k
        ((Segment.of s : Step).toRoom (.problemImportStatus .scraping none none)).out,
        m.quiet = true := by
      intro k m hm
      rw [messagesTo_toRoom, Segment.of_out, messagesTo_nil, List.nil_append] at hm
      rw [List.eq_of_mem_replicate hm]
      rfl
    split_ifs at h <;> cases h
    · exact .of_state rfl hscraping
    · exact .of_state rfl hscraping
  · cases h; exact .of_toSocket (.of s) socket rfl rfl rfl
  · cases h; exact .of_state rfl fun _ => List.forall_mem_nil _
  · cases h

theorem afterImportLimiter_announces (h : afterImportLimiter s socket url o = some g) :
    Announces cfg s t g := by
  unfold afterImportLimiter at h
  split at h <;> cases h <;> exact .of_silent rfl rfl

theorem afterImportReserve_announces (h : afterImportReserve s socket url o = some g) :
    Announces cfg s t g := by
  unfold afterImportReserve at h
  split at h <;> cases h
  · exact .of_state rfl fun _ => List.forall_mem_nil _
  · exact .of_toSocket (.of s) socket rfl rfl rfl
  · exact .of_silent rfl rfl

theorem afterImportScrape_announces (h : afterImportScrape s socket o = some g) :
    Announces cfg s t g := by
  unfold afterImportScrape at h
  split at h <;> cases h <;> exact .of_silent rfl rfl

theorem afterImportFailure_announces (s : Server) (socket : SocketId) (reason : Failure) :
    Announces cfg s t (afterImportFailure s socket reason) := by
  cases reason with
  | capacity seconds => exact .of_toSocket (.of s) socket rfl rfl rfl
  | _ => exact .of_toRoom (.of s) rfl rfl rfl

theorem afterImportLoad_announces (h : afterImportLoad cfg s socket p o = some g) :
    Announces cfg s (.task (.importLoad socket p) o) g := by
  unfold afterImportLoad at h
  split at h
  · rename_i detail
    split_ifs at h
    cases h
    refine .loaded detail [.problemImportStatus .saved none none] rfl ?_ rfl fun k => ?_
    · rintro m hm
      rw [List.mem_singleton.mp hm]
      rfl
    · rw [messagesTo_toRoom, Segment.modifyRoom_out, loadProblemIntoRoom_messages,
        List.flatMap_singleton]
      rfl
  · cases h; exact afterImportFailure_announces s socket _
  · cases h; exact afterImportFailure_announces s socket _
  · cases h

theorem handleTestcaseAdd_announces (s : Server) (socket : SocketId) (data : Option CustomTestCase) :
    Announces cfg s t (handleTestcaseAdd s socket data) := by
  rcases handleTestcaseAdd_cases s socket data with ⟨-, heq⟩ | ⟨message, heq⟩ | ⟨testCase, p, -, heq⟩
  · rw [heq]
    exact .of_silent rfl rfl
  · rw [heq]
    exact .of_toSocket (.of s) socket rfl rfl rfl
  · rw [heq]
    exact .of_silent rfl rfl

theorem afterAddingTestCase_announces {testCase : CustomTestCase}
    (h : afterAddingTestCase s socket testCase p o = some g) : Announces cfg s t g := by
  rcases afterAddingTestCase_cases h with ⟨message, -, rfl⟩ | ⟨found, -, -, rfl⟩
  · exact .of_toSocket (.of s) socket rfl rfl rfl
  · exact .testCaseAdded ⟨testCase, p⟩ rfl fun k => messagesTo_toRoom _

/-- A refusal that is sent to one socket. -/
theorem hintError_announces {message : JsString} {s' : Server} (hview : s'.roomView = s.roomView)
    (hrefuses : refusesHint cfg s t = some socket) :
    Announces cfg s t ((Segment.of s').toSocket socket (.hintError message)) :=
  .hintRefused socket message hrefuses hview fun k => by
    rw [messagesTo_toSocket, Segment.of_out, messagesTo_nil, List.nil_append]
    have hlive : s'.live = s.live := congrArg RoomView.live hview
    rw [Segment.of_state, hlive]
    rfl

theorem handleSolutionReveal_announces {seen : Option SeenRequest} (hlive : socket ∈ s.live) :
    Announces cfg s (.task (.admitted socket .solutionReveal seen) .go)
      (handleSolutionReveal s socket) := by
  unfold handleSolutionReveal Server.getRoom
  split
  · exact .of_silent rfl rfl
  · rename_i room hroom
    split_ifs at hroom with hregistered
    obtain rfl := Option.some.inj hroom
    split_ifs with hmode
    · exact hintError_announces rfl (if_pos ⟨hlive, hregistered, .inl hmode⟩)
    · split
      · rename_i hproblem
        exact hintError_announces rfl (if_pos ⟨hlive, hregistered, .inr hproblem⟩)
      · exact .of_silent rfl rfl

theorem afterRevealing_announces (h : afterRevealing cfg s socket p o = some g) :
    Announces cfg s (.task (.revealing socket p) o) g := by
  unfold afterRevealing at h
  split at h
  · split_ifs at h
    split at h <;> cases h
    · rename_i hsolution
      refine hintError_announces rfl (if_neg ?_)
      simp [hsolution]
    · rename_i hsolution
      refine hintError_announces rfl (if_neg ?_)
      simp [hsolution]
    · exact .of_toRoom (.of s) rfl rfl rfl
  · cases h
    exact hintError_announces rfl (by simp [refusesHint])
  · cases h
    exact hintError_announces rfl rfl
  · cases h

end Problems

/-! ## Requests for hints -/

section Requests
variable {seen : Option SeenRequest}

theorem clearConsentTimer_roomView (s : Server) : s.clearConsentTimer.roomView = s.roomView := by
  unfold Server.clearConsentTimer Server.clearTimeout
  split <;> rfl

theorem sendPendingHintRequest_announces {f : SocketId → Option Time}
    (hrequests : requestsConsent cfg s t = s.room.users.find? fun u => u.socketId = some socket)
    (hpending : s.room.pendingHintRequest = none) :
    Announces cfg s t
      (sendPendingHintRequest cfg (.of { s with lastHintRequestTime := f }) socket) := by
  unfold sendPendingHintRequest
  dsimp only [Segment.of_state]
  split
  · exact .quiet rfl fun _ => List.forall_mem_nil _
  · rename_i requester hrequester
    have hsocket : requester.socketId = some socket := by simpa using List.find?_some hrequester
    rw [hrequester] at hrequests
    have hpartner : s.partner requester = (s.room.users.find? fun u =>
        u.connected && u.socketId ≠ some socket).bind fun u => u.socketId := by
      rw [Server.partner, hsocket]
    have hasked : ∀ {g : Step} (other : Option SocketId),
        (s.partner requester = other) →
        (g.state.roomView = { s.roomView with
          pendingHintRequest := some ⟨⟨requester.id, s.now⟩, s.nextRequest⟩ }) →
        (∀ k, messagesTo k g.out =
          List.replicate (s.joined.count k) (.roomSync g.state.room.toSyncPayload) ++
            other.toList.flatMap fun other => List.replicate (reaches s.live other k)
              (.hintPending requester.id requester.displayName s.room.hintsUsed s.room.hintLimit)) →
        Announces cfg s t g := by
      rintro g other rfl hview hout
      exact .hintAsked requester hrequests hpending hview hout
    have hsync : ∀ k, messagesTo k (Tasks.Segment.syncRoom (Tasks.Segment.modify (.of s : Step)
        fun s => { s with
          lastHintRequestTime := f
          room := { s.room with
            pendingHintRequest := some ⟨⟨requester.id, s.now⟩, s.nextRequest⟩ }
          nextRequest := s.nextRequest + 1 })).out =
        List.replicate (s.joined.count k) (.roomSync { s.room with
          pendingHintRequest := some ⟨⟨requester.id, s.now⟩, s.nextRequest⟩ }.toSyncPayload) :=
      fun k => messagesTo_syncRoom _
    split
    · rename_i hother
      refine hasked none ?_ rfl fun k => ?_
      · exact hpartner.trans (congrArg (fun found : Option RoomUserInternal =>
          found.bind fun u => u.socketId) hother)
      · rw [Option.toList_none, List.flatMap_nil, List.append_nil]
        exact hsync k
    · rename_i other hother
      split
      · rename_i hgone
        refine hasked none ?_ rfl fun k => ?_
        · exact hpartner.trans ((congrArg (fun found : Option RoomUserInternal =>
            found.bind fun u => u.socketId) hother).trans hgone)
        · rw [Option.toList_none, List.flatMap_nil, List.append_nil]
          exact hsync k
      · rename_i otherSocket hthere
        refine hasked (some otherSocket) ?_ ?_ fun k => ?_
        · exact hpartner.trans ((congrArg (fun found : Option RoomUserInternal =>
            found.bind fun u => u.socketId) hother).trans hthere)
        · exact clearConsentTimer_roomView _
        · have hroom : ∀ s' : Server, (startConsentTimer cfg s').room = s'.room := by
            intro s'
            exact clearConsentTimer_room s'
          rw [Option.toList_some, List.flatMap_singleton, Segment.modify_out, Segment.modify_state,
            hroom, messagesTo_toSocket]
          exact congrArg (· ++ _) (hsync k)

theorem handleHintRequest_announces (hlive : socket ∈ s.live) (hregistered : s.registered = true) :
    Announces cfg s (.task (.admitted socket .hintRequest seen) .go)
      (handleHintRequest cfg s socket) := by
  have hrefuses : (getHintRequestRejection cfg s socket).2 ≠ none →
      refusesHint cfg s (.task (.admitted socket .hintRequest seen) .go) = some socket :=
    fun hne => if_pos ⟨hlive, hregistered, hne⟩
  have hrequests : (getHintRequestRejection cfg s socket).2 = none →
      1 < s.room.connectedUserCount →
      requestsConsent cfg s (.task (.admitted socket .hintRequest seen) .go) =
        s.room.users.find? fun u => u.socketId = some socket :=
    fun hnone hcount => if_pos ⟨hlive, hregistered, hnone, hcount⟩
  obtain ⟨f, hf⟩ : ∃ f, (getHintRequestRejection cfg s socket).1 =
      { s with lastHintRequestTime := f } := by
    unfold getHintRequestRejection
    split_ifs
    · exact ⟨s.lastHintRequestTime, rfl⟩
    · exact ⟨_, rfl⟩
  have hfree : (getHintRequestRejection cfg s socket).2 = none →
      s.room.pendingHintRequest = none := by
    unfold getHintRequestRejection
    split_ifs
    · nofun
    · exact hintRequestRefusal_eq_none
  unfold handleHintRequest
  generalize getHintRequestRejection cfg s socket = r at hrefuses hrequests hf hfree
  obtain ⟨s', message⟩ := r
  obtain rfl : s' = { s with lastHintRequestTime := f } := hf
  cases message with
  | some message => exact hintError_announces rfl (hrefuses nofun)
  | none =>
    dsimp only
    split_ifs with hcount
    · exact .quiet rfl fun _ => List.forall_mem_nil _
    · exact sendPendingHintRequest_announces (hrequests rfl (not_le.mp hcount)) (hfree rfl)

/-- The request is dropped, and the requester may be told. -/
theorem hintAnswered_of {s' : Server} (hview : s'.roomView = s.roomView)
    (hanswers : answersRequest s t = true) (request : PendingRequest) :
    Announces cfg s t (denyPendingHintRequest (.of s') request) := by
  have hlive : s'.live = s.live := congrArg RoomView.live hview
  have hjoined : s'.joined = s.joined := congrArg RoomView.joined hview
  have hcleared : (clearPendingHintRequest (.of s')).state.roomView =
      { s.roomView with pendingHintRequest := none } := by
    rw [← hview]
    rfl
  have hsync : ∀ k, messagesTo k (clearPendingHintRequest (.of s')).out =
      List.replicate (s.joined.count k)
        (.roomSync (clearPendingHintRequest (.of s')).state.room.toSyncPayload) := by
    intro k
    rw [← hjoined]
    exact messagesTo_syncRoom _
  unfold denyPendingHintRequest
  dsimp only
  split
  · refine .hintAnswered none hanswers hcleared fun k => ?_
    rw [Option.toList_none, List.flatMap_nil, List.append_nil]
    exact hsync k
  · rename_i requester _
    refine .hintAnswered (some requester) hanswers hcleared fun k => ?_
    rw [Option.toList_some, List.flatMap_singleton, messagesTo_toSocket, hsync, ← hlive]
    rfl

theorem handleHintApprove_announces (hanswers : s.room.pendingHintRequest ≠ none →
    answersRequest s t = true) : Announces cfg s t (handleHintApprove s socket seen) := by
  unfold handleHintApprove
  split
  · exact .of_silent rfl rfl
  · rename_i request hpending
    refine .hintAnswered none (hanswers (by simp [hpending])) ?_ fun k => ?_
    · change { s.clearConsentTimer.roomView with pendingHintRequest := none } = _
      rw [clearConsentTimer_roomView]
    · have hjoined : s.clearConsentTimer.joined = s.joined :=
        congrArg RoomView.joined (clearConsentTimer_roomView s)
      rw [Option.toList_none, List.flatMap_nil, List.append_nil, ← hjoined]
      unfold deliverHint
      rw [Segment.suspend_out, messagesTo_emit _ _ rfl]
      exact messagesTo_syncRoom _

theorem handleHintDeny_announces (hanswers : s.room.pendingHintRequest ≠ none →
    answersRequest s t = true) : Announces cfg s t (handleHintDeny s) := by
  unfold handleHintDeny
  split
  · exact .of_silent rfl rfl
  · rename_i request hpending
    exact hintAnswered_of (clearConsentTimer_roomView s) (hanswers (by simp [hpending])) request

end Requests

/-! ## Deliveries of hints -/

section Deliveries
variable {d : Delivery} {prompt : HintPrompt}

theorem emitHintDelivered_messages (g : Step) (fullHint : JsString) (k : SocketId) :
    messagesTo k (emitHintDelivered g fullHint).out = messagesTo k g.out ++
      List.replicate (g.state.joined.count k)
        (.hintDone fullHint (g.state.room.hintLimit - g.state.room.hintsUsed : ℤ)) :=
  messagesTo_toRoom g

theorem prepareLLMHintRequest_announces :
    Announces cfg s (.task (.hintStored d) (.hint none)) (prepareLLMHintRequest cfg s d) := by
  unfold prepareLLMHintRequest
  split_ifs with hfallback hcalls
  · refine hintError_announces rfl (if_neg fun hboth => ?_)
    simp [hboth.1] at hfallback
  · exact hintError_announces rfl (if_neg fun hboth => absurd hboth.2 (not_lt.mpr hcalls))
  · exact .of_silent rfl rfl

theorem afterHintFailure_announces (reason : Failure) (hrefuses : refusesHint cfg s t = some d.socket) :
    Announces cfg s t (afterHintFailure s d reason) := by
  cases reason <;> exact hintError_announces rfl hrefuses

theorem afterStoredHint_announces (h : afterStoredHint cfg s d o = some g) :
    Announces cfg s (.task (.hintStored d) o) g := by
  unfold afterStoredHint at h
  split at h
  · rename_i hint
    split_ifs at h
    cases h
    refine .hintDelivered ⟨d, true, hint.problemId⟩ hint.hintText
      (s.room.hintLimit - (s.room.hintsUsed + 1 : ℕ) : ℤ) rfl rfl fun k => ?_
    unfold deliverStoredHint
    dsimp only
    rw [emitHintDelivered_messages, messagesTo_emit _ _ rfl]
    rfl
  · cases h; exact prepareLLMHintRequest_announces
  · cases h; exact afterHintFailure_announces _ rfl
  · cases h

theorem afterHintIpLimiter_announces (h : afterHintIpLimiter s d o = some g) :
    Announces cfg s (.task (.hintIpLimiter d) o) g := by
  unfold afterHintIpLimiter at h
  split at h <;> cases h
  · exact .of_silent rfl rfl
  · exact hintError_announces rfl rfl
  · exact .of_silent rfl rfl

theorem afterHintQuota_announces (h : afterHintQuota cfg s d o = some g) :
    Announces cfg s (.task (.hintQuota d) o) g := by
  unfold afterHintQuota at h
  split at h
  · split_ifs at h with hclient
    · cases h
      refine hintError_announces rfl (if_neg fun hboth => ?_)
      simp [hboth.2] at hclient
    · split at h <;> cases h
      exact .of_silent rfl rfl
  · cases h
    exact hintError_announces rfl (by simp [refusesHint])
  · cases h; exact .of_silent rfl rfl
  · cases h

theorem afterHintProblem_announces {p : ProblemId} (h : afterHintProblem cfg s d p o = some g) :
    Announces cfg s (.task (.hintProblem d p) o) g := by
  unfold afterHintProblem at h
  split at h
  · rename_i problem
    split_ifs at h with hid himported
    · cases h
      have hdisabled : cfg.enableImportedProblemHints = false := by simpa using himported.2
      exact hintError_announces rfl (by simp [refusesHint, himported.1, hdisabled])
    · cases h; exact .of_silent rfl rfl
    · cases h; exact .of_silent rfl rfl
  · cases h
    exact hintError_announces rfl rfl
  · cases h; exact .of_silent rfl rfl
  · cases h

theorem afterHintLimiter_announces (h : afterHintLimiter s d prompt o = some g) :
    Announces cfg s t g := by
  unfold afterHintLimiter at h
  split at h <;> cases h <;> exact .of_silent rfl rfl

theorem afterHintReserve_announces (h : afterHintReserve s d prompt o = some g) :
    Announces cfg s (.task (.hintReserve d prompt) o) g := by
  unfold afterHintReserve at h
  split at h <;> cases h
  · exact .quiet rfl fun _ => List.forall_mem_nil _
  · exact hintError_announces rfl rfl
  · exact .of_silent rfl rfl

/-- The end of a stream is announced before the flag is reset. -/
theorem failHintStream_announces (reason : Failure) (hrefuses : refusesHint cfg s t = some d.socket) :
    Announces cfg s t (failHintStream s d reason) := by
  refine .hintRefused d.socket (hintStreamFailureMessage reason) hrefuses rfl fun k => ?_
  unfold failHintStream endHintStream rejectHintRequest
  rw [Segment.modifyRoom_out, messagesTo_toSocket, Segment.of_out, messagesTo_nil, List.nil_append]
  rfl

theorem afterHintStream_announces {generated : JsString} {closing : Bool}
    (h : afterHintStream cfg s d prompt generated closing o = some g) :
    Announces cfg s (.task (.hintStream d prompt generated closing) o) g := by
  unfold afterHintStream at h
  split at h
  · split_ifs at h
    cases h
    refine .of_state rfl fun k m hm => ?_
    rw [Segment.suspend_out, messagesTo_toRoom, Segment.of_out, messagesTo_nil,
      List.nil_append] at hm
    rw [List.eq_of_mem_replicate hm]
    rfl
  · cases h
    unfold finishHintStream
    split
    · rename_i message hsanitized
      refine failHintStream_announces _ ?_
      simp only [refusesHint, hsanitized]
    · rename_i fullHint hsanitized
      refine .hintDelivered ⟨d, false, prompt.problemId⟩ fullHint
        (s.room.hintLimit - (s.room.hintsUsed + 1 : ℕ) : ℤ) ?_ rfl fun k => ?_
      · simp only [charges, hsanitized]
      · unfold endHintStream
        dsimp only
        rw [Segment.modifyRoom_out, emitHintDelivered_messages, messagesTo_emit _ _ rfl]
        rfl
  · cases h
    exact failHintStream_announces _ rfl
  · cases h

end Deliveries

/-! ## Joining -/

section Joining
variable {payload : UserJoinPayload} {user : RoomUserInternal} {announced : Option RoomUser}
  {users : List RoomUserInternal} {fresh : ℕ}

/-- The socket enters the room first; the messages and the hydration show the room as it is then. -/
theorem emitJoinedPayload_eq (s' : Server) (socket : SocketId) (user : RoomUserInternal)
    (announced : Option RoomUser) : ∃ s'' : Server,
      s''.roomView = { s'.roomView with
        joined := if socket ∈ s'.live ∧ socket ∉ s'.joined then s'.joined ++ [socket]
          else s'.joined } ∧
      s''.room = s'.room ∧
      emitJoinedPayload (.of s') socket user announced =
        (((Segment.of s'').toSocket socket (.userJoined user.id user.displayName user.role
          s''.room.mode (some user.reconnectToken) (some s''.room.yjsToken))).toSocket socket
            (.roomSync s''.room.toSyncPayload)).suspend
              (.hydrating socket s''.room.problemId announced) := by
  refine ⟨if socket ∈ s'.live ∧ socket ∉ s'.joined then
    { s' with joined := s'.joined ++ [socket] } else s', ?_, ?_, rfl⟩
  · split_ifs <;> rfl
  · split_ifs <;> rfl

theorem emitJoinedPayload_answers (s' : Server) (hanswering : answering s t = some socket)
    (hjoins : Joins s t socket user announced users fresh)
    (hview : s'.roomView = { s.roomView with users := users, fresh := fresh }) :
    AnswersJoin s t (emitJoinedPayload (.of s') socket user announced) socket user announced users
      fresh := by
  have hlive : s'.live = s.live := congrArg RoomView.live hview
  have hjoined : s'.joined = s.joined := congrArg RoomView.joined hview
  have hproblem : s'.room.problemId = s.room.problemId := congrArg RoomView.problemId hview
  obtain ⟨s'', hview'', hroom, heq⟩ := emitJoinedPayload_eq s' socket user announced
  have hlive'' : s''.live = s.live := (congrArg RoomView.live hview'').trans hlive
  rw [heq]
  refine ⟨hanswering, hjoins, ?_, ?_, fun k => ?_⟩
  · rw [← hproblem, ← hroom]
    rfl
  · rw [← hlive, ← hjoined]
    refine hview''.trans ?_
    rw [hview]
  · rw [Segment.suspend_out, messagesTo_toSocket, messagesTo_toSocket, joinMessages,
      List.flatMap_cons, List.flatMap_singleton, ← hlive'']
    rfl

/-- A join that is not turned away is answered. -/
theorem takeSeat_answers (socket : SocketId) (hseats : s.room.seats payload = true) :
    ∃ user announced users fresh,
      AnswersJoin s (.task (.joinLimiter socket payload) .allowed) (takeSeat s socket payload) socket
        user announced users fresh := by
  have hanswering : answering s (.task (.joinLimiter socket payload) .allowed) = some socket :=
    if_pos hseats
  unfold takeSeat
  cases hexisting : reconnectingUser s.room payload.reconnectToken with
  | some existing =>
    exact ⟨_, _, _, _, emitJoinedPayload_answers (reconnectUser s existing.id socket) hanswering
      (.reconnect payload existing _ rfl hexisting rfl) rfl⟩
  | none =>
    have hroom : s.room.isFull = false := by simpa [Room.seats, hexisting] using hseats
    dsimp only
    rw [if_neg (by simp [hroom])]
    exact ⟨_, _, _, _, emitJoinedPayload_answers (addUser s payload.displayName socket) hanswering
      (.add payload rfl hexisting hroom) rfl⟩

theorem handleUserJoin_next (s : Server) (socket : SocketId) (data : Option UserJoinPayload) :
    ((handleUserJoin s socket data).state = s ∧
      (∀ k, ∀ m ∈ messagesTo k (handleUserJoin s socket data).out, m.quiet = true) ∧
      ∀ j p announced, .hydrating j p announced ∉ (handleUserJoin s socket data).next) ∨
    ∃ user, s.registered = true ∧ data.isSome = true ∧ s.room.findBySocketId socket = some user ∧
      handleUserJoin s socket data = emitJoinedPayload (.of s) socket user none := by
  have hrejected : ∀ reason, ∀ k, ∀ m ∈ messagesTo k
      (emitJoinRejected (.of s) socket reason none).out, m.quiet = true := by
    intro reason k m hm
    unfold emitJoinRejected at hm
    rw [messagesTo_toSocket, Segment.of_out, messagesTo_nil, List.nil_append] at hm
    rw [List.eq_of_mem_replicate hm]
    rfl
  unfold handleUserJoin Server.getRoom
  split
  · exact .inl ⟨rfl, hrejected _, by simp [emitJoinRejected]⟩
  · split
    · exact .inl ⟨rfl, hrejected _, by simp [emitJoinRejected]⟩
    · rename_i room hroom
      split_ifs at hroom with hregistered
      obtain rfl := Option.some.inj hroom
      split
      · rename_i user huser
        exact .inr ⟨user, hregistered, rfl, huser, rfl⟩
      · exact .inl ⟨rfl, fun _ => List.forall_mem_nil _, by simp⟩

/-- A repeated join is answered at once. -/
theorem handleUserJoin_answers {data : Option UserJoinPayload} (seen : Option SeenRequest)
    (hlive : socket ∈ s.live) (hregistered : s.registered = true) (hdata : data.isSome = true)
    (huser : s.room.findBySocketId socket = some user) :
    AnswersJoin s (.task (.admitted socket (.userJoin data) seen) .go)
      (emitJoinedPayload (.of s) socket user none) socket user none s.room.users s.fresh := by
  refine emitJoinedPayload_answers s ?_ (.again user rfl huser) rfl
  cases data with
  | none => cases hdata
  | some payload => exact if_pos ⟨hlive, hregistered, by rw [huser]; rfl⟩

theorem handleUserJoin_announces {seen : Option SeenRequest} (hlive : socket ∈ s.live)
    (data : Option UserJoinPayload) :
    Announces cfg s (.task (.admitted socket (.userJoin data) seen) .go)
      (handleUserJoin s socket data) := by
  rcases handleUserJoin_next s socket data with
    ⟨hstate, hout, -⟩ | ⟨user, hregistered, hdata, huser, heq⟩
  · exact .of_state hstate hout
  · rw [heq]
    exact .joined socket user none s.room.users s.fresh
      (handleUserJoin_answers seen hlive hregistered hdata huser)

theorem afterHydration_ends {p : Option ProblemId}
    (h : afterHydration cfg s socket p announced o = some g) :
    EndsHydration cfg s (.task (.hydrating socket p announced) o) g socket p announced := by
  have hpresence : ∀ g : Step, g.state = s → ∀ k,
      messagesTo k (emitPresenceBroadcast g socket announced).out = messagesTo k g.out ++
        announced.toList.flatMap fun user =>
          List.replicate ((s.joined.filter (· ≠ socket)).count k)
            (.userJoined user.id user.displayName user.role s.room.mode none none) := by
    rintro g rfl k
    cases announced with
    | none => exact (List.append_nil _).symm
    | some user =>
      rw [Option.toList_some, List.flatMap_singleton]
      exact messagesTo_toOthers g
  have hquiet : ∀ o, rehydrates (.task (.hydrating socket p announced) o) = none → ∀ g : Step,
      g = emitPresenceBroadcast (.of s) socket announced →
      EndsHydration cfg s (.task (.hydrating socket p announced) o) g socket p announced := by
    rintro o hnone g rfl
    refine ⟨rfl, ?_, ?_, fun k => ?_⟩
    · rw [hnone]
      nofun
    · rw [emitPresenceBroadcast_state]
      rfl
    · rw [hnone, hpresence _ rfl]
      rfl
  unfold afterHydration at h
  split at h
  · split_ifs at h
    cases h
    exact hquiet _ rfl _ rfl
  · rename_i detail
    split_ifs at h with hp
    cases h
    refine ⟨rfl, ?_, ?_, fun k => ?_⟩
    · rintro _ _ ⟨⟩
      exact ⟨rfl, hp⟩
    · rw [emitPresenceBroadcast_state]
      rfl
    · rw [hpresence _ rfl, messagesTo_toSocket]
      simp only [rehydrates, Option.toList_some, List.flatMap_singleton]
      rfl
  · split_ifs at h
    cases h
    exact hquiet _ rfl _ rfl
  · split_ifs at h
    cases h
    exact hquiet _ rfl _ rfl
  · cases h

end Joining

/-! ## Leaving -/

section Leaving

/-- The user of the socket is marked, and the others are told. -/
theorem handleDisconnect_spec (g : Step) (socket : SocketId) :
    (handleDisconnect g socket).state.roomView =
      { g.state.roomView with users := g.state.leave socket } ∧
    (handleDisconnect g socket).state.registered = g.state.registered ∧
    ∀ k, messagesTo k (handleDisconnect g socket).out = messagesTo k g.out ++
      (g.state.leaver socket).toList.flatMap fun user =>
        List.replicate ((g.state.joined.filter (· ≠ socket)).count k) (.userLeft user.id) := by
  unfold handleDisconnect Server.leave Server.leaver
  cases hregistered : g.state.registered with
  | false =>
    simp only [Bool.not_false, if_true, Bool.false_eq_true, if_false, Option.toList_none,
      List.flatMap_nil, List.append_nil]
    exact ⟨rfl, hregistered, fun _ => trivial⟩
  | true =>
    simp only [Bool.not_true, Bool.false_eq_true, if_false, if_true]
    generalize g.state.room.findBySocketId socket = found
    cases found with
    | none => exact ⟨rfl, hregistered, fun _ => (List.append_nil _).symm⟩
    | some user =>
      refine ⟨rfl, hregistered, fun k => ?_⟩
      rw [Option.toList_some, List.flatMap_singleton]
      exact messagesTo_toOthers _

/-- The requester of the pending request has left. -/
def requesterGone (s : Server) : Bool :=
  s.room.pendingHintRequest.any fun request =>
    (s.room.findUser request.requestedBy).any fun u => !u.connected

theorem handleRequesterDisconnect_spec (g : Step) :
    (handleRequesterDisconnect g).state.roomView =
      { g.state.roomView with
        pendingHintRequest := if requesterGone g.state then none
          else g.state.room.pendingHintRequest } ∧
    ∀ k, messagesTo k (handleRequesterDisconnect g).out = messagesTo k g.out ++
      if requesterGone g.state then List.replicate (g.state.joined.count k)
        (.roomSync (handleRequesterDisconnect g).state.room.toSyncPayload) else [] := by
  have hstays : requesterGone g.state = false → handleRequesterDisconnect g = g →
      (handleRequesterDisconnect g).state.roomView =
        { g.state.roomView with
          pendingHintRequest := if requesterGone g.state then none
            else g.state.room.pendingHintRequest } ∧
      ∀ k, messagesTo k (handleRequesterDisconnect g).out = messagesTo k g.out ++
        if requesterGone g.state then List.replicate (g.state.joined.count k)
          (.roomSync (handleRequesterDisconnect g).state.room.toSyncPayload) else [] := by
    intro hgone heq
    rw [heq, hgone]
    exact ⟨rfl, fun k => (List.append_nil _).symm⟩
  cases hpending : g.state.room.pendingHintRequest with
  | none =>
    refine hpending ▸ hstays ?_ ?_
    · simp [requesterGone, hpending]
    · simp [handleRequesterDisconnect, hpending]
  | some request =>
    cases hfind : g.state.room.findUser request.requestedBy with
    | none =>
      refine hpending ▸ hstays ?_ ?_
      · simp [requesterGone, hpending, hfind]
      · simp [handleRequesterDisconnect, hpending, hfind]
    | some requester =>
      cases hconnected : requester.connected with
      | true =>
        refine hpending ▸ hstays ?_ ?_
        · simp [requesterGone, hpending, hfind, hconnected]
        · simp [handleRequesterDisconnect, hpending, hfind, hconnected]
      | false =>
        have hgone : requesterGone g.state = true := by
          simp [requesterGone, hpending, hfind, hconnected]
        have heq : handleRequesterDisconnect g =
            clearPendingHintRequest (g.modify Server.clearConsentTimer) := by
          simp [handleRequesterDisconnect, hpending, hfind, hconnected]
        have hview := clearConsentTimer_roomView g.state
        rw [heq, hgone, if_pos rfl]
        refine ⟨?_, fun k => ?_⟩
        · exact congrArg (fun v : RoomView => { v with pendingHintRequest := none }) hview
        · have hjoined : g.state.clearConsentTimer.joined = g.state.joined :=
            congrArg RoomView.joined hview
          rw [if_pos rfl, ← hjoined]
          exact messagesTo_syncRoom _

/-- A socket that is open ends, behind some messages that say nothing about the room. -/
theorem disconnectSocket_announces (hcloses : closes s t = some socket) (hlive : socket ∈ s.live)
    (hstate : g.state = s) (hquiet : ∀ k, ∀ m ∈ messagesTo k g.out, m.quiet = true) :
    Announces cfg s t (disconnectSocket g socket) := by
  subst hstate
  obtain ⟨hview, hregistered, hout⟩ := handleDisconnect_spec (g.modify fun s => { s with
    live := s.live.filter (· ≠ socket)
    joined := s.joined.filter (· ≠ socket) }) socket
  have hfilter : (g.state.joined.filter (· ≠ socket)).filter (· ≠ socket) =
      g.state.joined.filter (· ≠ socket) := by
    rw [List.filter_filter]
    simp only [Bool.and_self]
  rw [Segment.modify_state] at hview hregistered hout
  dsimp only at hview hregistered hout
  rw [hfilter] at hout
  unfold disconnectSocket
  rw [if_neg (not_not.mpr hlive)]
  dsimp only
  generalize handleDisconnect (g.modify fun s => { s with
    live := s.live.filter (· ≠ socket)
    joined := s.joined.filter (· ≠ socket) }) socket = g' at hview hregistered hout ⊢
  have husers : g'.state.room.users = g.state.leave socket := congrArg RoomView.users hview
  have hpending : g'.state.room.pendingHintRequest = g.state.room.pendingHintRequest :=
    congrArg RoomView.pendingHintRequest hview
  have hjoined : g'.state.joined = g.state.joined.filter (· ≠ socket) :=
    congrArg RoomView.joined hview
  have hdrops : g.state.dropsRequest socket = (g.state.registered && requesterGone g'.state) := by
    unfold Server.dropsRequest requesterGone Room.findUser
    rw [husers, hpending]
  split_ifs with hr
  · obtain ⟨hview', hout'⟩ := handleRequesterDisconnect_spec g'
    have hdrops' : g.state.dropsRequest socket = requesterGone g'.state := by
      rw [hdrops, ← hregistered, hr, Bool.true_and]
    refine .closed socket (fun k => messagesTo k g.out) hcloses hlive hquiet ?_ fun k => ?_
    · rw [hview', hview, hpending, hdrops']
      rfl
    · rw [hout' k, hout k, hjoined, hdrops']
      rfl
  · have hdrops' : g.state.dropsRequest socket = false := by
      have hr' : g'.state.registered = false := by simpa using hr
      rw [hdrops, ← hregistered, hr', Bool.false_and]
    refine .closed socket (fun k => messagesTo k g.out) hcloses hlive hquiet ?_ fun k => ?_
    · rw [hview, hdrops']
      rfl
    · rw [hout k, hdrops', if_neg Bool.false_ne_true, List.append_nil]
      rfl

theorem destroyRoom_roomView (s : Server) : (destroyRoom s).roomView = s.roomView := by
  unfold destroyRoom
  split_ifs <;> rfl

theorem handleGraceTimeout_announces {userId : UserId} {s' : Server} (hview : s'.roomView = s.roomView)
    (hexpels : (s.room.findUser userId).any (fun u => !u.connected && u.socketId = none) = true →
      expels s t = some userId) : Announces cfg s t (handleGraceTimeout s' userId) := by
  have husers : s'.room.users = s.room.users := congrArg RoomView.users hview
  have hfresh : s'.fresh = s.fresh := congrArg RoomView.fresh hview
  have hjoined : s'.joined = s.joined := congrArg RoomView.joined hview
  unfold handleGraceTimeout removeDisconnectedUser
  split
  · exact .quiet hview fun _ => List.forall_mem_nil _
  · rename_i user hfind
    have hfind' : s.room.findUser userId = some user := by
      rw [← hfind]
      exact congrArg (List.find? fun u => u.id = userId) husers.symm
    dsimp only
    split_ifs with hbound hleft
    · exact .quiet hview fun _ => List.forall_mem_nil _
    all_goals
      have hexpelled : expels s t = some userId := by
        refine hexpels ?_
        rw [hfind', Option.any_some]
        simpa using hbound
    · refine .removed userId true hexpelled ?_ fun k => ?_
      · rw [if_pos rfl, if_pos rfl, ← husers, ← hfresh]
        exact congrArg (fun v : RoomView => { v with
          users := s'.room.users.filter (·.id ≠ userId), yjsToken := s'.fresh
          fresh := s'.fresh + 1 }) hview
      · rw [if_pos rfl, ← hjoined, ← hfresh]
        exact messagesTo_toRoom _
    · refine .removed userId false hexpelled ?_ fun k => rfl
      rw [if_neg Bool.false_ne_true, if_neg Bool.false_ne_true, ← husers]
      refine (destroyRoom_roomView _).trans ?_
      exact congrArg (fun v : RoomView => { v with
        users := s'.room.users.filter (·.id ≠ userId) }) hview

theorem handleTimeout_announces {id : TimerId} {timer : Timer}
    (hfind : s.timers.find? (fun timer => timer.id = id) = some timer) :
    Announces cfg s (.event (.timeout id)) (handleTimeout s timer) := by
  unfold handleTimeout
  dsimp only
  split
  · rename_i userId hkind
    refine handleGraceTimeout_announces rfl fun hgone => ?_
    obtain ⟨timerId, due, kind⟩ := timer
    obtain rfl : kind = .grace userId := hkind
    simp only [expels, hfind]
    exact if_pos hgone
  · rename_i hkind
    unfold handleConsentTimeout
    dsimp only
    split
    · exact .quiet rfl fun _ => List.forall_mem_nil _
    · rename_i request hpending
      have hpending' : s.room.pendingHintRequest = some request := hpending
      have hanswers : answersRequest s (.event (.timeout id)) = true := by
        simp [answersRequest, hfind, hpending', hkind]
      have hview : { s.clearTimeout timer.id with consentTimer := none }.roomView = s.roomView := rfl
      exact hintAnswered_of hview hanswers request

end Leaving

/-! ## Every segment -/

theorem authMiddleware_quiet (s : Server) (socket : SocketId) (event : ClientEvent) (k : SocketId) :
    ∀ m ∈ messagesTo k (authMiddleware s socket event).out, m.quiet = true := by
  unfold authMiddleware
  split
  · exact List.forall_mem_nil _
  · split
    · exact List.forall_mem_nil _
    · split
      · exact List.forall_mem_nil _
      · split
        · intro m hm
          rw [messagesTo_toSocket, Segment.of_out, messagesTo_nil, List.nil_append] at hm
          rw [List.eq_of_mem_replicate hm]
          rfl
        · exact List.forall_mem_nil _

theorem handleEvent_announces {e : ServerEvent} (h : handleEvent cfg s e = some g) :
    Announces cfg s (.event e) g := by
  unfold handleEvent at h
  split at h
  · cases h; exact .connected rfl fun _ => rfl
  · split_ifs at h
    cases h
    exact .of_state (authMiddleware_state s _ _) (authMiddleware_quiet s _ _)
  · split_ifs at h
    cases h
    exact .of_toSocket (.of s) _ rfl rfl rfl
  · split_ifs at h with hlive
    cases h
    exact disconnectSocket_announces (s := s) (g := .of s) rfl hlive rfl fun _ => List.forall_mem_nil _
  · split at h
    · cases h
    · rename_i timer hfind
      split_ifs at h
      cases h
      exact handleTimeout_announces hfind
  · split_ifs at h
    cases h
    refine .quiet ?_ fun _ => List.forall_mem_nil _
    unfold destroyIdleRoom
    rw [Segment.of_state]
    split_ifs
    · rfl
    · exact destroyRoom_roomView s
  · cases h; exact .quiet rfl fun _ => List.forall_mem_nil _
  · cases h; exact .quiet rfl fun _ => List.forall_mem_nil _

theorem afterJoinLimiter_announces {payload : UserJoinPayload}
    (h : afterJoinLimiter s socket payload o = some g) :
    Announces cfg s (.task (.joinLimiter socket payload) o) g := by
  unfold afterJoinLimiter at h
  split at h <;> cases h
  · cases hseats : s.room.seats payload with
    | true =>
      obtain ⟨user, announced, users, fresh, hanswers⟩ := takeSeat_answers socket hseats
      exact .joined socket user announced users fresh hanswers
    | false =>
      obtain ⟨hnew, hfull⟩ : reconnectingUser s.room payload.reconnectToken = none ∧
          s.room.isFull = true := by
        simpa [Room.seats] using hseats
      have heq : takeSeat s socket payload =
          disconnectSocket ((Segment.of s).toSocket socket .roomFull) socket := by
        unfold takeSeat
        rw [hnew]
        exact if_pos hfull
      have hfullSocket : ∀ k, ∀ m ∈ messagesTo k ((Segment.of s : Step).toSocket socket .roomFull).out,
          m.quiet = true := by
        intro k m hm
        rw [messagesTo_toSocket, Segment.of_out, messagesTo_nil, List.nil_append] at hm
        rw [List.eq_of_mem_replicate hm]
        rfl
      rw [heq]
      by_cases hlive : socket ∈ s.live
      · refine disconnectSocket_announces ?_ hlive rfl hfullSocket
        exact if_neg (by rw [hseats]; exact Bool.false_ne_true)
      · refine .of_state ?_ fun k => ?_
        · unfold disconnectSocket
          exact congrArg Segment.state (if_pos hlive)
        · have hclosed : disconnectSocket ((Segment.of s).toSocket socket .roomFull) socket =
              (Segment.of s).toSocket socket .roomFull := by
            unfold disconnectSocket
            exact if_pos hlive
          rw [hclosed]
          exact hfullSocket k
  · exact .of_toSocket (.of s) socket rfl rfl rfl
  · exact .of_state rfl fun _ => List.forall_mem_nil _

/-- The flag and the count are all that an execution handler touches of what is shown. -/
theorem execution_roomView (h : (server cfg).fire s t = some g) (hf : triggerFamily t = .execution) :
    ∃ flag used, g.state.roomView =
      { s.roomView with executionInProgress := flag, submissionsUsed := used } := by
  have hview : { g.state.roomView with executionInProgress := false, submissionsUsed := 0 } =
      { s.roomView with executionInProgress := false, submissionsUsed := 0 } := by
    have hwithin := fire_within h
    rw [hf] at hwithin
    exact hwithin.observe (fun s : Server =>
      { s.roomView with executionInProgress := false, submissionsUsed := 0 }) fun _ => rfl
  refine ⟨g.state.room.executionInProgress, g.state.room.submissionsUsed, ?_⟩
  exact congrArg (fun v : RoomView => { v with
    executionInProgress := g.state.room.executionInProgress
    submissionsUsed := g.state.room.submissionsUsed }) hview

/-- **Announcements.** Every segment of the server shows the sockets one of the steps listed. -/
theorem fire_announces (h : (server cfg).fire s t = some g) : Announces cfg s t g := by
  by_cases hf : triggerFamily t = .execution
  · exact .replies (fire_replies h hf) (execution_roomView h hf)
  cases t with
  | event e => exact handleEvent_announces h
  | task t o =>
    change resumeTask cfg s t o = some g at h
    cases t with
    | admitted socket event seen =>
      cases o <;> cases h
      unfold runHandler
      split
      · exact .of_silent rfl rfl
      · rename_i hlive
        rw [not_not] at hlive
        cases event with
        | userJoin payload => exact handleUserJoin_announces hlive payload
        | problemSelect id => exact handleProblemSelect_announces s socket id
        | problemImport url => exact handleProblemImport_announces s socket url
        | codeRun => exact absurd rfl hf
        | codeSubmit => exact absurd rfl hf
        | hintRequest =>
          dsimp only
          split_ifs with hregistered
          · exact handleHintRequest_announces hlive hregistered
          · exact .of_silent rfl rfl
        | hintApprove =>
          dsimp only
          split_ifs with hregistered
          · refine handleHintApprove_announces fun hpending => ?_
            simp [answersRequest, hlive, hregistered, Option.isSome_iff_ne_none.mpr hpending]
          · exact .of_silent rfl rfl
        | hintDeny =>
          dsimp only
          split_ifs with hregistered
          · refine handleHintDeny_announces fun hpending => ?_
            simp [answersRequest, hlive, hregistered, Option.isSome_iff_ne_none.mpr hpending]
          · exact .of_silent rfl rfl
        | solutionReveal => exact handleSolutionReveal_announces hlive
        | testcaseAdd testCase => exact handleTestcaseAdd_announces s socket testCase
    | joinLimiter => exact afterJoinLimiter_announces h
    | hydrating socket p announced => exact .hydrated socket p announced (afterHydration_ends h)
    | hintStored => exact afterStoredHint_announces h
    | hintIpLimiter => exact afterHintIpLimiter_announces h
    | hintQuota => exact afterHintQuota_announces h
    | hintProblem => exact afterHintProblem_announces h
    | hintLimiter => exact afterHintLimiter_announces h
    | hintReserve => exact afterHintReserve_announces h
    | hintStream => exact afterHintStream_announces h
    | hintFailing d reason =>
      cases o <;> cases h
      exact afterHintFailure_announces reason rfl
    | selecting => exact afterSelecting_announces h
    | importIpLimiter => exact afterImportIpLimiter_announces h
    | importQuota => exact afterImportQuota_announces h
    | importLimiter => exact afterImportLimiter_announces h
    | importReserve => exact afterImportReserve_announces h
    | importScrape => exact afterImportScrape_announces h
    | importLoad => exact afterImportLoad_announces h
    | importFailing socket reason =>
      cases o <;> cases h
      exact afterImportFailure_announces s socket reason
    | addingTestCase => exact afterAddingTestCase_announces h
    | revealing => exact afterRevealing_announces h
    | _ => exact absurd rfl hf

end CodeShare
