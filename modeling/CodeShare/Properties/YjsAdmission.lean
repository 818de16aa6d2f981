import CodeShare.Ws.ServerSteps

/-! # The handler of a Yjs connection

A connection is closed or joins the document of a room whose token its URL has. The handler ends in this
way exactly for the URLs whose last path segment is percent-encoded UTF-8: of the others
`decodeURIComponent` throws, and nothing catches it.
-/

namespace CodeShare.Ws
open Tasks
set_option autoImplicit false

/-- The segment that becomes the room name can be decoded, if there is one. -/
def WellFormedPath (url : Option JsString) : Prop :=
  ∀ text segment, url = some text → lastSegment text = some segment → PercentEncoded segment

theorem extractRoomName_isSome_iff (toLowerCase : JsString → JsString) (url : Option JsString) :
    (extractRoomName toLowerCase url).isSome ↔ WellFormedPath url := by
  cases url with
  | none => exact iff_of_true rfl nofun
  | some text =>
    cases hsegment : lastSegment text with
    | none =>
      refine iff_of_true ?_ fun text' segment htext hsome => ?_
      · simp only [extractRoomName, hsegment, Option.isSome_some]
      · obtain rfl := Option.some.inj htext
        rw [hsegment] at hsome
        cases hsome
    | some segment =>
      simp only [extractRoomName, hsegment, normalizeRoomName]
      rw [Option.isSome_map, decodeURIComponent_isSome_iff]
      constructor
      · intro h text' segment' htext hsome
        obtain rfl := Option.some.inj htext
        obtain rfl := Option.some.inj (hsegment.symm.trans hsome)
        exact h
      · exact fun h => h text segment rfl hsegment

section
variable {Document Awareness Payload : Type} (cfg : YjsServerConfig Document Awareness Payload)

/-- The connection whose handler runs in a segment. -/
def handledRequest : YjsTrigger cfg → Option (ConnId × YjsRequest)
  | .event (.connection conn request) => some (conn, request)
  | .task (.validateConnection opened) _ => some (opened.conn, opened.request)
  | _ => none

/-- The connection is now one of the document of a room that is there, and the token of this room is the
one in the URL. -/
def JoinsRoom (before after : YjsServer Document Awareness) (conn : ConnId) (request : YjsRequest) : Prop :=
  ∃ roomCode yjsToken d, before.rooms.find? (·.1 = roomCode) = some (roomCode, yjsToken) ∧
    extractToken request.url = some yjsToken ∧ after.findSharedDoc roomCode = some d ∧
    (after.heap d).has conn = true

/-- No exception: the handler waits for the access check, or it has ended with the connection closed or in
its room. -/
structure HandlerEnds (turn : YjsTurn cfg) (conn : ConnId) (request : YjsRequest) : Prop where
  quiet : .unhandledRejection ∉ turn.out
  ends : (∃ opened : Opened cfg.toLowerCase, turn.trigger = .event (.connection conn request) ∧
      cfg.accessService = true ∧ opened.conn = conn ∧ opened.request = request ∧
      .validateConnection opened ∈ turn.after.pool) ∨
    (turn.after.shared.sockets conn).alive = false ∨
    JoinsRoom turn.before.shared turn.after.shared conn request

/-! ## Joining -/

theorem has_register (doc : WSSharedDoc Document Awareness) (conn : ConnId) :
    (doc.register conn).has conn = true := by
  unfold WSSharedDoc.register
  split_ifs with hhas
  · obtain ⟨c, hc, hconn⟩ := List.any_eq_true.mp hhas
    refine List.any_eq_true.mpr ⟨_, List.mem_map_of_mem hc, ?_⟩
    rw [if_pos (by simpa using hconn)]
    exact decide_eq_true rfl
  · exact List.any_eq_true.mpr ⟨_, List.mem_append_right _ (List.mem_singleton_self _), decide_eq_true rfl⟩

/-- A socket that has been accepted does not throw when it is sent to. -/
theorem trySend_ok {w : Hub Document Awareness Payload} {conn : ConnId}
    (hsends : (w.sockets conn).sendThrows = false) (hstate : (w.sockets conn).readyState ≠ .connecting)
    (hquiet : .unhandledRejection ∉ w.out) (message : Message Payload) :
    ∃ w', w.trySend conn message = .ok w' ∧ w'.doc = w.doc ∧ w'.sockets = w.sockets ∧
      .unhandledRejection ∉ w'.out := by
  have hthrows : ¬ ((w.sockets conn).sendThrows = true ∨ (w.sockets conn).readyState = .connecting) := by
    rw [hsends]
    rintro (h | h)
    · cases h
    · exact hstate h
  unfold Hub.trySend Hub.send
  rw [if_neg hthrows]
  split_ifs
  · refine ⟨_, rfl, rfl, rfl, fun hmem => ?_⟩
    rcases List.mem_append.mp hmem with hmem | hmem
    · exact hquiet hmem
    · cases List.mem_singleton.mp hmem
  · exact ⟨w, rfl, rfl, rfl, hquiet⟩

theorem setupWSConnection_ok (yjs : Yjs Document Awareness Payload) {w : Hub Document Awareness Payload}
    {conn : ConnId} (hsends : (w.sockets conn).sendThrows = false)
    (hstate : (w.sockets conn).readyState ≠ .connecting) (hquiet : .unhandledRejection ∉ w.out) :
    ∃ w', setupWSConnection yjs conn w = .ok w' ∧ w'.doc.has conn = true ∧
      .unhandledRejection ∉ w'.out := by
  obtain ⟨joined, hjoined, hdoc, hsockets, hout⟩ :=
    trySend_ok (w := { w with doc := w.doc.register conn }) hsends hstate hquiet
      (.syncStep1 (yjs.encodeStateVector w.doc.document))
  have hhas : joined.doc.has conn = true := by
    rw [hdoc]
    exact has_register w.doc conn
  unfold setupWSConnection
  rw [hjoined]
  dsimp only
  unfold sendAwarenessStates
  dsimp only
  split_ifs
  · exact ⟨joined, rfl, hhas, hout⟩
  · obtain ⟨w', hsent, hdoc', -, hout'⟩ := trySend_ok (w := joined) (by rw [hsockets]; exact hsends)
      (by rw [hsockets]; exact hstate) hout
      (awarenessMessage yjs joined.doc.awareness (yjs.getStates joined.doc.awareness))
    exact ⟨w', hsent, by rw [hdoc']; exact hhas, hout'⟩

theorem findSharedDoc_getOrCreate (s : YjsServer Document Awareness) (name : JsString) :
    (s.getOrCreateSharedDoc cfg name).1.findSharedDoc name =
      some (s.getOrCreateSharedDoc cfg name).2 := by
  unfold YjsServer.getOrCreateSharedDoc
  cases hfound : s.findSharedDoc name with
  | some d => exact hfound
  | none =>
    have hnone := Option.map_eq_none_iff.mp hfound
    unfold YjsServer.findSharedDoc
    dsimp only
    rw [List.find?_append, hnone, Option.none_or, List.find?_cons_of_pos (by simp)]
    rfl

theorem getOrCreateSharedDoc_sockets (s : YjsServer Document Awareness) (name : JsString) :
    (s.getOrCreateSharedDoc cfg name).1.sockets = s.sockets := by
  unfold YjsServer.getOrCreateSharedDoc
  split <;> rfl

/-- The name of a room that is looked up is the code under which it is found. -/
theorem roomName_normalized (opened : Opened cfg.toLowerCase) :
    normalizeRoomCode cfg.toLowerCase opened.roomName = opened.roomName := by
  have hdefault : normalizeRoomCode cfg.toLowerCase (js "default") = js "default" := by
    have htrim : jsTrim (js "default") = js "default" := by decide
    unfold normalizeRoomCode
    rw [htrim]
    exact cfg.lowerCase _ (by decide)
  have hextracted := opened.extracted
  cases hurl : opened.request.url with
  | none =>
    rw [hurl] at hextracted
    rw [← Option.some.inj hextracted]
    exact hdefault
  | some text =>
    rw [hurl] at hextracted
    cases hsegment : lastSegment text with
    | none =>
      simp only [extractRoomName, hsegment, Option.some.injEq] at hextracted
      rw [← hextracted]
      exact hdefault
    | some segment =>
      simp only [extractRoomName, hsegment] at hextracted
      obtain ⟨decoded, -, hname⟩ := Option.map_eq_some_iff.mp hextracted
      rw [← hname]
      exact cfg.normalized decoded

theorem closeSocket_alive (s : YjsServer Document Awareness) (conn : ConnId) (frame : CloseFrame) :
    ((s.closeSocket cfg conn frame).state.sockets conn).alive = false := by
  unfold YjsServer.closeSocket
  split_ifs with halive
  · change (Function.update s.sockets conn _ conn).alive = false
    rw [Function.update_self]
    rfl
  · exact Bool.eq_false_iff.mpr halive

theorem closeSocket_quiet (s : YjsServer Document Awareness) (conn : ConnId) (frame : CloseFrame) :
    .unhandledRejection ∉ (s.closeSocket cfg conn frame).out := by
  unfold YjsServer.closeSocket
  split_ifs
  · intro hmem
    cases List.mem_singleton.mp hmem
  · exact List.not_mem_nil

section
variable {s : YjsServer Document Awareness} {opened : Opened cfg.toLowerCase}
  (hsends : (s.sockets opened.conn).sendThrows = false)
  (hstate : (s.sockets opened.conn).readyState ≠ .connecting)
include hsends hstate

theorem register_ends {yjsToken : JsString}
    (hroom : s.rooms.find? (·.1 = opened.roomName) = some (opened.roomName, yjsToken))
    (htoken : extractToken opened.request.url = some yjsToken) :
    .unhandledRejection ∉ (register cfg s opened).out ∧
      JoinsRoom s (register cfg s opened).state opened.conn opened.request := by
  have hfound := findSharedDoc_getOrCreate cfg s opened.roomName
  have hsockets := getOrCreateSharedDoc_sockets cfg s opened.roomName
  unfold register
  generalize s.getOrCreateSharedDoc cfg opened.roomName = created at hfound hsockets
  obtain ⟨s', d⟩ := created
  dsimp only at hfound hsockets ⊢
  rw [← hsockets] at hsends hstate
  obtain ⟨w, hsetup, hhas, hquiet⟩ := setupWSConnection_ok cfg.yjs
    (w := YjsServer.hub { s' with joined := Function.update s'.joined opened.conn (some d) } d)
    hsends hstate List.not_mem_nil
  rw [hsetup]
  refine ⟨hquiet, opened.roomName, yjsToken, d, hroom, htoken, hfound, ?_⟩
  change (Function.update s'.heap d w.doc d).has opened.conn = true
  rw [Function.update_self]
  exact hhas

theorem admitConnection_ends : .unhandledRejection ∉ (admitConnection cfg s opened).out ∧
    (((admitConnection cfg s opened).state.sockets opened.conn).alive = false ∨
      JoinsRoom s (admitConnection cfg s opened).state opened.conn opened.request) := by
  have hclosed : ∀ frame, .unhandledRejection ∉ (s.closeSocket cfg opened.conn frame).out ∧
      (((s.closeSocket cfg opened.conn frame).state.sockets opened.conn).alive = false ∨
        JoinsRoom s (s.closeSocket cfg opened.conn frame).state opened.conn opened.request) :=
    fun frame => ⟨closeSocket_quiet cfg s _ frame, .inl (closeSocket_alive cfg s _ frame)⟩
  unfold admitConnection
  split_ifs
  · exact hclosed forbidden
  · split
    · rename_i yjsToken token hroom htoken
      split_ifs with hrejected
      · exact hclosed unauthorized
      · obtain ⟨-, hsame⟩ := not_or.mp hrejected
        obtain rfl := not_not.mp hsame
        unfold YjsServer.getRoom at hroom
        rw [roomName_normalized] at hroom
        obtain ⟨⟨roomCode, yjsToken⟩, hfind, rfl⟩ := Option.map_eq_some_iff.mp hroom
        have hcode : roomCode = opened.roomName := by simpa using List.find?_some hfind
        subst hcode
        obtain ⟨hquiet, hjoins⟩ := register_ends cfg hsends hstate hfind htoken
        exact ⟨hquiet, .inr hjoins⟩
    · exact hclosed unauthorized

end

/-! ## Connections whose handler has started -/

/-- No socket throws, and a handler waits for accepted connections only. -/
structure Accepted (c : YjsConf cfg) : Prop where
  sends : ∀ conn, (c.shared.sockets conn).sendThrows = false
  waiting : ∀ opened : Opened cfg.toLowerCase, .validateConnection opened ∈ c.pool →
    (c.shared.sockets opened.conn).readyState ≠ .connecting

/-- Sockets that throw no more than before, and are accepted if they were. -/
def StayAccepted (before sockets : ConnId → Socket) : Prop :=
  ∀ conn, (sockets conn).sendThrows = (before conn).sendThrows ∧
    ((before conn).readyState ≠ .connecting → (sockets conn).readyState ≠ .connecting)

theorem StayAccepted.update {before sockets : ConnId → Socket} (h : StayAccepted before sockets)
    (conn : ConnId) {state : ReadyState} (hstate : state ≠ .connecting) :
    StayAccepted before
      (Function.update sockets conn { sockets conn with readyState := state }) := by
  intro conn'
  by_cases hconn : conn' = conn
  · subst hconn
    rw [Function.update_self]
    exact ⟨(h conn').1, fun _ => hstate⟩
  · rw [Function.update_of_ne hconn]
    exact h conn'

theorem permits_stayAccepted (before : ConnId → Socket) :
    Permits fun (sockets : ConnId → Socket) (_ : List (WsEffect Payload)) => StayAccepted before sockets where
  sent _ _ _ _ h := h
  closed _ _ conn _ _ h := h.update conn nofun
  moved _ _ conn _ hstate h := h.update conn hstate
  rejected _ _ h := h

theorem fire_stayAccepted {s : YjsServer Document Awareness} {t : YjsTrigger cfg} {g : YjsStep cfg}
    (h : (yjsServer cfg).fire s t = some g) : StayAccepted s.sockets g.state.sockets := by
  have hI : Permits fun sockets (_ : List (WsEffect Payload)) => StayAccepted s.sockets sockets :=
    permits_stayAccepted s.sockets
  refine hI.fire cfg (fun conn => ⟨rfl, fun h => h⟩) h fun conn _ _ w _ _ _ _ hw => ?_
  refine hI.stable.closeConn cfg.yjs (fun w hw => ?_) hw
  unfold Hub.close
  split_ifs
  · exact StayAccepted.update hw conn nofun
  · exact hw

theorem setReadyState_readyState (s : YjsServer Document Awareness) (conn : ConnId) (state : ReadyState) :
    ((s.setReadyState conn state).sockets conn).readyState = state := by
  change (Function.update s.sockets conn _ conn).readyState = state
  rw [Function.update_self]

/-- A handler starts to wait for a connection that it has been given. -/
theorem fire_waits {s : YjsServer Document Awareness} {t : YjsTrigger cfg} {g : YjsStep cfg}
    (h : (yjsServer cfg).fire s t = some g) {opened : Opened cfg.toLowerCase}
    (hnext : .validateConnection opened ∈ g.next) :
    (g.state.sockets opened.conn).readyState ≠ .connecting := by
  cases fire_next cfg h with
  | none hnone =>
    rw [hnone] at hnext
    cases hnext
  | connection opened' ht hg =>
    rw [hg] at hnext ⊢
    cases List.mem_singleton.mp hnext
    change ((s.setReadyState opened.conn .open).sockets opened.conn).readyState ≠ .connecting
    rw [setReadyState_readyState]
    decide
  | message conn size message ht hg =>
    rw [hg] at hnext
    cases List.mem_singleton.mp hnext
  | access conn ht hg =>
    rw [hg] at hnext
    cases List.mem_singleton.mp hnext

theorem accepted_step {c c' : YjsConf cfg} {out : List (WsEffect Payload)} {t : YjsTrigger cfg}
    {g : YjsStep cfg} {rest : List (YjsTask cfg.toLowerCase Payload)} (h : Accepted cfg c)
    (hby : (yjsServer cfg).StepBy c c' out t g rest) : Accepted cfg c' := by
  have hstay := fire_stayAccepted cfg hby.fire
  constructor
  · intro conn
    rw [hby.shared, (hstay conn).1]
    exact h.sends conn
  · intro opened hmem
    rw [hby.shared]
    rcases hby.mem_after hmem with hrest | hnew
    · exact (hstay opened.conn).2 (h.waiting opened (hby.mem_of_rest hrest))
    · exact fire_waits cfg hby.fire hnew

theorem accepted_initial : Accepted cfg (initialYjs cfg) where
  sends _ := rfl
  waiting _ := nofun

/-- The URL of the connection whose handler starts, if one does. -/
def StartsWellFormed (t : YjsTrigger cfg) : Prop :=
  ∀ event, t = .event event → ∀ conn request, event = .connection conn request →
    WellFormedPath request.url

theorem JoinsRoom.of_rooms {before before' after : YjsServer Document Awareness} {conn : ConnId}
    {request : YjsRequest} (hrooms : before'.rooms = before.rooms)
    (h : JoinsRoom before' after conn request) : JoinsRoom before after conn request := by
  obtain ⟨roomCode, yjsToken, d, hfind, hjoined⟩ := h
  rw [hrooms] at hfind
  exact ⟨roomCode, yjsToken, d, hfind, hjoined⟩

/-- A connection that has just been given to its handler. -/
theorem connection_ends {before after : YjsConf cfg} {conn : ConnId} {request : YjsRequest}
    {out : List (WsEffect Payload)} {g : YjsStep cfg} {rest : List (YjsTask cfg.toLowerCase Payload)}
    (haccepted : Accepted cfg before)
    (hby : (yjsServer cfg).StepBy before after out (.event (.connection conn request)) g rest) :
    HandlerEnds cfg ⟨before, .event (.connection conn request), after, out⟩ conn request ↔
      WellFormedPath request.url := by
  have hg : onConnection cfg before.shared conn request = g := by
    cases fire_cases hby.fire
    rfl
  rw [← extractRoomName_isSome_iff cfg.toLowerCase]
  obtain ⟨hname, hthrows⟩ | ⟨opened, rfl, rfl, hopened⟩ := onConnection_cases cfg before.shared conn request
  · rw [hname]
    refine iff_of_false (fun h => h.quiet ?_) Bool.false_ne_true
    rw [hby.out, ← hg, hthrows]
    exact List.mem_singleton_self _
  · refine iff_of_true ?_ (by rw [opened.extracted]; rfl)
    rw [hg] at hopened
    split_ifs at hopened with haccess
    · refine ⟨?_, .inl ⟨opened, rfl, haccess, rfl, rfl, ?_⟩⟩
      · rw [hby.out, hopened]
        exact List.not_mem_nil
      · rw [hby.after, hopened]
        exact List.mem_append_right _ (List.mem_singleton_self _)
    · have hsends : ((before.shared.setReadyState opened.conn .open).sockets opened.conn).sendThrows =
          false := by
        change (Function.update before.shared.sockets opened.conn _ opened.conn).sendThrows = false
        rw [Function.update_self]
        exact haccepted.sends opened.conn
      have hstate : ((before.shared.setReadyState opened.conn .open).sockets opened.conn).readyState ≠
          .connecting := by
        rw [setReadyState_readyState]
        decide
      obtain ⟨hquiet, hends⟩ := admitConnection_ends cfg hsends hstate
      rw [← hopened] at hquiet hends
      refine ⟨?_, .inr ?_⟩
      · rw [hby.out]
        exact hquiet
      · rw [hby.shared]
        exact hends.imp_right fun hjoins => hjoins.of_rooms rfl

/-- A handler that goes on behind the access check. -/
theorem validated_ends {before after : YjsConf cfg} {opened : Opened cfg.toLowerCase}
    {outcome : Validation} {out : List (WsEffect Payload)} {g : YjsStep cfg}
    {rest : List (YjsTask cfg.toLowerCase Payload)} (haccepted : Accepted cfg before)
    (hby : (yjsServer cfg).StepBy before after out (.task (.validateConnection opened) outcome) g rest) :
    HandlerEnds cfg ⟨before, .task (.validateConnection opened) outcome, after, out⟩ opened.conn
      opened.request := by
  have hwaiting := haccepted.waiting opened (hby.mem_of_taken (List.mem_singleton_self _))
  have hends : .unhandledRejection ∉ g.out ∧ ((g.state.sockets opened.conn).alive = false ∨
      JoinsRoom before.shared g.state opened.conn opened.request) := by
    cases fire_cases hby.fire with
    | admits => exact admitConnection_ends cfg (haccepted.sends opened.conn) hwaiting
    | denies => exact ⟨closeSocket_quiet cfg _ _ _, .inl (closeSocket_alive cfg _ _ _)⟩
  refine ⟨?_, .inr ?_⟩
  · rw [hby.out]
    exact hends.1
  · rw [hby.shared]
    exact hends.2

theorem handlerEnds_iff (turn : YjsTurn cfg) (g : YjsStep cfg)
    (rest : List (YjsTask cfg.toLowerCase Payload)) (haccepted : Accepted cfg turn.before)
    (hby : (yjsServer cfg).StepBy turn.before turn.after turn.out turn.trigger g rest) :
    (∀ conn request, handledRequest cfg turn.trigger = some (conn, request) →
      HandlerEnds cfg turn conn request) ↔ StartsWellFormed cfg turn.trigger := by
  obtain ⟨before, trigger, after, out⟩ := turn
  dsimp only at haccepted hby ⊢
  cases trigger with
  | event event =>
    cases event with
    | connection conn request =>
      constructor
      · intro hends event hevent conn' request' hconnection
        cases hevent
        cases hconnection
        exact (connection_ends cfg haccepted hby).mp (hends conn request rfl)
      · intro hformed conn' request' hhandled
        cases hhandled
        exact (connection_ends cfg haccepted hby).mpr (hformed _ rfl conn request rfl)
    | _ =>
      refine iff_of_true nofun ?_
      intro event hevent conn request hconnection
      cases hevent
      cases hconnection
  | task task outcome =>
    refine iff_of_true ?_ nofun
    intro conn request hhandled
    cases task with
    | validateConnection opened =>
      cases hhandled
      exact validated_ends cfg haccepted hby
    | validateMessage => cases hhandled
    | revalidateAccess => cases hhandled

/-- The handlers end as they should exactly in the runs whose connections have URLs that can be decoded. -/
theorem handlers_end_iff {acts : List (YjsAct Payload)} {c : YjsConf cfg} {out : List (WsEffect Payload)}
    (hrun : (yjsServer cfg).run (initialYjs cfg) acts = some (c, out)) :
    (∀ turn ∈ (yjsServer cfg).history (initialYjs cfg) acts, ∀ conn request,
      handledRequest cfg turn.trigger = some (conn, request) → HandlerEnds cfg turn conn request) ↔
    ∀ conn request, .event (.connection conn request) ∈ acts → WellFormedPath request.url := by
  have haccepted := Machine.meets_of_invariant (fun _ _ _ _ _ _ h hby => accepted_step cfg h hby)
    (accepted_initial cfg) acts
  have hhistory := Machine.forall_history_iff_meets (P := fun _ t => StartsWellFormed cfg t)
    (fun turn g rest h hby => handlerEnds_iff cfg turn g rest h hby) haccepted hrun
  have hevents := Machine.meets_event_iff (p := fun event => ∀ conn request,
    event = YjsEvent.connection conn request → WellFormedPath request.url) hrun
  refine hhistory.trans (hevents.trans ⟨fun h conn request hmem => h _ hmem conn request rfl, ?_⟩)
  rintro h event hmem conn request rfl
  exact h conn request hmem

end

theorem handlers_end_iff_example : ∃ c out,
    (yjsServer plainYjsConfig).run (initialYjs plainYjsConfig)
      [.event (.createRoom (js "abc-xyz") (js "secret")), exampleConnection 0] = some (c, out) ∧
    (c.shared.heap 0).has 0 = true ∧
    ((∀ turn ∈ (yjsServer plainYjsConfig).history (initialYjs plainYjsConfig)
        [.event (.createRoom (js "abc-xyz") (js "secret")), exampleConnection 0],
        ∀ conn request, handledRequest plainYjsConfig turn.trigger = some (conn, request) →
          HandlerEnds plainYjsConfig turn conn request) ↔
      ∀ conn request, .event (.connection conn request) ∈
        ([.event (.createRoom (js "abc-xyz") (js "secret")), exampleConnection 0] : List (YjsAct ℕ)) →
        WellFormedPath request.url) := by
  have hfinal : ((yjsServer plainYjsConfig).run (initialYjs plainYjsConfig)
      [.event (.createRoom (js "abc-xyz") (js "secret")), exampleConnection 0]).map
      (fun r => (r.1.shared.heap 0).has 0) = some true := by decide +kernel
  obtain ⟨⟨c, out⟩, hrun, hjoined⟩ := Option.map_eq_some_iff.mp hfinal
  exact ⟨c, out, hrun, hjoined, handlers_end_iff plainYjsConfig hrun⟩

/-- A request whose path ends in a percent sign: neither closed nor in a room. -/
def strayConnection : List (YjsAct ℕ) := [.event (.connection 0 ⟨some (js "/ws/yjs/%"), none⟩)]

theorem stray_connection_throws : ∃ c out,
    (yjsServer plainYjsConfig).run (initialYjs plainYjsConfig) strayConnection = some (c, out) ∧
    out = [.unhandledRejection] ∧ (c.shared.sockets 0).alive = true ∧
    ¬ ∀ turn ∈ (yjsServer plainYjsConfig).history (initialYjs plainYjsConfig) strayConnection,
      ∀ conn request, handledRequest plainYjsConfig turn.trigger = some (conn, request) →
        HandlerEnds plainYjsConfig turn conn request := by
  have hfinal : ((yjsServer plainYjsConfig).run (initialYjs plainYjsConfig) strayConnection).map
      (fun r => (r.2, (r.1.shared.sockets 0).alive)) = some ([.unhandledRejection], true) := by
    decide +kernel
  obtain ⟨⟨c, out⟩, hrun, hresult⟩ := Option.map_eq_some_iff.mp hfinal
  obtain ⟨rfl, halive⟩ := Prod.mk.inj hresult
  refine ⟨c, _, hrun, rfl, halive, fun hends => ?_⟩
  obtain ⟨c₁, out₁, out₂, hs, hr, hout⟩ := Machine.run_cons hrun
  obtain ⟨t, g, ht, -⟩ := Machine.step_by hs
  cases ht
  cases hr
  rw [List.append_nil] at hout
  rw [strayConnection, Machine.history_cons rfl hs, ← hout] at hends
  exact (hends _ List.mem_cons_self _ _ rfl).quiet (List.mem_singleton_self _)

end CodeShare.Ws
