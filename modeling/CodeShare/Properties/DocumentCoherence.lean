import CodeShare.Ws.Registrations

/-! # The registry and the rooms

The documents of the registry have the names of rooms that are there, and a connection that has been let
into a room is, as long as its websocket is open, one of those of the document under the code of this room,
the only one in which it is. Behind the end of a room none of its connections is in the registry.
-/

namespace CodeShare.Ws
open Tasks
set_option autoImplicit false

section
variable {Document Awareness Payload : Type} (cfg : YjsServerConfig Document Awareness Payload)

/-- A segment of the run has let the connection into the room. -/
def Admitted (past : List (YjsTurn cfg)) (conn : ConnId) (roomName : JsString) : Prop :=
  ∃ turn ∈ past, ∃ opened, Handled cfg opened turn.trigger ∧ Passes cfg turn.before.shared opened ∧
    opened.conn = conn ∧ opened.roomName = roomName

/-- The name of the document that a connection has joined. -/
def roomOf (s : YjsServer Document Awareness) (conn : ConnId) : Option JsString :=
  (s.joined conn).map fun d => (s.heap d).name

/-- The registry, the rooms, the websockets and the documents agree. -/
structure Coherent (s : YjsServer Document Awareness) : Prop where
  named : ∀ x ∈ s.docs, (s.heap x.2).name = x.1
  roomed : ∀ x ∈ s.docs, ∃ yjsToken, (x.1, yjsToken) ∈ s.rooms
  registered : ∀ d conn, (s.heap d).has conn = true →
    s.joined conn = some d ∧ ((s.heap d).name, d) ∈ s.docs
  present : ∀ conn d, s.joined conn = some d → (s.sockets conn).alive = true →
    (s.heap d).has conn = true
  connecting : ∀ conn, (s.sockets conn).readyState = .connecting → s.joined conn = none

theorem initial_coherent : Coherent (initialYjs cfg).shared where
  named := nofun
  roomed := nofun
  registered _ _ hhas := by cases hhas
  present := nofun
  connecting _ _ := rfl

/-! ## Segments that let nobody in -/

section
variable {s s' : YjsServer Document Awareness}

theorem Coherent.retains {written : Option DocId} (h : Coherent s) (hretains : Retains written s s')
    (hroomed : ∀ x ∈ s'.docs, ∃ yjsToken, (x.1, yjsToken) ∈ s'.rooms)
    (haccepted : StayAccepted s.sockets s'.sockets) : Coherent s' where
  named x hx := (hretains.names x.2).trans (h.named x (hretains.docs.subset hx))
  roomed := hroomed
  registered d conn hhas := by
    obtain ⟨hjoined, hdoc⟩ := h.registered d conn (hretains.conns d conn hhas)
    rw [hretains.joined, hretains.names]
    refine ⟨hjoined, ?_⟩
    by_contra hgone
    rw [hretains.emptied _ hdoc hgone conn] at hhas
    cases hhas
  present conn d hjoined halive := by
    obtain ⟨hbefore, hhas⟩ := hretains.held conn halive
    rw [hretains.joined] at hjoined
    exact hhas d (h.present conn d hjoined hbefore)
  connecting conn hstate := by
    rw [hretains.joined]
    apply h.connecting
    by_contra hne
    exact (haccepted conn).2 hne hstate

theorem Retains.roomOf {written : Option DocId} (hretains : Retains written s s') (conn : ConnId) :
    roomOf s' conn = roomOf s conn := by
  unfold Ws.roomOf
  rw [hretains.joined]
  congr 1
  funext d
  exact hretains.names d

theorem mem_rotateToken {roomCode roomCode' yjsToken yjsToken' : JsString}
    (h : (roomCode, yjsToken) ∈ s.rooms) :
    ∃ token, (roomCode, token) ∈ (rotateToken s roomCode' yjsToken').rooms := by
  by_cases hcode : roomCode = roomCode'
  · exact ⟨yjsToken', List.mem_map.mpr ⟨_, h, by rw [if_pos hcode, hcode]⟩⟩
  · exact ⟨yjsToken, List.mem_map.mpr ⟨_, h, if_neg hcode⟩⟩

theorem mem_createRoom {roomCode roomCode' yjsToken yjsToken' : JsString}
    (h : (roomCode, yjsToken) ∈ s.rooms) :
    ∃ token, (roomCode, token) ∈ (createRoom s roomCode' yjsToken').rooms := by
  unfold createRoom
  split_ifs
  · exact mem_rotateToken h
  · exact ⟨yjsToken, List.mem_append_left _ h⟩

/-- The document of a room leaves the registry with it. -/
theorem destroyRoom_docs (hnumbered : Numbered s) (roomCode : JsString) :
    ∀ x ∈ (destroyRoom cfg s roomCode).state.docs, x ∈ s.docs ∧
      (x.1 = normalizeRoomCode cfg.toLowerCase roomCode → ∀ yjsToken, (x.1, yjsToken) ∉ s.rooms) := by
  unfold destroyRoom
  dsimp only
  intro x hx
  split_ifs at hx with hany
  · obtain ⟨hretains, hother⟩ : Retains none s
          (s.destroySharedDoc cfg (normalizeRoomCode cfg.toLowerCase roomCode)).state ∧ _ :=
      Retains.destroySharedDoc cfg hnumbered.names _
    exact ⟨hretains.docs.subset hx, fun hcode => absurd hcode (hother x hx)⟩
  · refine ⟨hx, fun hcode yjsToken hmem => hany ?_⟩
    rw [← hcode]
    exact List.any_eq_true.mpr ⟨_, hmem, decide_eq_true rfl⟩

theorem destroyRoom_rooms (roomCode : JsString) {code yjsToken : JsString}
    (h : (code, yjsToken) ∈ (destroyRoom cfg s roomCode).state.rooms) :
    code ≠ normalizeRoomCode cfg.toLowerCase roomCode ∧ (code, yjsToken) ∈ s.rooms := by
  unfold destroyRoom at h
  dsimp only at h
  split_ifs at h with hany
  · change _ ∈ List.filter _ (s.destroySharedDoc cfg _).state.rooms at h
    rw [destroySharedDoc_rooms] at h
    obtain ⟨hmem, hother⟩ := List.mem_filter.mp h
    exact ⟨of_decide_eq_true hother, hmem⟩
  · refine ⟨fun hcode => hany ?_, h⟩
    exact List.any_eq_true.mpr ⟨_, h, decide_eq_true hcode⟩

theorem mem_destroyRoom {roomCode code yjsToken : JsString} (h : (code, yjsToken) ∈ s.rooms)
    (hother : code ≠ normalizeRoomCode cfg.toLowerCase roomCode) :
    (code, yjsToken) ∈ (destroyRoom cfg s roomCode).state.rooms := by
  unfold destroyRoom
  dsimp only
  split_ifs
  · refine List.mem_filter.mpr ⟨?_, decide_eq_true hother⟩
    rw [destroySharedDoc_rooms]
    exact h
  · exact h

/-- Documents and rooms leave together. -/
theorem fire_roomed {t : YjsTrigger cfg} {g : YjsStep cfg} (hnumbered : Numbered s) (h : Coherent s)
    (hfire : (yjsServer cfg).fire s t = some g) (hdocs : g.state.docs.Sublist s.docs) :
    ∀ x ∈ g.state.docs, ∃ yjsToken, (x.1, yjsToken) ∈ g.state.rooms := by
  intro x hx
  obtain ⟨yjsToken, hroom⟩ := h.roomed x (hdocs.subset hx)
  rcases fire_rooms cfg hfire with hsame | ⟨code, token, -, rfl⟩ | ⟨code, token, -, rfl⟩ | ⟨code, -, rfl⟩
  · rw [hsame]
    exact ⟨yjsToken, hroom⟩
  · exact mem_createRoom hroom
  · exact mem_rotateToken hroom
  · obtain ⟨-, hgone⟩ := destroyRoom_docs cfg hnumbered code x hx
    exact ⟨yjsToken, mem_destroyRoom cfg hroom fun hcode => hgone hcode yjsToken hroom⟩

end

/-! ## Joining -/

section
variable {s : YjsServer Document Awareness}

theorem register_name (doc : WSSharedDoc Document Awareness) (conn : ConnId) :
    (doc.register conn).name = doc.name := by
  unfold WSSharedDoc.register
  split_ifs <;> rfl

/-- The registry makes the document of a room that is there. -/
theorem Coherent.created (h : Coherent s) (hnumbered : Numbered s) {roomName yjsToken : JsString}
    (hroom : (roomName, yjsToken) ∈ s.rooms) :
    Coherent (s.getOrCreateSharedDoc cfg roomName).1 ∧
      (roomName, (s.getOrCreateSharedDoc cfg roomName).2) ∈ (s.getOrCreateSharedDoc cfg roomName).1.docs ∧
      (s.getOrCreateSharedDoc cfg roomName).1.joined = s.joined ∧
      (s.getOrCreateSharedDoc cfg roomName).1.sockets = s.sockets ∧
      ∀ d, d < s.nextDoc → (s.getOrCreateSharedDoc cfg roomName).1.heap d = s.heap d := by
  rcases getOrCreateSharedDoc_cases cfg s roomName with ⟨d, hnamed, hget⟩ | ⟨hunnamed, hget⟩ <;> rw [hget]
  · exact ⟨h, hnamed, rfl, rfl, fun _ _ => rfl⟩
  · have hold : ∀ d, d < s.nextDoc →
        Function.update s.heap s.nextDoc (newSharedDoc cfg.yjs roomName) d = s.heap d :=
      fun d hd => Function.update_of_ne hd.ne _ _
    refine ⟨⟨?_, ?_, ?_, ?_, h.connecting⟩, List.mem_append_right _ (List.mem_singleton_self _), rfl, rfl, hold⟩
    · intro x hx
      rcases List.mem_append.mp hx with hx | hx
      · dsimp only
        rw [hold x.2 (hnumbered.docs x hx)]
        exact h.named x hx
      · rw [List.mem_singleton.mp hx]
        dsimp only
        rw [Function.update_self]
        rfl
    · intro x hx
      rcases List.mem_append.mp hx with hx | hx
      · exact h.roomed x hx
      · rw [List.mem_singleton.mp hx]
        exact ⟨yjsToken, hroom⟩
    · intro d conn hhas
      dsimp only at hhas ⊢
      by_cases hd : d = s.nextDoc
      · rw [hd, Function.update_self] at hhas
        cases hhas
      · rw [Function.update_of_ne hd] at hhas ⊢
        obtain ⟨hjoined, hdoc⟩ := h.registered d conn hhas
        exact ⟨hjoined, List.mem_append_left _ hdoc⟩
    · intro conn d hjoined halive
      dsimp only
      rw [hold d (hnumbered.joined conn d hjoined)]
      exact h.present conn d hjoined halive

/-- A connection that is in no document joins the one of its room. -/
theorem Coherent.joins (h : Coherent s) {conn : ConnId} {roomName : JsString} {d : DocId}
    (hdoc : (roomName, d) ∈ s.docs) (hnew : s.joined conn = none)
    (haccepted : (s.sockets conn).readyState ≠ .connecting) :
    Coherent { s with
      joined := Function.update s.joined conn (some d)
      heap := Function.update s.heap d ((s.heap d).register conn) } := by
  have hname : ∀ d', (Function.update s.heap d ((s.heap d).register conn) d').name = (s.heap d').name := by
    intro d'
    by_cases hd : d' = d
    · rw [hd, Function.update_self]
      exact register_name _ conn
    · rw [Function.update_of_ne hd]
  have hother : ∀ d' conn', conn' ≠ conn →
      ((Function.update s.heap d ((s.heap d).register conn) d').has conn' = true ↔
        (s.heap d').has conn' = true) := by
    intro d' conn' hne
    by_cases hd : d' = d
    · rw [hd, Function.update_self, has_register_iff]
      exact or_iff_left hne
    · rw [Function.update_of_ne hd]
  refine ⟨fun x hx => (hname x.2).trans (h.named x hx), h.roomed, ?_, ?_, ?_⟩
  · intro d' conn' hhas
    dsimp only at hhas ⊢
    rw [hname]
    by_cases hconn : conn' = conn
    · subst hconn
      have hd : d' = d := by
        by_contra hne
        rw [Function.update_of_ne hne] at hhas
        rw [(h.registered d' conn' hhas).1] at hnew
        cases hnew
      rw [hd, Function.update_self, h.named _ hdoc]
      exact ⟨rfl, hdoc⟩
    · rw [Function.update_of_ne hconn]
      exact h.registered d' conn' ((hother d' conn' hconn).mp hhas)
  · intro conn' d' hjoined halive
    dsimp only at hjoined ⊢
    by_cases hconn : conn' = conn
    · subst hconn
      rw [Function.update_self] at hjoined
      obtain rfl := Option.some.inj hjoined
      rw [Function.update_self]
      exact has_register _ _
    · rw [Function.update_of_ne hconn] at hjoined
      exact (hother d' conn' hconn).mpr (h.present conn' d' hjoined halive)
  · intro conn' hstate
    dsimp only
    by_cases hconn : conn' = conn
    · rw [hconn] at hstate
      exact absurd hstate haccepted
    · rw [Function.update_of_ne hconn]
      exact h.connecting conn' hstate

theorem room_of_passes {opened : Opened cfg.toLowerCase} (h : Passes cfg s opened) :
    ∃ yjsToken, (opened.roomName, yjsToken) ∈ s.rooms := by
  obtain ⟨-, token, -, hroom, -⟩ := h
  unfold YjsServer.getRoom at hroom
  rw [roomName_normalized] at hroom
  obtain ⟨⟨code, token⟩, hfind, rfl⟩ := Option.map_eq_some_iff.mp hroom
  have hcode : code = opened.roomName := by simpa using List.find?_some hfind
  exact ⟨token, hcode ▸ List.mem_of_find?_eq_some hfind⟩

/-- A connection that is let in. -/
theorem Coherent.register (h : Coherent s) (hnumbered : Numbered s) {opened : Opened cfg.toLowerCase}
    (hpasses : Passes cfg s opened) (hnew : s.joined opened.conn = none)
    (haccepted : (s.sockets opened.conn).readyState ≠ .connecting) :
    Coherent (register cfg s opened).state ∧
      ∀ conn, roomOf (Ws.register cfg s opened).state conn =
        if conn = opened.conn then some opened.roomName else roomOf s conn := by
  obtain ⟨yjsToken, hroom⟩ := room_of_passes cfg hpasses
  obtain ⟨hcoherent, hdoc, hjoined, hsockets, hheap⟩ := h.created cfg hnumbered hroom
  rw [register_state]
  generalize s.getOrCreateSharedDoc cfg opened.roomName = created at hcoherent hdoc hjoined hsockets hheap
  obtain ⟨s₁, d⟩ := created
  dsimp only at hcoherent hdoc hjoined hsockets hheap ⊢
  refine ⟨hcoherent.joins hdoc (by rw [hjoined]; exact hnew) (by rw [hsockets]; exact haccepted),
    fun conn => ?_⟩
  unfold roomOf
  dsimp only
  split_ifs with hconn
  · rw [hconn, Function.update_self, Option.map_some, Function.update_self, register_name]
    exact congrArg some (hcoherent.named _ hdoc)
  · rw [Function.update_of_ne hconn, hjoined]
    cases hbefore : s.joined conn with
    | none => rfl
    | some d' =>
      rw [Option.map_some, Option.map_some, ← hheap d' (hnumbered.joined conn d' hbefore)]
      congr 1
      by_cases hd : d' = d
      · rw [hd, Function.update_self, register_name]
      · rw [Function.update_of_ne hd]

end

/-! ## Runs -/

/-- The connection whose handler waits for the access check. -/
def YjsTask.waiting {toLowerCase : JsString → JsString} : YjsTask toLowerCase Payload → Option ConnId
  | .validateConnection opened => some opened.conn
  | _ => none

/-- What holds of the handlers that wait and of the rooms that connections have been let into. -/
structure Supervised (past : List (YjsTurn cfg)) (c : YjsConf cfg) : Prop where
  numbered : Numbered c.shared
  coherent : Coherent c.shared
  waiting : ∀ conn ∈ c.pool.filterMap YjsTask.waiting,
    c.shared.joined conn = none ∧ (c.shared.sockets conn).readyState ≠ .connecting
  apart : (c.pool.filterMap YjsTask.waiting).Nodup
  admitted : ∀ conn roomName, Admitted cfg past conn roomName ↔ roomOf c.shared conn = some roomName

theorem initial_supervised : Supervised cfg [] (initialYjs cfg) where
  numbered := initial_numbered cfg
  coherent := initial_coherent cfg
  waiting := nofun
  apart := List.nodup_nil
  admitted conn roomName := by
    refine iff_of_false ?_ nofun
    rintro ⟨turn, hturn, -⟩
    cases hturn

section
variable {past : List (YjsTurn cfg)} {c c' : YjsConf cfg} {out : List (WsEffect Payload)}
  {t : YjsTrigger cfg} {g : YjsStep cfg} {rest : List (YjsTask cfg.toLowerCase Payload)}

theorem admitted_concat {turn : YjsTurn cfg} {conn : ConnId} {roomName : JsString} :
    Admitted cfg (past ++ [turn]) conn roomName ↔ Admitted cfg past conn roomName ∨
      ∃ opened, Handled cfg opened turn.trigger ∧ Passes cfg turn.before.shared opened ∧
        opened.conn = conn ∧ opened.roomName = roomName := by
  unfold Admitted
  simp only [List.mem_append, List.mem_singleton, or_and_right, exists_or, exists_eq_left]

/-- The connection that a segment lets in was in no document, and no handler is left that waits for it. -/
theorem Supervised.entering (h : Supervised cfg past c) (hby : (yjsServer cfg).StepBy c c' out t g rest)
    {opened : Opened cfg.toLowerCase} {s₁ : YjsServer Document Awareness}
    (harrives : Arrives cfg c.shared opened t s₁) :
    c.shared.joined opened.conn = none ∧ (s₁.sockets opened.conn).readyState ≠ .connecting ∧
      opened.conn ∉ rest.filterMap YjsTask.waiting := by
  have hperm := hby.filterMap_before YjsTask.waiting
  cases harrives with
  | checked =>
    have hdisjoint := List.disjoint_of_nodup_append (hperm.nodup_iff.mpr h.apart)
    obtain ⟨hnone, haccepted⟩ := h.waiting opened.conn (hperm.mem_iff.mp (List.mem_append_left _ (by
      simp [Trigger.taken, YjsTask.waiting])))
    exact ⟨hnone, haccepted, fun hmem => hdisjoint (by simp [Trigger.taken, YjsTask.waiting]) hmem⟩
  | unchecked haccess hnew =>
    refine ⟨h.coherent.connecting _ hnew, ?_, fun hmem => ?_⟩
    · rw [setReadyState_readyState]
      decide
    · exact (h.waiting _ (hperm.mem_iff.mp (List.mem_append_right _ hmem))).2 hnew

/-- A segment starts to wait for a connection that is new. -/
theorem fire_waiting {s : YjsServer Document Awareness} (hfire : (yjsServer cfg).fire s t = some g)
    {conn : ConnId} (hmem : conn ∈ g.next.filterMap YjsTask.waiting) :
    (s.sockets conn).readyState = .connecting ∧ g.state = s.setReadyState conn .open ∧
      g.next.filterMap YjsTask.waiting = [conn] := by
  cases fire_next cfg hfire with
  | none hnext =>
    rw [hnext] at hmem
    cases hmem
  | connection opened ht hg =>
    obtain rfl : conn = opened.conn := by
      rw [hg] at hmem
      simpa [YjsTask.waiting] using hmem
    rw [ht] at hfire
    cases fire_cases hfire with
    | connects conn request hnew =>
      rw [hg]
      exact ⟨hnew, rfl, rfl⟩
  | message conn size message ht hg =>
    rw [hg] at hmem
    cases hmem
  | access conn ht hg =>
    rw [hg] at hmem
    cases hmem

theorem Coherent.arrives {s s₁ : YjsServer Document Awareness} {opened : Opened cfg.toLowerCase}
    (h : Coherent s) (harrives : Arrives cfg s opened t s₁) : Coherent s₁ := by
  cases harrives with
  | checked => exact h
  | unchecked haccess hnew =>
    exact h.retains (Retains.opened hnew) h.roomed (StayAccepted.update (fun _ => ⟨rfl, fun h => h⟩) _ nofun)

theorem Supervised.step (h : Supervised cfg past c) (hby : (yjsServer cfg).StepBy c c' out t g rest) :
    Supervised cfg (past ++ [⟨c, t, c', out⟩]) c' := by
  have hnumbered : Numbered c'.shared := hby.shared ▸ h.numbered.step cfg hby.fire
  have haccepted : StayAccepted c.shared.sockets c'.shared.sockets :=
    hby.shared ▸ fire_stayAccepted cfg hby.fire
  have hperm := hby.filterMap_before YjsTask.waiting
  have hrest : ∀ conn ∈ rest.filterMap YjsTask.waiting, conn ∈ c.pool.filterMap YjsTask.waiting :=
    fun conn hmem => hperm.mem_iff.mp (List.mem_append_right _ hmem)
  have hrestApart : (rest.filterMap YjsTask.waiting).Nodup :=
    (hperm.nodup_iff.mpr h.apart).sublist (List.sublist_append_right _ _)
  have hwaiting : (∀ conn ∈ rest.filterMap YjsTask.waiting, c'.shared.joined conn = none) →
      (∀ conn ∈ c'.pool.filterMap YjsTask.waiting, c'.shared.joined conn = none ∧
        (c'.shared.sockets conn).readyState ≠ .connecting) ∧
      (c'.pool.filterMap YjsTask.waiting).Nodup := by
    intro hjoined
    rw [hby.filterMap_after]
    refine ⟨fun conn hmem => ?_, ?_⟩
    · rcases List.mem_append.mp hmem with hmem | hmem
      · exact ⟨hjoined conn hmem, (haccepted conn).2 (h.waiting conn (hrest conn hmem)).2⟩
      · obtain ⟨hnew, hstate, -⟩ := fire_waiting cfg hby.fire hmem
        rw [hby.shared, hstate]
        refine ⟨h.coherent.connecting conn hnew, ?_⟩
        rw [setReadyState_readyState]
        decide
    · cases hnext : g.next.filterMap YjsTask.waiting with
      | nil => rwa [List.append_nil]
      | cons conn later =>
        obtain ⟨hnew, -, hsingle⟩ := fire_waiting cfg hby.fire (hnext ▸ List.mem_cons_self)
        rw [← hnext, hsingle]
        exact nodup_concat hrestApart fun hmem => (h.waiting conn (hrest conn hmem)).2 hnew
  cases fire_registers cfg h.numbered.names hby.fire with
  | retains written hretains hrejected =>
    rw [← hby.shared] at hretains
    obtain ⟨hwait, hapart⟩ := hwaiting fun conn hmem => by
      rw [hretains.joined]
      exact (h.waiting conn (hrest conn hmem)).1
    refine ⟨hnumbered, h.coherent.retains hretains ?_ haccepted, hwait, hapart, fun conn roomName => ?_⟩
    · rw [hby.shared]
      refine fire_roomed cfg h.numbered h.coherent hby.fire ?_
      rw [← hby.shared]
      exact hretains.docs
    · rw [admitted_concat, hretains.roomOf, h.admitted]
      refine or_iff_left ?_
      rintro ⟨opened, ht, hpasses, -⟩
      exact hrejected opened ht hpasses
  | enters opened s₁ harrives hpasses hstate =>
    obtain ⟨hnew, haccept, hleft⟩ := h.entering cfg hby harrives
    obtain ⟨ht, hretains, hrooms⟩ := harrives.spec
    obtain ⟨hafter, hroomOf⟩ := (h.coherent.arrives cfg harrives).register cfg
      (h.numbered.keeps hretains.toKeeps) hpasses (by rw [hretains.joined]; exact hnew) haccept
    obtain ⟨d, hjoins⟩ := register_joins cfg s₁ opened
    have hjoined := hjoins.joined
    rw [← hstate, ← hby.shared] at hafter hroomOf hjoined
    obtain ⟨hwait, hapart⟩ := hwaiting fun conn hmem => by
      have hne : conn ≠ opened.conn := by
        rintro rfl
        exact hleft hmem
      rw [hjoined, Function.update_of_ne hne, hretains.joined]
      exact (h.waiting conn (hrest conn hmem)).1
    refine ⟨hnumbered, hafter, hwait, hapart, fun conn roomName => ?_⟩
    rw [admitted_concat, hroomOf, hretains.roomOf]
    constructor
    · rintro (hbefore | ⟨opened', ht', -, rfl, rfl⟩)
      · have hroom := (h.admitted conn roomName).mp hbefore
        have hne : conn ≠ opened.conn := by
          rintro rfl
          rw [roomOf, hnew] at hroom
          cases hroom
        rwa [if_neg hne]
      · rw [handled_unique cfg ht ht', if_pos rfl]
    · intro hroom
      split_ifs at hroom with hconn
      · exact .inr ⟨opened, ht, (passes_congr cfg hrooms opened).mp hpasses, hconn.symm, Option.some.inj hroom⟩
      · exact .inl ((h.admitted conn roomName).mpr hroom)

theorem history_supervised {acts : List (YjsAct Payload)} {c : YjsConf cfg} {out : List (WsEffect Payload)}
    (hrun : (yjsServer cfg).run (initialYjs cfg) acts = some (c, out)) :
    Supervised cfg ((yjsServer cfg).history (initialYjs cfg) acts) c :=
  Machine.run_history_preserves (P := fun _ _ _ => True)
    (fun _ _ _ _ _ _ _ h _ hby => h.step cfg hby) (initial_supervised cfg) (fun _ _ _ _ => trivial) hrun

end

/-! ## Rooms that have been destroyed -/

section
variable {s : YjsServer Document Awareness}

/-- A code under which there is no room. -/
def Unregistered (s : YjsServer Document Awareness) (code : JsString) : Prop :=
  ∀ yjsToken, (code, yjsToken) ∉ s.rooms

/-- The code of a room that a segment creates. -/
def createdCode : YjsTrigger cfg → Option JsString
  | .event (.createRoom roomCode _) => some roomCode
  | _ => none

theorem unregistered_rotateToken {code roomCode yjsToken : JsString} (h : Unregistered s code) :
    Unregistered (rotateToken s roomCode yjsToken) code := by
  intro token hmem
  obtain ⟨room, hroom, heq⟩ := List.mem_map.mp hmem
  split_ifs at heq with hcode
  · obtain ⟨rfl, rfl⟩ := Prod.mk.inj heq
    exact h room.2 (hcode ▸ hroom)
  · exact h token (heq ▸ hroom)

/-- Only the creation of a room registers its code. -/
theorem fire_unregistered {t : YjsTrigger cfg} {g : YjsStep cfg} {code : JsString}
    (h : Unregistered s code) (hfire : (yjsServer cfg).fire s t = some g)
    (hcreated : createdCode cfg t ≠ some code) : Unregistered g.state code := by
  rcases fire_rooms cfg hfire with
    hsame | ⟨roomCode, token, ht, rfl⟩ | ⟨roomCode, token, -, rfl⟩ | ⟨roomCode, -, rfl⟩
  · intro yjsToken
    rw [hsame]
    exact h yjsToken
  · have hne : roomCode ≠ code := by
      rintro rfl
      exact hcreated (by rw [ht]; rfl)
    change Unregistered (createRoom s roomCode token) code
    unfold createRoom
    split_ifs
    · exact unregistered_rotateToken h
    · intro yjsToken hmem
      rcases List.mem_append.mp hmem with hmem | hmem
      · exact h yjsToken hmem
      · exact hne (congrArg Prod.fst (List.mem_singleton.mp hmem)).symm
  · exact unregistered_rotateToken h
  · exact fun yjsToken hmem => h yjsToken (destroyRoom_rooms cfg roomCode hmem).2

theorem unregistered_run {acts : List (YjsAct Payload)} {c c' : YjsConf cfg}
    {out : List (WsEffect Payload)} {code : JsString} (h : Unregistered c.shared code)
    (hrun : (yjsServer cfg).run c acts = some (c', out))
    (hcreated : ∀ turn ∈ (yjsServer cfg).history c acts, createdCode cfg turn.trigger ≠ some code) :
    Unregistered c'.shared code := by
  refine Machine.run_preserves (P := fun _ t => createdCode cfg t ≠ some code)
    (I := fun c _ => Unregistered c.shared code) ?_ h
    ((Machine.meets_iff_history hrun).mpr hcreated) hrun
  intro c c' _ out t g rest h hne hby
  rw [hby.shared]
  exact fire_unregistered cfg h hby.fire hne

/-- Behind its destruction a room is not there until it is created again. -/
theorem unregistered_of_destroyed {acts : List (YjsAct Payload)} {c : YjsConf cfg}
    {out : List (WsEffect Payload)} (hrun : (yjsServer cfg).run (initialYjs cfg) acts = some (c, out))
    {past later : List (YjsTurn cfg)} {turn : YjsTurn cfg} {roomCode : JsString}
    (hsplit : (yjsServer cfg).history (initialYjs cfg) acts = past ++ turn :: later)
    (htrigger : turn.trigger = .event (.destroyRoom roomCode))
    (hlater : ∀ turn' ∈ later,
      createdCode cfg turn'.trigger ≠ some (normalizeRoomCode cfg.toLowerCase roomCode)) :
    Unregistered c.shared (normalizeRoomCode cfg.toLowerCase roomCode) := by
  obtain ⟨before, a, after, rfl, rfl, hbefore, ht, hstep⟩ := Machine.history_split hsplit
  obtain ⟨t, g, ht', hby⟩ := Machine.step_by hstep
  obtain rfl := Option.some.inj (ht.symm.trans ht')
  have hdestroyed : Unregistered turn.after.shared (normalizeRoomCode cfg.toLowerCase roomCode) := by
    have hfire := hby.fire
    rw [htrigger] at hfire
    obtain rfl := Option.some.inj hfire
    rw [hby.shared]
    exact fun yjsToken hmem => (destroyRoom_rooms cfg roomCode hmem).1 rfl
  obtain ⟨c₁, out₁, out₂, hrun₁, hrun₂, -⟩ := Machine.run_append hrun
  obtain ⟨rfl, -⟩ := Prod.mk.inj (Option.some.inj (hbefore.symm.trans hrun₁))
  obtain ⟨c₂, out₃, out₄, hstep', hrun₃, -⟩ := Machine.run_cons hrun₂
  obtain ⟨rfl, -⟩ := Prod.mk.inj (Option.some.inj (hstep.symm.trans hstep'))
  have hhistory : (yjsServer cfg).history turn.after after = later := by
    rw [Machine.history_at hbefore ht hstep] at hsplit
    exact (List.cons.inj (List.append_cancel_left hsplit)).2
  exact unregistered_run cfg hdestroyed hrun₃ (hhistory ▸ hlater)

end

/-- **The registry agrees with the rooms.** -/
theorem documents_coherent {acts : List (YjsAct Payload)} {c : YjsConf cfg} {out : List (WsEffect Payload)}
    (hrun : (yjsServer cfg).run (initialYjs cfg) acts = some (c, out)) :
    let history := (yjsServer cfg).history (initialYjs cfg) acts
    (∀ name d, (name, d) ∈ c.shared.docs →
      (c.shared.heap d).name = name ∧ ∃ yjsToken, (name, yjsToken) ∈ c.shared.rooms) ∧
    (∀ conn roomName, Admitted cfg history conn roomName →
      (∀ d, (c.shared.heap d).has conn = true → c.shared.findSharedDoc roomName = some d) ∧
      ((c.shared.sockets conn).readyState = .open →
        ∃ d, c.shared.findSharedDoc roomName = some d ∧ (c.shared.heap d).has conn = true)) ∧
    (∀ d conn, (c.shared.heap d).has conn = true → ∃ roomName, Admitted cfg history conn roomName) ∧
    ∀ past turn later roomCode, history = past ++ turn :: later →
      turn.trigger = .event (.destroyRoom roomCode) →
      (∀ turn' ∈ later,
        createdCode cfg turn'.trigger ≠ some (normalizeRoomCode cfg.toLowerCase roomCode)) →
      ∀ conn, Admitted cfg history conn (normalizeRoomCode cfg.toLowerCase roomCode) →
        ∀ x ∈ c.shared.docs, (c.shared.heap x.2).has conn = false := by
  intro history
  have h : Supervised cfg history c := history_supervised cfg hrun
  have hjoinedRoom : ∀ {conn roomName}, Admitted cfg history conn roomName →
      ∃ d, c.shared.joined conn = some d ∧ (c.shared.heap d).name = roomName :=
    fun hadmitted => Option.map_eq_some_iff.mp ((h.admitted _ _).mp hadmitted)
  have hfound : ∀ {conn roomName d}, Admitted cfg history conn roomName →
      (c.shared.heap d).has conn = true → c.shared.findSharedDoc roomName = some d := by
    intro conn roomName d hadmitted hhas
    obtain ⟨hjoined, hdoc⟩ := h.coherent.registered d conn hhas
    obtain ⟨d', hjoined', hname⟩ := hjoinedRoom hadmitted
    obtain rfl := Option.some.inj (hjoined.symm.trans hjoined')
    exact h.numbered.find_iff.mpr (hname ▸ hdoc)
  refine ⟨fun name d hdoc => ⟨h.coherent.named _ hdoc, h.coherent.roomed _ hdoc⟩,
    fun conn roomName hadmitted => ⟨fun d hhas => hfound hadmitted hhas, fun hopen => ?_⟩,
    fun d conn hhas => ?_, ?_⟩
  · obtain ⟨d, hjoined, -⟩ := hjoinedRoom hadmitted
    have hhas := h.coherent.present conn d hjoined (by simp [Socket.alive, hopen])
    exact ⟨d, hfound hadmitted hhas, hhas⟩
  · refine ⟨(c.shared.heap d).name, (h.admitted _ _).mpr ?_⟩
    rw [roomOf, (h.coherent.registered d conn hhas).1]
    rfl
  · intro past turn later roomCode hsplit htrigger hlater conn hadmitted x hx
    have hunregistered := unregistered_of_destroyed cfg hrun hsplit htrigger hlater
    by_contra hhas
    have hdoc := h.numbered.find_iff.mp (hfound hadmitted (Bool.not_eq_false _ ▸ hhas))
    obtain ⟨yjsToken, hroom⟩ := h.coherent.roomed _ hdoc
    exact hunregistered yjsToken hroom

end

theorem documents_coherent_example : ∃ c out,
    (yjsServer plainYjsConfig).run (initialYjs plainYjsConfig) exampleSession = some (c, out) ∧
    (c.shared.heap 0).has 0 = true ∧ (c.shared.heap 0).has 1 = true ∧
    ∃ roomName, Admitted plainYjsConfig
        ((yjsServer plainYjsConfig).history (initialYjs plainYjsConfig) exampleSession) 1 roomName ∧
      c.shared.findSharedDoc roomName = some 0 := by
  have hfinal : ((yjsServer plainYjsConfig).run (initialYjs plainYjsConfig) exampleSession).map
      (fun r => ((r.1.shared.heap 0).has 0, (r.1.shared.heap 0).has 1)) = some (true, true) := by
    decide +kernel
  obtain ⟨⟨c, out⟩, hrun, hresult⟩ := Option.map_eq_some_iff.mp hfinal
  obtain ⟨hfirst, hsecond⟩ := Prod.mk.inj hresult
  obtain ⟨-, hfound, hadmitted, -⟩ := documents_coherent plainYjsConfig hrun
  obtain ⟨roomName, hroom⟩ := hadmitted 0 1 hsecond
  exact ⟨c, out, hrun, hfirst, hsecond, roomName, hroom, (hfound 1 roomName hroom).1 0 hsecond⟩

end CodeShare.Ws
