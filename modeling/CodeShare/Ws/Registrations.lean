import CodeShare.Ws.Membership

/-! # Who stays in a document

A connection is removed from its document only when its websocket is closed: `closeConn` closes what it
removes. A document that leaves the registry has no connections.
-/

namespace CodeShare.Ws
open Tasks
set_option autoImplicit false

section
variable {Document Awareness Payload : Type}

/-! ## One document -/

/-- Apart from some connections, those that are still alive were alive, and are still there. -/
structure HoldsBut (excepted : ConnId → Prop) (w₀ w : Hub Document Awareness Payload) : Prop where
  name : w.doc.name = w₀.doc.name
  held : ∀ conn, ¬excepted conn → (w.sockets conn).alive = true →
    (w₀.sockets conn).alive = true ∧ (w₀.doc.has conn = true → w.doc.has conn = true)

theorem has_delete_of_ne {doc : WSSharedDoc Document Awareness} {conn conn' : ConnId} (hne : conn' ≠ conn)
    (h : doc.has conn' = true) : (doc.delete conn).has conn' = true := by
  obtain ⟨c, hc, hconn⟩ := List.any_eq_true.mp h
  refine List.any_eq_true.mpr ⟨c, List.mem_filter.mpr ⟨hc, ?_⟩, hconn⟩
  rw [of_decide_eq_true hconn]
  exact decide_eq_true hne

theorem has_delete_self (doc : WSSharedDoc Document Awareness) (conn : ConnId) :
    (doc.delete conn).has conn = false := by
  unfold WSSharedDoc.delete WSSharedDoc.has
  rw [List.any_filter]
  exact List.any_eq_false.mpr fun c _ => by simp

/-- A websocket that is alive behind `close` is another one, and was alive before. -/
theorem alive_of_close {w : Hub Document Awareness Payload} {conn conn' : ConnId}
    {frame : Option CloseFrame} (h : ((w.close conn frame).sockets conn').alive = true) :
    conn' ≠ conn ∧ (w.sockets conn').alive = true := by
  unfold Hub.close at h
  split_ifs at h with halive
  · change ((Function.update w.sockets conn _) conn').alive = true at h
    by_cases hconn : conn' = conn
    · rw [hconn, Function.update_self] at h
      cases h
    · rw [Function.update_of_ne hconn] at h
      exact ⟨hconn, h⟩
  · refine ⟨?_, h⟩
    rintro rfl
    exact halive h

namespace HoldsBut
variable {excepted : ConnId → Prop} {w₀ w w' : Hub Document Awareness Payload}

theorem refl (excepted : ConnId → Prop) (w : Hub Document Awareness Payload) : HoldsBut excepted w w :=
  ⟨rfl, fun _ _ h => ⟨h, fun h => h⟩⟩

/-- A connection may be excepted until its websocket is closed. -/
theorem close {conn : ConnId} {frame : Option CloseFrame}
    (h : HoldsBut (fun c => excepted c ∨ c = conn) w₀ w) : HoldsBut excepted w₀ (w.close conn frame) := by
  refine ⟨by rw [close_doc]; exact h.name, fun conn' hexcepted halive => ?_⟩
  obtain ⟨hne, halive⟩ := alive_of_close halive
  rw [close_doc]
  exact h.held conn' (not_or.mpr ⟨hexcepted, hne⟩) halive

theorem weaken {conn : ConnId} (h : HoldsBut excepted w₀ w) :
    HoldsBut (fun c => excepted c ∨ c = conn) w₀ w :=
  ⟨h.name, fun conn' hexcepted halive => h.held conn' (fun h => hexcepted (.inl h)) halive⟩

theorem closeConnFuel (yjs : Yjs Document Awareness Payload) (depth : ℕ) {frame : Option CloseFrame}
    {conn : ConnId} (h : HoldsBut excepted w₀ w) :
    HoldsBut excepted w₀ (Ws.closeConnFuel yjs depth frame conn w) := by
  have hdeleted : ∀ {excepted : ConnId → Prop} {conn : ConnId} {w : Hub Document Awareness Payload}
      (awareness : Awareness), HoldsBut excepted w₀ w → HoldsBut (fun c => excepted c ∨ c = conn) w₀
        { w with doc := { w.doc.delete conn with awareness := awareness } } := by
    intro excepted conn w awareness h
    refine ⟨h.name, fun conn' hexcepted halive => ?_⟩
    obtain ⟨hother, hne⟩ := not_or.mp hexcepted
    obtain ⟨hbefore, hhas⟩ := h.held conn' hother halive
    exact ⟨hbefore, fun hmem => has_delete_of_ne hne (hhas hmem)⟩
  induction depth generalizing excepted frame conn w with
  | zero =>
    unfold Ws.closeConnFuel Ws.closeConnWith
    dsimp only
    split_ifs
    · exact (hdeleted _ h).close
    · exact (hdeleted _ h).close
    · exact h.weaken.close
  | succ depth ih =>
    unfold Ws.closeConnFuel Ws.closeConnWith
    dsimp only
    split_ifs
    · exact (hdeleted _ h).close
    · refine close (broadcastWith_keeps (I := HoldsBut _ w₀) (fun conn w h => ih h) ?_ (hdeleted _ h))
      exact fun w conn h => ⟨h.name, h.held⟩
    · exact h.weaken.close

theorem rule (yjs : Yjs Document Awareness Payload) (excepted : ConnId → Prop)
    (w₀ : Hub Document Awareness Payload) : HubRule yjs (HoldsBut excepted w₀) where
  emit _ _ h := ⟨h.name, h.held⟩
  document _ _ h := ⟨h.name, h.held⟩
  awareness _ _ h := ⟨h.name, h.held⟩
  control w conn change h := by
    refine ⟨h.name, fun conn' hexcepted halive => ?_⟩
    dsimp only
    rw [has_control]
    exact h.held conn' hexcepted halive
  close _ _ _ h := h.weaken.close
  closeConn _ _ _ h := h.closeConnFuel yjs _

end HoldsBut

theorem closeConn_has_self (yjs : Yjs Document Awareness Payload) (frame : Option CloseFrame)
    (conn : ConnId) (w : Hub Document Awareness Payload) :
    (closeConn yjs frame conn w).doc.has conn = false := by
  rw [closeConn_eq]
  unfold closeConnWith
  dsimp only
  split_ifs with hhas hnone <;> rw [close_doc]
  · exact has_delete_self w.doc conn
  · by_contra hstill
    have hbefore := ((Narrows.rule yjs _).broadcast _ (Narrows.refl _)).conns conn
      (Bool.not_eq_false _ ▸ hstill)
    exact absurd hbefore (Bool.eq_false_iff.mp (has_delete_self w.doc conn))
  · exact Bool.eq_false_iff.mpr hhas

/-- When the connections have been closed one by one, none of them is left. -/
theorem closeAll_has (yjs : Yjs Document Awareness Payload) (targets : List ConnId) {conn : ConnId}
    {w : Hub Document Awareness Payload}
    (h : (targets.foldl (fun w conn => closeConn yjs none conn w) w).doc.has conn = true) :
    w.doc.has conn = true ∧ conn ∉ targets := by
  induction targets generalizing w with
  | nil => exact ⟨h, List.not_mem_nil⟩
  | cons target targets ih =>
    obtain ⟨hhas, hother⟩ := ih h
    refine ⟨((Narrows.refl w).closeConn yjs target none).conns conn hhas, fun hmem => ?_⟩
    rcases List.mem_cons.mp hmem with rfl | hmem
    · rw [closeConn_has_self] at hhas
      cases hhas
    · exact hother hmem

theorem has_iff_mem {doc : WSSharedDoc Document Awareness} {conn : ConnId} :
    doc.has conn = true ↔ conn ∈ doc.conns.map Prod.fst := by
  simp [WSSharedDoc.has]

/-! ## The registry -/

section
variable (cfg : YjsServerConfig Document Awareness Payload)

/-- What a segment does that lets no connection in. -/
structure Retains (written : Option DocId) (s s' : YjsServer Document Awareness) : Prop
    extends Keeps written s s' where
  names : ∀ d, (s'.heap d).name = (s.heap d).name
  held : ∀ conn, (s'.sockets conn).alive = true →
    (s.sockets conn).alive = true ∧ ∀ d, (s.heap d).has conn = true → (s'.heap d).has conn = true
  emptied : ∀ x ∈ s.docs, x ∉ s'.docs → ∀ conn, (s'.heap x.2).has conn = false

namespace Retains
variable {written : Option DocId} {s s' s'' : YjsServer Document Awareness}

theorem refl (s : YjsServer Document Awareness) : Retains written s s where
  toKeeps := Keeps.refl s
  names _ := rfl
  held _ halive := ⟨halive, fun _ hhas => hhas⟩
  emptied _ hx hgone := absurd hx hgone

theorem trans (h : Retains written s s') (h' : Retains written s' s'') : Retains written s s'' where
  toKeeps := h.toKeeps.trans h'.toKeeps
  names d := (h'.names d).trans (h.names d)
  held conn halive := by
    obtain ⟨halive', hhas'⟩ := h'.held conn halive
    obtain ⟨halive, hhas⟩ := h.held conn halive'
    exact ⟨halive, fun d hd => hhas' d (hhas d hd)⟩
  emptied x hx hgone conn := by
    by_cases hx' : x ∈ s'.docs
    · exact h'.emptied x hx' hgone conn
    · by_contra hhas
      have hbefore := h'.conns x.2 conn (Bool.not_eq_false _ ▸ hhas)
      rw [h.emptied x hx hx' conn] at hbefore
      cases hbefore

theorem withRooms (h : Retains written s s') (rooms : List (JsString × JsString)) :
    Retains written s { s' with rooms := rooms } :=
  ⟨h.toKeeps.withRooms rooms, h.names, h.held, h.emptied⟩

theorem setReadyState {conn : ConnId} {state : ReadyState}
    (hstate : (s.sockets conn).alive = false → state = .closing ∨ state = .closed)
    (hclosed : (s.sockets conn).readyState = .closed → state = .closed) :
    Retains written s (s.setReadyState conn state) where
  toKeeps := Keeps.setReadyState hclosed
  names _ := rfl
  held conn' halive := by
    refine ⟨?_, fun _ hhas => hhas⟩
    change ((Function.update s.sockets conn _) conn').alive = true at halive
    by_cases hconn : conn' = conn
    · subst hconn
      rw [Function.update_self] at halive
      by_contra hdead
      rcases hstate (Bool.eq_false_iff.mpr hdead) with rfl | rfl <;> cases halive
    · rwa [Function.update_of_ne hconn] at halive
  emptied _ hx hgone := absurd hx hgone

theorem onDoc {d : DocId} {f : Hub Document Awareness Payload → Hub Document Awareness Payload}
    (hkeeps : Keeps written s (s.onDoc cfg d f).state)
    (hholds : HoldsBut (fun _ => False) (s.hub d) (f (s.hub d))) :
    Retains written s (s.onDoc cfg d f).state where
  toKeeps := hkeeps
  names d' := by
    change (Function.update s.heap d _ d').name = _
    by_cases hd : d' = d
    · rw [hd, Function.update_self]
      exact hholds.name
    · rw [Function.update_of_ne hd]
  held conn halive := by
    obtain ⟨hbefore, hhas⟩ := hholds.held conn not_false halive
    refine ⟨hbefore, fun d' hd' => ?_⟩
    change (Function.update s.heap d _ d').has conn = true
    by_cases hd : d' = d
    · subst hd
      rw [Function.update_self]
      exact hhas hd'
    · rwa [Function.update_of_ne hd]
  emptied _ hx hgone := absurd hx hgone

theorem closeConn (d : DocId) (conn : ConnId) :
    Retains written s (s.onDoc cfg d (Ws.closeConn cfg.yjs none conn)).state :=
  onDoc cfg (Keeps.closeConn cfg d conn) ((HoldsBut.refl _ _).closeConnFuel cfg.yjs _)

theorem closeSocket (conn : ConnId) (frame : CloseFrame) :
    Retains written s (s.closeSocket cfg conn frame).state := by
  unfold YjsServer.closeSocket
  split_ifs with halive
  · refine setReadyState (fun _ => .inl rfl) fun hclosed => ?_
    simp [Socket.alive, hclosed] at halive
  · exact refl s

/-- The document that leaves the registry is the only one of its name. -/
theorem destroySharedDoc (hnames : (s.docs.map Prod.fst).Nodup) (name : JsString) :
    Retains written s (s.destroySharedDoc cfg name).state ∧
      ∀ x ∈ (s.destroySharedDoc cfg name).state.docs, x.1 ≠ name := by
  have hkeeps : Keeps written s (s.destroySharedDoc cfg name).state := Keeps.destroySharedDoc cfg name
  unfold YjsServer.destroySharedDoc at hkeeps ⊢
  split at hkeeps
  · rename_i hnone
    refine ⟨refl s, fun x hx hname => ?_⟩
    simpa [hname] using List.find?_eq_none.mp (Option.map_eq_none_iff.mp hnone) x hx
  · rename_i d hd
    have hclosed : Retains written s (s.onDoc cfg d fun w =>
        (w.doc.conns.map Prod.fst).foldl (fun w conn => Ws.closeConn cfg.yjs none conn w) w).state :=
      onDoc cfg ⟨rfl, rfl, List.Sublist.refl _, hkeeps.conns, hkeeps.closed, hkeeps.document⟩
        ((HoldsBut.rule cfg.yjs _ _).closeAll _ (HoldsBut.refl _ _))
    refine ⟨⟨hkeeps, hclosed.names, hclosed.held, fun x hx hgone conn => ?_⟩, fun x hx => ?_⟩
    · have hname : x.1 = name := by
        by_contra hne
        exact hgone (List.mem_filter.mpr ⟨hx, decide_eq_true hne⟩)
      obtain ⟨y, hy, rfl⟩ := Option.map_eq_some_iff.mp hd
      have hfound := (Enumeration.find_key_iff hnames).mpr ⟨hx, hname⟩
      obtain rfl : x = y := Option.some.inj (hfound.symm.trans hy)
      change (Function.update s.heap x.2 _ x.2).has conn = false
      rw [Function.update_self]
      by_contra hhas
      obtain ⟨hbefore, hother⟩ := closeAll_has cfg.yjs _ (Bool.not_eq_false _ ▸ hhas)
      exact hother (has_iff_mem.mp hbefore)
    · exact of_decide_eq_true (List.mem_filter.mp hx).2

theorem destroyAllSharedDocs (hnames : (s.docs.map Prod.fst).Nodup) :
    Retains written s (s.destroyAllSharedDocs cfg).state :=
  destroyAllSharedDocs_rule cfg (J := fun g => Retains written s g.state) (refl s) fun _ name h =>
    h.trans (destroySharedDoc cfg (hnames.sublist (h.docs.map _)) name).1

end Retains

/-! ## Joining -/

theorem trySend_state {w w' : Hub Document Awareness Payload} {conn : ConnId} {message : Message Payload}
    (h : w.trySend conn message = .ok w' ∨ w.trySend conn message = .error w') :
    w'.doc = w.doc ∧ w'.sockets = w.sockets := by
  unfold Hub.trySend Hub.send at h
  split_ifs at h <;> rcases h with h | h <;> cases h <;> exact ⟨rfl, rfl⟩

theorem setupWSConnection_state {yjs : Yjs Document Awareness Payload} {conn : ConnId}
    {w w' : Hub Document Awareness Payload}
    (h : setupWSConnection yjs conn w = .ok w' ∨ setupWSConnection yjs conn w = .error w') :
    w'.doc = w.doc.register conn ∧ w'.sockets = w.sockets := by
  unfold setupWSConnection at h
  split at h
  · rename_i joined hsend
    obtain ⟨hdoc, hsockets⟩ := trySend_state (.inl hsend)
    unfold sendAwarenessStates at h
    dsimp only at h
    split_ifs at h
    · rcases h with h | h <;> cases h
      exact ⟨hdoc, hsockets⟩
    · obtain ⟨hdoc', hsockets'⟩ := trySend_state h
      exact ⟨hdoc'.trans hdoc, hsockets'.trans hsockets⟩
  · rename_i joined hsend
    rcases h with h | h <;> cases h
    exact trySend_state (.inr hsend)

/-- The connection is one of those of the document of its room, whatever can be sent to it. -/
theorem register_state (s : YjsServer Document Awareness) (opened : Opened cfg.toLowerCase) :
    (register cfg s opened).state =
      let (s₁, d) := s.getOrCreateSharedDoc cfg opened.roomName
      { s₁ with
        joined := Function.update s₁.joined opened.conn (some d)
        heap := Function.update s₁.heap d ((s₁.heap d).register opened.conn) } := by
  unfold register
  generalize s.getOrCreateSharedDoc cfg opened.roomName = created
  obtain ⟨s₁, d⟩ := created
  dsimp only
  have hsetup : ∀ {w : Hub Document Awareness Payload}, w.doc = (s₁.heap d).register opened.conn ∧
      w.sockets = s₁.sockets → YjsServer.put
        { s₁ with joined := Function.update s₁.joined opened.conn (some d) } d w = { s₁ with
          joined := Function.update s₁.joined opened.conn (some d)
          heap := Function.update s₁.heap d ((s₁.heap d).register opened.conn) } := by
    rintro w ⟨hdoc, hsockets⟩
    unfold YjsServer.put
    rw [hdoc, hsockets]
  split
  · rename_i w hw
    exact hsetup (setupWSConnection_state (.inl hw))
  · rename_i w hw
    exact hsetup (setupWSConnection_state (.inr hw))

/-- The origin of the connection is allowed, and its URL has the token of its room. -/
def Passes (s : YjsServer Document Awareness) (opened : Opened cfg.toLowerCase) : Prop :=
  (cfg.allowedOrigins.all fun origins => isOriginAllowed opened.request.origin origins) = true ∧
    ∃ token, token ≠ [] ∧ s.getRoom cfg opened.roomName = some token ∧
      extractToken opened.request.url = some token

theorem admitConnection_cases (s : YjsServer Document Awareness) (opened : Opened cfg.toLowerCase) :
    Passes cfg s opened ∧ admitConnection cfg s opened = register cfg s opened ∨
      ¬Passes cfg s opened ∧ ∃ frame, admitConnection cfg s opened = s.closeSocket cfg opened.conn frame := by
  unfold admitConnection
  split_ifs with horigin
  · refine .inr ⟨fun hpasses => ?_, _, rfl⟩
    have hallowed := hpasses.1
    cases horigins : cfg.allowedOrigins with
    | none =>
      rw [horigins] at horigin
      cases horigin
    | some origins =>
      rw [horigins] at horigin hallowed
      simp only [Option.any_some, Option.all_some, Bool.not_eq_true'] at horigin hallowed
      rw [hallowed] at horigin
      cases horigin
  · split
    · rename_i yjsToken token hroom htoken
      split_ifs with hrejected
      · refine .inr ⟨?_, _, rfl⟩
        rintro ⟨-, token', hne, hroom', htoken'⟩
        obtain rfl := Option.some.inj (hroom.symm.trans hroom')
        obtain rfl := Option.some.inj (htoken.symm.trans htoken')
        rcases hrejected with hempty | hother
        · exact hne hempty
        · exact hother rfl
      · obtain ⟨hne, hsame⟩ := not_or.mp hrejected
        obtain rfl := not_not.mp hsame
        refine .inl ⟨⟨?_, yjsToken, hne, hroom, htoken⟩, rfl⟩
        cases horigins : cfg.allowedOrigins with
        | none => rfl
        | some origins =>
          rw [horigins] at horigin
          simpa using horigin
    · rename_i hnone
      refine .inr ⟨?_, _, rfl⟩
      rintro ⟨-, token, -, hroom, htoken⟩
      exact hnone token token hroom htoken

/-! ## Every segment -/

/-- The handler of a connection comes behind the access check, if there is one. -/
def Handled (opened : Opened cfg.toLowerCase) (t : YjsTrigger cfg) : Prop :=
  t = .task (.validateConnection opened) .allowed ∨
    cfg.accessService = false ∧ t = .event (.connection opened.conn opened.request)

/-- The state in which the handler of a connection comes there. -/
inductive Arrives (s : YjsServer Document Awareness) (opened : Opened cfg.toLowerCase) :
    YjsTrigger cfg → YjsServer Document Awareness → Prop where
  | checked : Arrives s opened (.task (.validateConnection opened) .allowed) s
  | unchecked (haccess : cfg.accessService = false)
      (hnew : (s.sockets opened.conn).readyState = .connecting) :
      Arrives s opened (.event (.connection opened.conn opened.request)) (s.setReadyState opened.conn .open)

/-- A segment lets one connection in, or none. -/
inductive Registers (s : YjsServer Document Awareness) (t : YjsTrigger cfg) (g : YjsStep cfg) : Prop where
  | retains (written : Option DocId) (h : Retains written s g.state)
      (hrejected : ∀ opened, Handled cfg opened t → ¬Passes cfg s opened)
  | enters (opened : Opened cfg.toLowerCase) (s₁ : YjsServer Document Awareness)
      (harrives : Arrives cfg s opened t s₁) (hpasses : Passes cfg s₁ opened)
      (hstate : g.state = (register cfg s₁ opened).state)

theorem opened_ext {opened opened' : Opened cfg.toLowerCase} (hconn : opened.conn = opened'.conn)
    (hrequest : opened.request = opened'.request) : opened = opened' := by
  obtain ⟨conn, request, roomName, hname⟩ := opened
  obtain ⟨conn', request', roomName', hname'⟩ := opened'
  dsimp only at hconn hrequest
  subst hconn hrequest
  obtain rfl := Option.some.inj (hname.symm.trans hname')
  rfl

section
variable {s : YjsServer Document Awareness} {t : YjsTrigger cfg} {g : YjsStep cfg}

theorem handled_unique {opened opened' : Opened cfg.toLowerCase} (h : Handled cfg opened t)
    (h' : Handled cfg opened' t) : opened' = opened := by
  rcases h with rfl | ⟨-, rfl⟩ <;> rcases h' with h' | ⟨-, h'⟩
  · injection h' with h'
    injection h' with h'
    exact h'.symm
  · cases h'
  · cases h'
  · injection h' with h'
    injection h' with hconn hrequest
    exact opened_ext cfg hconn.symm hrequest.symm

theorem Retains.opened {conn : ConnId} (hnew : (s.sockets conn).readyState = .connecting) :
    Retains none s (s.setReadyState conn .open) :=
  Retains.setReadyState (by simp [Socket.alive, hnew]) (by simp [hnew])

theorem Arrives.spec {s₁ : YjsServer Document Awareness} {opened : Opened cfg.toLowerCase}
    (h : Arrives cfg s opened t s₁) :
    Handled cfg opened t ∧ Retains none s s₁ ∧ s₁.rooms = s.rooms := by
  cases h with
  | checked => exact ⟨.inl rfl, Retains.refl s, rfl⟩
  | unchecked haccess hnew => exact ⟨.inr ⟨haccess, rfl⟩, Retains.opened hnew, rfl⟩

theorem passes_congr {s₁ : YjsServer Document Awareness} (hrooms : s₁.rooms = s.rooms)
    (opened : Opened cfg.toLowerCase) : Passes cfg s₁ opened ↔ Passes cfg s opened := by
  unfold Passes YjsServer.getRoom
  rw [hrooms]

theorem admitConnection_registers {s₁ : YjsServer Document Awareness} {opened : Opened cfg.toLowerCase}
    (harrives : Arrives cfg s opened t s₁) : Registers cfg s t (admitConnection cfg s₁ opened) := by
  obtain ⟨ht, hretains, hrooms⟩ := harrives.spec
  rcases admitConnection_cases cfg s₁ opened with ⟨hpasses, heq⟩ | ⟨hrejected, frame, heq⟩
  · exact .enters opened s₁ harrives hpasses (by rw [heq])
  · refine .retains none (heq ▸ hretains.trans (Retains.closeSocket cfg _ frame)) fun opened' ht' => ?_
    rw [handled_unique cfg ht ht', ← passes_congr cfg hrooms]
    exact hrejected

/-- **A segment lets a connection in or keeps them out.** -/
theorem fire_registers (hnames : (s.docs.map Prod.fst).Nodup)
    (hfire : (yjsServer cfg).fire s t = some g) : Registers cfg s t g := by
  cases fire_cases hfire with
  | connects conn request hnew =>
    have hretains : Retains none s (s.setReadyState conn .open) := Retains.opened hnew
    obtain ⟨hthrows, hg⟩ | ⟨opened, rfl, rfl, hg⟩ := onConnection_cases cfg s conn request
    · rw [hg]
      refine .retains none hretains fun opened ht => ?_
      rcases ht with ht | ⟨-, ht⟩
      · cases ht
      · cases ht
        rw [opened.extracted] at hthrows
        cases hthrows
    · rw [hg]
      split_ifs with haccess
      · refine .retains none hretains fun opened' ht => ?_
        rcases ht with ht | ⟨hnone, -⟩
        · cases ht
        · rw [haccess] at hnone
          cases hnone
      · exact admitConnection_registers cfg (.unchecked (Bool.eq_false_iff.mpr haccess) hnew)
  | admits opened => exact admitConnection_registers cfg .checked
  | applies conn d size message hjoined =>
    refine .retains (some d) (Retains.onDoc cfg ?_ ?_) ?_
    · exact Keeps.onDoc cfg (Narrows.handleIncomingMessage cfg.yjs _ _ conn size message _)
        fun hne => absurd rfl hne
    · exact (HoldsBut.rule cfg.yjs _ _).handleIncomingMessage _ _ conn size message (HoldsBut.refl _ _)
    · rintro opened (ht | ⟨-, ht⟩) <;> cases ht
  | denies task haccess =>
    refine .retains none (Retains.closeSocket cfg _ _) ?_
    rintro opened (ht | ⟨-, ht⟩) <;> cases ht
  | closing conn hopen =>
    refine .retains none (Retains.setReadyState (fun _ => .inl rfl) (by simp [hopen])) ?_
    rintro opened (ht | ⟨-, ht⟩) <;> cases ht
  | closes conn haccepted =>
    have hclosed : Retains none s (s.setReadyState conn .closed) :=
      Retains.setReadyState (fun _ => .inr rfl) fun _ => rfl
    refine .retains none ?_ ?_
    · unfold onClose
      dsimp only
      split
      · exact hclosed
      · exact hclosed.trans (Retains.closeConn cfg _ conn)
    · rintro opened (ht | ⟨-, ht⟩) <;> cases ht
  | sendFails conn d hjoined =>
    refine .retains none (Retains.closeConn cfg d conn) ?_
    rintro opened (ht | ⟨-, ht⟩) <;> cases ht
  | pingFails conn d hjoined =>
    refine .retains none (Retains.closeConn cfg d conn) ?_
    rintro opened (ht | ⟨-, ht⟩) <;> cases ht
  | creates roomCode yjsToken =>
    refine .retains none ?_ ?_
    · unfold createRoom
      split_ifs <;> exact (Retains.refl s).withRooms _
    · rintro opened (ht | ⟨-, ht⟩) <;> cases ht
  | rotates roomCode yjsToken =>
    refine .retains none ((Retains.refl s).withRooms _) ?_
    rintro opened (ht | ⟨-, ht⟩) <;> cases ht
  | destroys roomCode =>
    refine .retains none ?_ ?_
    · unfold destroyRoom
      dsimp only
      split_ifs
      · exact (Retains.destroySharedDoc cfg hnames _).1.withRooms _
      · exact Retains.refl s
    · rintro opened (ht | ⟨-, ht⟩) <;> cases ht
  | shuts =>
    refine .retains none (Retains.destroyAllSharedDocs cfg hnames) ?_
    rintro opened (ht | ⟨-, ht⟩) <;> cases ht
  | _ =>
    refine .retains none (Retains.refl _) ?_
    rintro opened (ht | ⟨-, ht⟩) <;> cases ht

end

end
end
end CodeShare.Ws
