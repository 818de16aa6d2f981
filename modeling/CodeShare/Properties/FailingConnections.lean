import CodeShare.Foundations.Enumeration
import CodeShare.Ws.Broadcasts
import CodeShare.Ws.Registrations

/-! # Failing connections

A broadcast removes the connections that it cannot send to, and every removal is a broadcast of its own. What is left
are the healthy connections, with the update and one removal for each connection that had awareness states.
-/

namespace CodeShare.Ws
set_option autoImplicit false

section
variable {Document Awareness Payload : Type} (yjs : Yjs Document Awareness Payload)

/-- What is documented of `removeAwarenessStates`: it removes the states that are there and reports them. -/
structure RemovesStates : Prop where
  removed : ∀ awareness clients, clients.Nodup →
    (yjs.removeAwarenessStates awareness clients).2 = clients.filter (· ∈ yjs.getStates awareness)
  states : ∀ awareness clients id, id ∈ yjs.getStates (yjs.removeAwarenessStates awareness clients).1 ↔
    id ∈ yjs.getStates awareness ∧ id ∉ clients

/-- A map from connections to sets of clients, of which no two share a client. -/
structure Separated (conns : List (ConnId × List ClientId)) : Prop where
  names : (conns.map Prod.fst).Nodup
  sets : ∀ c ∈ conns, c.2.Nodup
  disjoint : ∀ c ∈ conns, ∀ c' ∈ conns, c.1 ≠ c'.1 → c.2.Disjoint c'.2

/-- The connection is open, and its `send` does not throw. -/
def Hub.healthy (w : Hub Document Awareness Payload) (conn : ConnId) : Bool :=
  decide ((w.sockets conn).readyState = .open) && !(w.sockets conn).sendThrows

/-- The messages to a connection. -/
def sentTo (conn : ConnId) (out : List (WsEffect Payload)) : List (Message Payload) :=
  out.filterMap fun
    | .sent other message => if other = conn then some message else none
    | _ => none

/-- The states that a connection controls and that are present. -/
def presentIds (w : Hub Document Awareness Payload) (conn : ConnId) : List ClientId :=
  (w.doc.controlledIds conn).filter (· ∈ yjs.getStates w.doc.awareness)

/-- The removals of the states of some connections, each encoded from the awareness of its time. -/
def removalMessages (awareness : ConnId → Awareness) (w : Hub Document Awareness Payload) (removed : List ConnId) :
    List (Message Payload) :=
  (removed.filter fun c => presentIds yjs w c ≠ []).map fun c => awarenessMessage yjs (awareness c) (presentIds yjs w c)

/-- The hub when some connections have been removed. -/
structure Removal (w w' : Hub Document Awareness Payload) (removed : List ConnId) : Prop where
  conns : w'.doc.conns = w.doc.conns.filter (·.1 ∉ removed)
  nodup : removed.Nodup
  failing : ∀ c ∈ removed, w.doc.has c = true ∧ w.healthy c = false
  sockets : ∀ c, c ∉ removed → w'.sockets c = w.sockets c
  states : ∀ id, id ∈ yjs.getStates w'.doc.awareness ↔
    id ∈ yjs.getStates w.doc.awareness ∧ ∀ c ∈ removed, id ∉ w.doc.controlledIds c

/-- What has been sent since then to the healthy connections. -/
def Sent (w w' : Hub Document Awareness Payload) (messages : ConnId → List (Message Payload)) : Prop :=
  ∃ new, w'.out = w.out ++ new ∧
    ∀ c, w.doc.has c = true → w.healthy c = true → (sentTo c new).Perm (messages c)

/-- In the awareness of its removal no state of the connection is left. -/
def Gone (awareness : ConnId → Awareness) (w : Hub Document Awareness Payload) (removed : List ConnId) : Prop :=
  ∀ c ∈ removed, ∀ id ∈ presentIds yjs w c, id ∉ yjs.getStates (awareness c)

variable {yjs} {w w₁ w₂ : Hub Document Awareness Payload} {removed removed' : List ConnId}
  {awareness awareness' : ConnId → Awareness} {messages messages' : ConnId → List (Message Payload)}

/-! ## Connections -/

theorem healthy_congr {conn : ConnId} (h : w₁.sockets conn = w.sockets conn) : w₁.healthy conn = w.healthy conn := by
  unfold Hub.healthy
  rw [h]

theorem Separated.filter {conns : List (ConnId × List ClientId)} (h : Separated conns)
    (p : ConnId × List ClientId → Bool) : Separated (conns.filter p) where
  names := h.names.sublist (List.filter_sublist.map Prod.fst)
  sets c hc := h.sets c (List.mem_filter.mp hc).1
  disjoint c hc c' hc' := h.disjoint c (List.mem_filter.mp hc).1 c' (List.mem_filter.mp hc').1

theorem exists_conn {doc : WSSharedDoc Document Awareness} (h : Separated doc.conns) {conn : ConnId}
    (hconn : doc.has conn = true) : ∃ c ∈ doc.conns, c.1 = conn ∧ doc.controlledIds conn = c.2 := by
  obtain ⟨c, hc, rfl⟩ := List.mem_map.mp (has_iff_mem.mp hconn)
  refine ⟨c, hc, rfl, ?_⟩
  unfold WSSharedDoc.controlledIds
  rw [Enumeration.find_of_mem h.names hc]
  rfl

/-- No two connections control the same client. -/
theorem controlledIds_disjoint {doc : WSSharedDoc Document Awareness} (h : Separated doc.conns) {conn conn' : ConnId}
    (hconn : doc.has conn = true) (hconn' : doc.has conn' = true) (hne : conn ≠ conn') {id : ClientId}
    (hid : id ∈ doc.controlledIds conn) : id ∉ doc.controlledIds conn' := by
  obtain ⟨c, hc, rfl, hids⟩ := exists_conn h hconn
  obtain ⟨c', hc', rfl, hids'⟩ := exists_conn h hconn'
  rw [hids] at hid
  rw [hids']
  exact fun hid' => h.disjoint c hc c' hc' hne hid hid'

theorem sentTo_append (conn : ConnId) (out new : List (WsEffect Payload)) :
    sentTo conn (out ++ new) = sentTo conn out ++ sentTo conn new := List.filterMap_append

/-! ## One removal behind another -/

section
variable (h : Removal yjs w w₁ removed)
include h

theorem Removal.has_iff (conn : ConnId) : w₁.doc.has conn = true ↔ w.doc.has conn = true ∧ conn ∉ removed := by
  rw [has_iff_mem, has_iff_mem, h.conns]
  simp [and_comm]

theorem Removal.controlledIds {conn : ConnId} (hconn : conn ∉ removed) :
    w₁.doc.controlledIds conn = w.doc.controlledIds conn := by
  unfold WSSharedDoc.controlledIds
  rw [h.conns, List.find?_filter]
  congr 3
  funext c
  by_cases hname : c.1 = conn
  · simp [hname, hconn]
  · simp [hname]

theorem Removal.presentIds (hw : Separated w.doc.conns) {conn : ConnId} (hhas : w.doc.has conn = true)
    (hconn : conn ∉ removed) : presentIds yjs w₁ conn = presentIds yjs w conn := by
  unfold Ws.presentIds
  rw [h.controlledIds hconn]
  apply List.filter_congr
  intro id hid
  rw [decide_eq_decide, h.states, and_iff_left]
  intro c hc
  exact controlledIds_disjoint hw hhas (h.failing c hc).1 (fun heq => hconn (heq ▸ hc)) hid

theorem Removal.stays {conn : ConnId} (hhas : w.doc.has conn = true) (hhealthy : w.healthy conn = true) :
    w₁.doc.has conn = true ∧ w₁.healthy conn = true := by
  have hconn : conn ∉ removed := by
    intro hm
    rw [(h.failing conn hm).2] at hhealthy
    cases hhealthy
  exact ⟨(h.has_iff conn).mpr ⟨hhas, hconn⟩, (healthy_congr (h.sockets conn hconn)).trans hhealthy⟩

theorem Removal.separated (hw : Separated w.doc.conns) : Separated w₁.doc.conns := by
  rw [h.conns]
  exact hw.filter _

theorem Removal.length_le : w₁.doc.conns.length ≤ w.doc.conns.length := by
  rw [h.conns]
  exact List.length_filter_le _ _

variable (h' : Removal yjs w₁ w₂ removed')
include h'

/-- What is removed later has not been removed before. -/
theorem Removal.apart {conn : ConnId} (hconn : conn ∈ removed') : w.doc.has conn = true ∧ conn ∉ removed :=
  (h.has_iff conn).mp (h'.failing conn hconn).1

theorem Removal.trans : Removal yjs w w₂ (removed ++ removed') where
  conns := by
    rw [h'.conns, h.conns, List.filter_filter]
    apply List.filter_congr
    intro c _
    simp [Bool.and_comm]
  nodup := List.nodup_append.mpr ⟨h.nodup, h'.nodup, fun c hc c' hc' heq =>
    (h.apart h' hc').2 (heq ▸ hc)⟩
  failing c hc := by
    rcases List.mem_append.mp hc with hc | hc
    · exact h.failing c hc
    · obtain ⟨hhas, hnew⟩ := h.apart h' hc
      exact ⟨hhas, (healthy_congr (h.sockets c hnew)).symm.trans (h'.failing c hc).2⟩
  sockets c hc := by
    obtain ⟨hc, hc'⟩ := not_or.mp (mt List.mem_append.mpr hc)
    rw [h'.sockets c hc', h.sockets c hc]
  states id := by
    rw [h'.states, h.states, and_assoc]
    refine and_congr_right fun _ => ?_
    rw [List.forall_mem_append]
    refine and_congr_right fun _ => forall₂_congr fun c hc => ?_
    rw [h.controlledIds (h.apart h' hc).2]

theorem Removal.removalMessages_append (hw : Separated w.doc.conns) :
    removalMessages yjs (fun c => if c ∈ removed then awareness c else awareness' c) w (removed ++ removed') =
      removalMessages yjs awareness w removed ++ removalMessages yjs awareness' w₁ removed' := by
  unfold removalMessages
  rw [List.filter_append, List.map_append]
  congr 1
  · apply List.map_congr_left
    intro c hc
    dsimp only
    rw [if_pos (List.mem_filter.mp hc).1]
  · have hsame : ∀ c ∈ removed', Ws.presentIds yjs w c = Ws.presentIds yjs w₁ c := fun c hc =>
      (h.presentIds hw (h.apart h' hc).1 (h.apart h' hc).2).symm
    rw [List.filter_congr fun c hc => by rw [hsame c hc]]
    apply List.map_congr_left
    intro c hc
    have hc := (List.mem_filter.mp hc).1
    dsimp only
    rw [if_neg (h.apart h' hc).2, hsame c hc]

theorem Gone.append (hw : Separated w.doc.conns) (hgone : Gone yjs awareness w removed)
    (hgone' : Gone yjs awareness' w₁ removed') :
    Gone yjs (fun c => if c ∈ removed then awareness c else awareness' c) w (removed ++ removed') := by
  intro c hc id hid
  dsimp only
  rcases List.mem_append.mp hc with hc | hc
  · rw [if_pos hc]
    exact hgone c hc id hid
  · obtain ⟨hhas, hnew⟩ := h.apart h' hc
    rw [if_neg hnew]
    exact hgone' c hc id (by rwa [h.presentIds hw hhas hnew])

end

theorem Sent.trans (h : Removal yjs w w₁ removed) (hsent : Sent w w₁ messages) (hsent' : Sent w₁ w₂ messages') :
    Sent w w₂ fun c => messages c ++ messages' c := by
  obtain ⟨new, hout, hnew⟩ := hsent
  obtain ⟨new', hout', hnew'⟩ := hsent'
  refine ⟨new ++ new', by rw [hout', hout, List.append_assoc], fun c hhas hhealthy => ?_⟩
  obtain ⟨hhas', hhealthy'⟩ := h.stays hhas hhealthy
  rw [sentTo_append]
  exact (hnew c hhas hhealthy).append (hnew' c hhas' hhealthy')

/-! ## Outcomes -/

variable (yjs) in
/-- Some failing connections have been removed; the others have been sent some messages and the removals. -/
def Outcome (w w' : Hub Document Awareness Payload) (messages : ConnId → List (Message Payload)) : Prop :=
  ∃ removed awareness, Removal yjs w w' removed ∧ Gone yjs awareness w removed ∧
    Sent w w' fun c => messages c ++ removalMessages yjs awareness w removed

theorem Removal.of_same (hdoc : w₁.doc = w.doc) (hsockets : w₁.sockets = w.sockets) : Removal yjs w w₁ [] where
  conns := by simp [hdoc]
  nodup := List.nodup_nil
  failing _ hc := nomatch hc
  sockets c _ := congrFun hsockets c
  states id := by simp [hdoc]

/-- Messages to healthy connections alone. -/
theorem Outcome.of_sent (hdoc : w₁.doc = w.doc) (hsockets : w₁.sockets = w.sockets) (hsent : Sent w w₁ messages) :
    Outcome yjs w w₁ messages := by
  refine ⟨[], fun _ => w.doc.awareness, .of_same hdoc hsockets, fun _ hc => (nomatch hc), ?_⟩
  simpa [removalMessages] using hsent

theorem Outcome.congr (h : Outcome yjs w w₁ messages)
    (hsame : ∀ c, w.doc.has c = true → w.healthy c = true → messages c = messages' c) :
    Outcome yjs w w₁ messages' := by
  obtain ⟨removed, awareness, hremoval, hgone, new, hout, hnew⟩ := h
  refine ⟨removed, awareness, hremoval, hgone, new, hout, fun c hhas hhealthy => ?_⟩
  dsimp only
  rw [← hsame c hhas hhealthy]
  exact hnew c hhas hhealthy

theorem Outcome.trans (hw : Separated w.doc.conns) (h : Outcome yjs w w₁ messages)
    (h' : Outcome yjs w₁ w₂ messages') : Outcome yjs w w₂ fun c => messages c ++ messages' c := by
  obtain ⟨removed, awareness, hremoval, hgone, hsent⟩ := h
  obtain ⟨removed', at', hremoval', hgone', hsent'⟩ := h'
  refine ⟨removed ++ removed', _, hremoval.trans hremoval', hgone.append hremoval hremoval' hw hgone', ?_⟩
  obtain ⟨new, hout, hnew⟩ := Sent.trans hremoval hsent hsent'
  refine ⟨new, hout, fun c hhas hhealthy => (hnew c hhas hhealthy).trans ?_⟩
  dsimp only
  rw [hremoval.removalMessages_append hremoval' hw, List.append_assoc, List.append_assoc]
  apply List.Perm.append_left
  rw [← List.append_assoc, ← List.append_assoc]
  exact List.perm_append_comm.append_right _

/-- Closing the websocket of a removed connection. -/
theorem Outcome.close (h : Outcome yjs w w₁ messages) {conn : ConnId} (hhas : w.doc.has conn = true)
    (hremoved : w₁.doc.has conn = false) (frame : Option CloseFrame) :
    Outcome yjs w (w₁.close conn frame) messages := by
  obtain ⟨removed, awareness, hremoval, hgone, new, hout, hnew⟩ := h
  have hconn : conn ∈ removed := by
    by_contra hconn
    rw [(hremoval.has_iff conn).mpr ⟨hhas, hconn⟩] at hremoved
    cases hremoved
  unfold Hub.close
  split_ifs with halive
  · refine ⟨removed, awareness, ⟨hremoval.conns, hremoval.nodup, hremoval.failing, fun c hc => ?_, hremoval.states⟩,
      hgone, new ++ [.closed conn frame], ?_, fun c hhas hhealthy => ?_⟩
    · rw [← hremoval.sockets c hc]
      have hne : c ≠ conn := fun heq => hc (heq ▸ hconn)
      exact Function.update_of_ne hne _ _
    · rw [← List.append_assoc, ← hout]
      rfl
    · rw [sentTo_append]
      exact (List.append_nil _).symm ▸ hnew c hhas hhealthy
  · exact ⟨removed, awareness, hremoval, hgone, new, hout, hnew⟩

/-! ## Sending -/

section
variable {f : ConnId → Hub Document Awareness Payload → Hub Document Awareness Payload} {message : Message Payload}
  {conn : ConnId}

theorem sendWith_healthy (h : w.healthy conn = true) :
    sendWith f message w conn = w.emit (.sent conn message) := by
  simp only [Hub.healthy, Bool.and_eq_true, decide_eq_true_eq, Bool.not_eq_true'] at h
  have halive : (w.sockets conn).alive = true := by simp [Socket.alive, h.1]
  unfold sendWith Hub.send
  rw [if_pos halive, if_neg (by simp [h.1, h.2]), if_pos h.1]
  rfl

theorem sendWith_failing (h : w.healthy conn = false) : sendWith f message w conn = f conn w := by
  unfold sendWith
  split_ifs with halive
  · have hthrows : (w.sockets conn).sendThrows = true ∨ (w.sockets conn).readyState = .connecting := by
      simp only [Socket.alive, decide_eq_true_eq] at halive
      simp only [Hub.healthy, Bool.and_eq_false_iff, decide_eq_false_iff_not, Bool.not_eq_false'] at h
      tauto
    unfold Hub.send
    rw [if_pos hthrows]
    rfl
  · rfl

/-- A way of removing failing connections. -/
structure Removes (yjs : Yjs Document Awareness Payload) (limit : ℕ)
    (f : ConnId → Hub Document Awareness Payload → Hub Document Awareness Payload) : Prop where
  outcome : ∀ conn w, w.doc.conns.length ≤ limit → Separated w.doc.conns → w.doc.has conn = true →
    w.healthy conn = false → Outcome yjs w (f conn w) fun _ => []
  gone : ∀ conn w, (f conn w).doc.has conn = false

/-- One turn of the loop. -/
theorem turn_outcome {limit : ℕ} (hf : Removes yjs limit f) (hlimit : w.doc.conns.length ≤ limit)
    (hw : Separated w.doc.conns) :
    Outcome yjs w (if w.doc.has conn then sendWith f message w conn else w)
      fun c => if c = conn then [message] else [] := by
  by_cases hhas : w.doc.has conn = true
  · rw [if_pos hhas]
    by_cases hhealthy : w.healthy conn = true
    · rw [sendWith_healthy hhealthy]
      refine Outcome.of_sent rfl rfl ⟨[.sent conn message], rfl, fun c _ _ => ?_⟩
      by_cases hc : conn = c
      · subst hc
        simp [sentTo]
      · simp [sentTo, hc, Ne.symm hc]
    · rw [Bool.not_eq_true] at hhealthy
      rw [sendWith_failing hhealthy]
      refine (hf.outcome conn w hlimit hw hhas hhealthy).congr fun c _ hc => ?_
      rw [if_neg]
      rintro rfl
      rw [hhealthy] at hc
      cases hc
  · rw [if_neg hhas]
    refine Outcome.of_sent rfl rfl ⟨[], (List.append_nil _).symm, fun c hc _ => ?_⟩
    have hne : c ≠ conn := fun heq => hhas (heq ▸ hc)
    dsimp only
    rw [if_neg hne]
    exact List.Perm.refl _

/-- The loop serves each of its targets once, and leaves none that fails. -/
theorem loop_outcome (message : Message Payload) {limit : ℕ} (hf : Removes yjs limit f)
    {targets : List ConnId} (htargets : targets.Nodup) (hlimit : w.doc.conns.length ≤ limit) (hw : Separated w.doc.conns) :
    Outcome yjs w (targets.foldl (fun w conn => if w.doc.has conn then sendWith f message w conn else w) w)
        (fun c => if c ∈ targets then [message] else []) ∧
      ∀ c ∈ targets, w.healthy c = false →
        (targets.foldl (fun w conn => if w.doc.has conn then sendWith f message w conn else w) w).doc.has c = false := by
  induction targets generalizing w with
  | nil => exact ⟨Outcome.of_sent rfl rfl ⟨[], (List.append_nil _).symm, fun _ _ _ => List.Perm.refl _⟩,
      fun _ hc => nomatch hc⟩
  | cons conn targets ih =>
    obtain ⟨hconn, hrest⟩ := List.nodup_cons.mp htargets
    rw [List.foldl_cons]
    have hturn : Outcome yjs w (if w.doc.has conn then sendWith f message w conn else w)
        fun c => if c = conn then [message] else [] := turn_outcome hf hlimit hw
    have hself : w.healthy conn = false →
        (if w.doc.has conn then sendWith f message w conn else w).doc.has conn = false := by
      intro hfails
      by_cases hhas : w.doc.has conn = true
      · rw [if_pos hhas, sendWith_failing hfails]
        exact hf.gone conn w
      · rw [if_neg hhas]
        exact Bool.eq_false_iff.mpr hhas
    generalize (if w.doc.has conn then sendWith f message w conn else w) = w₁ at hturn hself ⊢
    obtain ⟨removed, awareness, hremoval, hturn'⟩ := id hturn
    obtain ⟨houtcome, hgone⟩ := ih hrest (hremoval.length_le.trans hlimit) (hremoval.separated hw)
    obtain ⟨removed', awareness', hremoval', -⟩ := id houtcome
    constructor
    · refine (hturn.trans hw houtcome).congr fun c _ _ => ?_
      by_cases hc : c = conn
      · subst hc
        simp [hconn]
      · simp [hc]
    · intro c hc hfails
      by_cases hstays : w₁.doc.has c = true
      · rcases List.mem_cons.mp hc with rfl | hc
        · rw [hself hfails] at hstays
          cases hstays
        · exact hgone c hc ((healthy_congr (hremoval.sockets c ((hremoval.has_iff c).mp hstays).2)).trans hfails)
      · exact Bool.eq_false_iff.mpr fun hhas => hstays ((hremoval'.has_iff c).mp hhas).1

theorem broadcastWith_outcome (message : Message Payload) {limit : ℕ} (hf : Removes yjs limit f)
    (hlimit : w.doc.conns.length ≤ limit) (hw : Separated w.doc.conns) :
    Outcome yjs w (broadcastWith f message w) (fun _ => [message]) ∧
      ∀ c, w.healthy c = false → (broadcastWith f message w).doc.has c = false := by
  obtain ⟨houtcome, hgone⟩ := loop_outcome message hf hw.names hlimit hw
  refine ⟨houtcome.congr fun c hhas _ => if_pos (has_iff_mem.mp hhas), fun c hfails => ?_⟩
  by_cases hhas : w.doc.has c = true
  · exact hgone c (has_iff_mem.mp hhas) hfails
  · obtain ⟨removed, -, hremoval, -⟩ := houtcome
    exact Bool.eq_false_iff.mpr fun hstays => hhas ((hremoval.has_iff c).mp hstays).1

end

/-! ## Removing a connection -/

section
variable (hyjs : RemovesStates yjs) {conn : ConnId}
include hyjs

theorem removed_eq (hw : Separated w.doc.conns) (hhas : w.doc.has conn = true) :
    (yjs.removeAwarenessStates w.doc.awareness (w.doc.controlledIds conn)).2 = presentIds yjs w conn := by
  obtain ⟨c, hc, -, hids⟩ := exists_conn hw hhas
  exact hyjs.removed _ _ (hids ▸ hw.sets c hc)

/-- The connection and its states leave the document. -/
theorem removal_single (hhas : w.doc.has conn = true) (hfails : w.healthy conn = false) :
    Removal yjs w { w with doc := { w.doc.delete conn with
      awareness := (yjs.removeAwarenessStates w.doc.awareness (w.doc.controlledIds conn)).1 } } [conn] where
  conns := by
    apply List.filter_congr
    intro c _
    simp
  nodup := List.nodup_singleton _
  failing _ hc := List.mem_singleton.mp hc ▸ ⟨hhas, hfails⟩
  sockets _ _ := rfl
  states id := by
    rw [List.forall_mem_singleton]
    exact hyjs.states _ _ id

/-- A removal broadcasts the removal of the states, if there are any. -/
theorem removal_outcome {limit : ℕ} (hf : Removes yjs limit (closeConn yjs none))
    (hlimit : w.doc.conns.length ≤ limit + 1) (hw : Separated w.doc.conns) (hhas : w.doc.has conn = true)
    (hfails : w.healthy conn = false) {awareness : Awareness} {ids : List ClientId}
    (heq : yjs.removeAwarenessStates w.doc.awareness (w.doc.controlledIds conn) = (awareness, ids)) :
    Outcome yjs w (if ids = [] then { w with doc := { w.doc.delete conn with awareness := awareness } }
      else broadcast yjs (awarenessMessage yjs awareness ids)
        { w with doc := { w.doc.delete conn with awareness := awareness } }) fun _ => [] := by
  have hremoval := removal_single hyjs hhas hfails
  have hpresent := removed_eq hyjs hw hhas
  have hgone : Gone yjs (fun _ => awareness) w [conn] := by
    intro c hc id hid hstays
    obtain rfl := List.mem_singleton.mp hc
    have hstates := hyjs.states w.doc.awareness (w.doc.controlledIds c) id
    rw [heq] at hstates
    exact (hstates.mp hstays).2 (List.mem_filter.mp hid).1
  rw [heq] at hremoval hpresent
  dsimp only at hremoval hpresent
  by_cases hnone : ids = []
  · rw [if_pos hnone]
    refine ⟨[conn], _, hremoval, hgone, [], (List.append_nil _).symm, fun c _ _ => ?_⟩
    simp [removalMessages, ← hpresent, hnone, sentTo]
  · rw [if_neg hnone]
    have hlt : (w.doc.delete conn).conns.length < w.doc.conns.length := delete_length_lt hhas
    have hlimit' : (w.doc.delete conn).conns.length ≤ limit := by omega
    obtain ⟨⟨removed, awareness', hremoval', hgone', new, hout, hnew⟩, -⟩ :=
      broadcastWith_outcome (awarenessMessage yjs awareness ids) hf hlimit' (hremoval.separated hw)
    refine ⟨[conn] ++ removed, _, hremoval.trans hremoval', hgone.append hremoval hremoval' hw hgone', new, hout,
      fun c hhas hhealthy => ?_⟩
    obtain ⟨hhas', hhealthy'⟩ := hremoval.stays hhas hhealthy
    refine (hnew c hhas' hhealthy').trans ?_
    dsimp only
    rw [hremoval.removalMessages_append hremoval' hw, List.nil_append]
    apply List.Perm.append_right
    simp [removalMessages, ← hpresent, hnone]

theorem removes_closeConn (limit : ℕ) (frame : Option CloseFrame) : Removes yjs limit (closeConn yjs frame) := by
  refine ⟨?_, fun conn w => closeConn_has_self yjs frame conn w⟩
  induction limit generalizing frame with
  | zero =>
    intro conn w hlimit _ hhas
    rw [has_iff_mem, List.length_eq_zero_iff.mp (Nat.le_zero.mp hlimit)] at hhas
    cases hhas
  | succ limit ih =>
    intro conn w hlimit hw hhas hfails
    have hf : Removes yjs limit (closeConn yjs none) := ⟨ih none, fun conn w => closeConn_has_self yjs none conn w⟩
    obtain ⟨awareness, ids, hids⟩ : ∃ awareness ids,
        yjs.removeAwarenessStates w.doc.awareness (w.doc.controlledIds conn) = (awareness, ids) := ⟨_, _, rfl⟩
    have houtcome := removal_outcome hyjs hf hlimit hw hhas hfails hids
    have hself := closeConn_has_self yjs frame conn w
    rw [closeConn_eq, closeConnWith, if_pos hhas, hids] at hself ⊢
    dsimp only at hself ⊢
    refine houtcome.close hhas ?_ frame
    unfold WSSharedDoc.has at hself ⊢
    rwa [close_doc] at hself

end

/-! ## Deliveries -/

/-- The connections that fail, in the order of their registrations. -/
def Hub.failing (w : Hub Document Awareness Payload) : List ConnId :=
  (w.doc.conns.map Prod.fst).filter fun c => !w.healthy c

variable (yjs) in
/-- The healthy connections are left, and each has been sent the message and the removals. -/
structure Delivered (w w' : Hub Document Awareness Payload) (message : Message Payload) : Prop where
  registered : w'.doc.conns = w.doc.conns.filter fun c => w.healthy c.1
  sent : ∃ awareness : ConnId → Awareness, Gone yjs awareness w w.failing ∧
    Sent w w' fun _ => message :: removalMessages yjs awareness w w.failing

theorem Outcome.delivered {message : Message Payload} (hw : Separated w.doc.conns)
    (h : Outcome yjs w w₁ fun _ => [message]) (hgone : ∀ c, w.healthy c = false → w₁.doc.has c = false) :
    Delivered yjs w w₁ message := by
  obtain ⟨removed, awareness, hremoval, hstates, new, hout, hnew⟩ := h
  have hremoved : ∀ c, c ∈ removed ↔ w.doc.has c = true ∧ w.healthy c = false := by
    refine fun c => ⟨hremoval.failing c, fun ⟨hhas, hfails⟩ => ?_⟩
    by_contra hc
    exact absurd ((hremoval.has_iff c).mpr ⟨hhas, hc⟩) (Bool.eq_false_iff.mp (hgone c hfails))
  have hperm : removed.Perm w.failing := by
    have hnodup : w.failing.Nodup := hw.names.filter _
    rw [List.perm_ext_iff_of_nodup hremoval.nodup hnodup]
    intro c
    rw [hremoved, has_iff_mem]
    simp [Hub.failing]
  constructor
  · rw [hremoval.conns]
    apply List.filter_congr
    intro c hc
    have hhas : w.doc.has c.1 = true := has_iff_mem.mpr (List.mem_map_of_mem hc)
    cases hhealthy : w.healthy c.1 with
    | true => simp [hremoved, hhealthy]
    | false => simp [hremoved, hhealthy, hhas]
  · refine ⟨awareness, fun c hc => hstates c (hperm.symm.subset hc), new, hout, fun c hhas hhealthy => ?_⟩
    refine (hnew c hhas hhealthy).trans ?_
    exact ((hperm.filter _).map _).cons message

end

/-- **Broadcast with failing connections.** However the connections fail, a broadcast returns before its calls are
nested deeper than there are connections. The healthy connections are left; each has been sent the update once, and
for each removed connection with awareness states one removal of these. -/
theorem broadcast_with_failing_connections {Document Awareness Payload : Type} {yjs : Yjs Document Awareness Payload}
    (hyjs : RemovesStates yjs) (update : SharedDocUpdate Payload) {w : Hub Document Awareness Payload}
    (hw : Separated (update.recorded w).doc.conns) :
    Delivered yjs (update.recorded w) (update.listener yjs w) (update.message yjs w) ∧
      ∀ depth, (update.recorded w).doc.conns.length < depth →
        broadcastRun (closeConnRun yjs depth none) (update.message yjs w) (update.recorded w) =
          some (update.listener yjs w) := by
  rw [SharedDocUpdate.listener_eq]
  constructor
  · obtain ⟨houtcome, hgone⟩ := broadcastWith_outcome (update.message yjs w)
      (removes_closeConn hyjs (update.recorded w).doc.conns.length none) (Nat.le_refl _) hw
    exact houtcome.delivered hw hgone
  · exact fun depth hdepth => broadcastRun_closeConnRun hdepth

/-- Documents whose removed states are reported in the order of the clients. -/
def exampleDocs : Yjs ℕ (List ClientId) ℕ :=
  { exampleYjs with
    removeAwarenessStates := fun awareness clients =>
      (awareness.filter (· ∉ clients), clients.filter (· ∈ awareness))
    encodeAwarenessUpdate := fun _ clients => clients.sum }

/-- The second connection is closed, and the `send` of the third throws. -/
def exampleHub : Hub ℕ (List ClientId) ℕ where
  doc := ⟨js "abc-xyz", 0, [(0, []), (1, [7]), (2, [8, 9]), (3, [5])], [5, 7, 8]⟩
  sockets conn := ⟨if conn = 1 then .closed else .open, conn = 2⟩
  out := []

theorem broadcast_with_failing_connections_example :
    Delivered exampleDocs exampleHub ((SharedDocUpdate.documentUpdate 4).listener exampleDocs exampleHub)
        (.syncUpdate 4) ∧
      ∀ depth, 4 < depth → broadcastRun (closeConnRun exampleDocs depth none) (.syncUpdate 4) exampleHub =
        some ((SharedDocUpdate.documentUpdate 4).listener exampleDocs exampleHub) := by
  have hdocs : RemovesStates exampleDocs := by
    constructor
    · exact fun _ _ _ => rfl
    · simp [exampleDocs, exampleYjs]
  have hhub : Separated exampleHub.doc.conns := ⟨by decide, by decide, by simp [exampleHub]⟩
  exact broadcast_with_failing_connections hdocs (.documentUpdate 4) hhub

example : sentTo 3 ((SharedDocUpdate.documentUpdate 4).listener exampleDocs exampleHub).out =
    [.awareness 8, .awareness 7, .syncUpdate 4] := by decide

end CodeShare.Ws
