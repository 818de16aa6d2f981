import CodeShare.Foundations.Views
import CodeShare.Server.System
import CodeShare.Ws.Membership

/-! # The room and its document

The Socket.IO server around one room and the Yjs server run in one process: the Yjs server looks up the
token that the room has now, and destroys the document with the room. Parties get tokens from the messages
of the first and present them to the second.
-/

namespace CodeShare
open Tasks
set_option autoImplicit false

/-- Only that the texts of two tokens differ is used of `randomBytes`. -/
structure SiteConfig (Document Awareness Payload : Type) where
  room : Config
  yjs : Ws.YjsServerConfig Document Awareness Payload
  roomCode : JsString
  normalized : Ws.normalizeRoomCode yjs.toLowerCase roomCode = roomCode
  tokenText : Token → JsString
  distinct : Function.Injective tokenText

structure Site (Document Awareness : Type) where
  room : Server
  yjs : Ws.YjsServer Document Awareness

section
variable {Document Awareness Payload : Type} (cfg : SiteConfig Document Awareness Payload)

abbrev SiteTask := Task ⊕ Ws.YjsTask cfg.yjs.toLowerCase Payload
abbrev SiteEvent (Payload : Type) := ServerEvent ⊕ Ws.YjsEvent Payload
abbrev SiteOutcome := Outcome ⊕ Ws.Validation
abbrev SiteEffect (Payload : Type) := Effect ⊕ Ws.WsEffect Payload
abbrev SiteStep := Segment (Site Document Awareness) (SiteTask cfg) (SiteEffect Payload)

/-- What becomes of the documents when the room changes: its listeners run when it is destroyed, and a new
token is looked up from then on. -/
def follow (yjs : Ws.YjsServer Document Awareness) (before after : Server) : Ws.YjsStep cfg.yjs :=
  if before.registered && !after.registered then Ws.destroyRoom cfg.yjs yjs cfg.roomCode
  else if after.room.yjsToken = before.room.yjsToken then Segment.of yjs
  else Segment.of (Ws.rotateToken yjs cfg.roomCode (cfg.tokenText after.room.yjsToken))

def ofRoom (s : Site Document Awareness) (g : Step) : SiteStep cfg :=
  let y := follow cfg s.yjs s.room g.state
  ⟨⟨g.state, y.state⟩, g.out.map .inl ++ y.out.map .inr, g.next.map .inl ++ y.next.map .inr⟩

def ofYjs (s : Site Document Awareness) (y : Ws.YjsStep cfg.yjs) : SiteStep cfg :=
  ⟨⟨s.room, y.state⟩, y.out.map .inr, y.next.map .inr⟩

/-- Other rooms come and go by themselves, and a websocket has no messages behind its close event. -/
def happens (yjs : Ws.YjsServer Document Awareness) : Ws.YjsEvent Payload → Prop
  | .message conn _ _ => (yjs.sockets conn).readyState ≠ .closed
  | .createRoom roomCode _ | .rotateToken roomCode _ => roomCode ≠ cfg.roomCode
  | .destroyRoom roomCode => Ws.normalizeRoomCode cfg.yjs.toLowerCase roomCode ≠ cfg.roomCode
  | _ => True

instance (yjs : Ws.YjsServer Document Awareness) :
    ∀ e : Ws.YjsEvent Payload, Decidable (happens cfg yjs e)
  | .message _ _ _ | .createRoom _ _ | .rotateToken _ _ | .destroyRoom _ =>
    inferInstanceAs (Decidable (_ ≠ _))
  | .connection _ _ | .closing _ | .close _ | .sendFailed _ | .pingFailed _ | .revalidate _ | .shutdown =>
    isTrue trivial

def handleSite (s : Site Document Awareness) : SiteEvent Payload → Option (SiteStep cfg)
  | .inl e => (handleEvent cfg.room s.room e).map (ofRoom cfg s)
  | .inr e =>
    if happens cfg s.yjs e then (Ws.handleYjs cfg.yjs s.yjs e).map (ofYjs cfg s) else none

def resumeSite (s : Site Document Awareness) :
    SiteTask cfg → SiteOutcome → Option (SiteStep cfg)
  | .inl task, .inl outcome => (resumeTask cfg.room s.room task outcome).map (ofRoom cfg s)
  | .inr task, .inr outcome => (Ws.resumeYjs cfg.yjs s.yjs task outcome).map (ofYjs cfg s)
  | _, _ => none

/-- Both servers as one machine. -/
def site : Machine (Site Document Awareness) (SiteTask cfg) (SiteEvent Payload) SiteOutcome
    (SiteEffect Payload) where
  handle := handleSite cfg
  resume := resumeSite cfg

abbrev SiteConf := Conf (Site Document Awareness) (SiteTask cfg)
abbrev SiteAct (Payload : Type) := Act (SiteEvent Payload) SiteOutcome
abbrev SiteTrigger := Trigger (SiteEvent Payload) (SiteTask cfg) SiteOutcome
abbrev SiteTurn := Turn (Site Document Awareness) (SiteTask cfg) (SiteEvent Payload) SiteOutcome
  (SiteEffect Payload)

/-- The room has just been created. -/
def initialSite (mode : RoomMode) (now : Time) : SiteConf cfg :=
  ⟨⟨initialServer cfg.room mode now,
    Ws.createRoom (Ws.initialYjs cfg.yjs).shared cfg.roomCode (cfg.tokenText 0)⟩, []⟩

/-! ## The two servers -/

def roomView : View (Site Document Awareness) (SiteTask cfg) (SiteEffect Payload) Server Task Effect :=
  ⟨Site.room, Sum.getLeft?, Sum.getLeft?⟩

def yjsView : View (Site Document Awareness) (SiteTask cfg) (SiteEffect Payload)
    (Ws.YjsServer Document Awareness) (Ws.YjsTask cfg.yjs.toLowerCase Payload) (Ws.WsEffect Payload) :=
  ⟨Site.yjs, Sum.getRight?, Sum.getRight?⟩

section
variable {α β : Type}

theorem filterMap_getLeft_inl (items : List α) :
    (items.map (Sum.inl : α → α ⊕ β)).filterMap Sum.getLeft? = items := by
  rw [List.filterMap_map]
  exact List.filterMap_some

theorem filterMap_getLeft_inr (items : List β) :
    (items.map (Sum.inr : β → α ⊕ β)).filterMap Sum.getLeft? = [] := by
  simp

theorem filterMap_getRight_inr (items : List β) :
    (items.map (Sum.inr : β → α ⊕ β)).filterMap Sum.getRight? = items := by
  rw [List.filterMap_map]
  exact List.filterMap_some

theorem filterMap_getRight_inl (items : List α) :
    (items.map (Sum.inl : α → α ⊕ β)).filterMap Sum.getRight? = [] := by
  simp

end

section
variable (s : Site Document Awareness)

theorem roomView_ofRoom (g : Step) : (roomView cfg).segment (ofRoom cfg s g) = g := by
  simp only [View.segment, roomView, ofRoom, List.filterMap_append, filterMap_getLeft_inl,
    filterMap_getLeft_inr, List.append_nil]

theorem roomView_ofYjs (y : Ws.YjsStep cfg.yjs) :
    (roomView cfg).segment (ofYjs cfg s y) = Segment.of s.room := by
  simp only [View.segment, roomView, ofYjs, filterMap_getLeft_inr, Segment.of]

theorem yjsView_ofRoom (g : Step) :
    (yjsView cfg).segment (ofRoom cfg s g) = follow cfg s.yjs s.room g.state := by
  simp only [View.segment, yjsView, ofRoom, List.filterMap_append, filterMap_getRight_inl,
    filterMap_getRight_inr, List.nil_append]

theorem yjsView_ofYjs (y : Ws.YjsStep cfg.yjs) : (yjsView cfg).segment (ofYjs cfg s y) = y := by
  simp only [View.segment, yjsView, ofYjs, filterMap_getRight_inr]

end

variable {cfg}

/-- A segment is one of the room's server, or one of the Yjs server. -/
inductive SiteFires (s : Site Document Awareness) : SiteTrigger cfg → SiteStep cfg → Prop where
  | roomEvent (e : ServerEvent) (g : Step) (h : (server cfg.room).fire s.room (.event e) = some g) :
      SiteFires s (.event (.inl e)) (ofRoom cfg s g)
  | roomTask (task : Task) (o : Outcome) (g : Step)
      (h : (server cfg.room).fire s.room (.task task o) = some g) :
      SiteFires s (.task (.inl task) (.inl o)) (ofRoom cfg s g)
  | yjsEvent (e : Ws.YjsEvent Payload) (y : Ws.YjsStep cfg.yjs) (hhappens : happens cfg s.yjs e)
      (h : (Ws.yjsServer cfg.yjs).fire s.yjs (.event e) = some y) :
      SiteFires s (.event (.inr e)) (ofYjs cfg s y)
  | yjsTask (task : Ws.YjsTask cfg.yjs.toLowerCase Payload) (o : Ws.Validation) (y : Ws.YjsStep cfg.yjs)
      (h : (Ws.yjsServer cfg.yjs).fire s.yjs (.task task o) = some y) :
      SiteFires s (.task (.inr task) (.inr o)) (ofYjs cfg s y)

theorem site_fires {s : Site Document Awareness} {t : SiteTrigger cfg} {g : SiteStep cfg}
    (h : (site cfg).fire s t = some g) : SiteFires s t g := by
  cases t with
  | event e =>
    cases e with
    | inl e =>
      obtain ⟨g', hg', rfl⟩ := Option.map_eq_some_iff.mp h
      exact .roomEvent e g' hg'
    | inr e =>
      change (if happens cfg s.yjs e then _ else none) = some g at h
      split_ifs at h with hhappens
      obtain ⟨y, hy, rfl⟩ := Option.map_eq_some_iff.mp h
      exact .yjsEvent e y hhappens hy
  | task task o =>
    cases task with
    | inl task =>
      cases o with
      | inl o =>
        obtain ⟨g', hg', rfl⟩ := Option.map_eq_some_iff.mp h
        exact .roomTask task o g' hg'
      | inr o => cases h
    | inr task =>
      cases o with
      | inl o => cases h
      | inr o =>
        obtain ⟨y, hy, rfl⟩ := Option.map_eq_some_iff.mp h
        exact .yjsTask task o y hy

theorem roomView_shows (s : Site Document Awareness) (t : SiteTrigger cfg) (g : SiteStep cfg)
    (h : (site cfg).fire s t = some g) : (roomView cfg).Shows (server cfg.room) s t g := by
  cases site_fires h with
  | roomEvent e g hroom =>
    refine .event _ _ e rfl ?_
    rw [roomView_ofRoom]
    exact hroom
  | roomTask task o g hroom =>
    refine .task _ _ _ task o rfl ?_
    rw [roomView_ofRoom]
    exact hroom
  | yjsEvent e y _ _ => exact .nothing _ _ rfl (roomView_ofYjs cfg s y)
  | yjsTask task o y _ => exact .nothing _ _ rfl (roomView_ofYjs cfg s y)

/-- The Yjs server sees the end of the room and its new tokens. -/
theorem follow_shows (s : Site Document Awareness) (t : SiteTrigger cfg) (g : Step)
    (htaken : t.taken.filterMap (yjsView cfg).task = []) :
    (yjsView cfg).Shows (Ws.yjsServer cfg.yjs) s t (ofRoom cfg s g) := by
  by_cases hends : (s.room.registered && !g.state.registered) = true
  · refine .event _ _ (.destroyRoom cfg.roomCode) htaken ?_
    rw [yjsView_ofRoom, follow, if_pos hends]
    rfl
  · by_cases hsame : g.state.room.yjsToken = s.room.room.yjsToken
    · refine .nothing _ _ htaken ?_
      rw [yjsView_ofRoom, follow, if_neg hends, if_pos hsame]
      rfl
    · refine .event _ _ (.rotateToken cfg.roomCode (cfg.tokenText g.state.room.yjsToken)) htaken ?_
      rw [yjsView_ofRoom, follow, if_neg hends, if_neg hsame]
      rfl

theorem yjsView_shows (s : Site Document Awareness) (t : SiteTrigger cfg) (g : SiteStep cfg)
    (h : (site cfg).fire s t = some g) : (yjsView cfg).Shows (Ws.yjsServer cfg.yjs) s t g := by
  cases site_fires h with
  | roomEvent e g _ => exact follow_shows s _ g rfl
  | roomTask task o g _ => exact follow_shows s _ g rfl
  | yjsEvent e y _ hyjs =>
    refine .event _ _ e rfl ?_
    rw [yjsView_ofYjs]
    exact hyjs
  | yjsTask task o y hyjs =>
    refine .task _ _ _ task o rfl ?_
    rw [yjsView_ofYjs]
    exact hyjs

/-! ## What follows a change of the room -/

section
variable (yjs : Ws.YjsServer Document Awareness) (before after : Server)

theorem follow_next : (follow cfg yjs before after).next = [] := by
  unfold follow
  split_ifs
  · unfold Ws.destroyRoom
    dsimp only
    split_ifs
    · exact Ws.destroySharedDoc_next cfg.yjs yjs _
    · rfl
  · rfl
  · rfl

theorem follow_keeps : Ws.Keeps none yjs (follow cfg yjs before after).state := by
  unfold follow
  split_ifs
  · exact Ws.Keeps.destroyRoom cfg.yjs cfg.roomCode
  · exact Ws.Keeps.refl yjs
  · exact (Ws.Keeps.refl yjs).withRooms _

/-- The Yjs server knows the room under the token that the room has, if at all. -/
def KnownBy (cfg : SiteConfig Document Awareness Payload) (yjs : Ws.YjsServer Document Awareness)
    (s : Server) : Prop :=
  ∀ text, Ws.tokenOf yjs cfg.roomCode = some text → text = cfg.tokenText s.room.yjsToken

theorem follow_knownBy {yjs : Ws.YjsServer Document Awareness} {before : Server}
    (h : KnownBy cfg yjs before) (after : Server) :
    KnownBy cfg (follow cfg yjs before after).state after := by
  intro text htext
  unfold follow at htext
  split_ifs at htext with hends hsame
  · rw [Ws.tokenOf_destroyRoom, if_pos cfg.normalized] at htext
    cases htext
  · rw [hsame]
    exact h text htext
  · rw [Segment.of_state, Ws.tokenOf_rotateToken, Option.map_eq_some_iff] at htext
    obtain ⟨old, -, hold⟩ := htext
    rw [if_pos rfl] at hold
    exact hold.symm

end

/-- **Both servers.** Every run of the site is a run of the room's server and a run of the Yjs server. -/
theorem site_run {c c' : SiteConf cfg} {acts : List (SiteAct Payload)} {out : List (SiteEffect Payload)}
    (hrun : (site cfg).run c acts = some (c', out)) :
    (∃ roomActs, (server cfg.room).run ((roomView cfg).conf c) roomActs =
      some ((roomView cfg).conf c', out.filterMap Sum.getLeft?)) ∧
    ∃ yjsActs, (Ws.yjsServer cfg.yjs).run ((yjsView cfg).conf c) yjsActs =
      some ((yjsView cfg).conf c', out.filterMap Sum.getRight?) :=
  ⟨View.run roomView_shows hrun, View.run yjsView_shows hrun⟩

end
end CodeShare
