import CodeShare.Client.RoomReducer

/-! # A tab

The room page of one browser tab: the Socket.IO client, the handlers that are bound to it, and what they
keep in `sessionStorage`. The handlers may be bound to a socket that is connected already, and may be bound
again; the join marker is to keep the tab from joining twice over one connection.
-/

namespace CodeShare
set_option autoImplicit false

inductive StorageKey where
  | displayName
  | reconnectToken
  | yjsToken
  deriving DecidableEq

/-- What does not throw while one event is handled: reads and writes of `sessionStorage`, and
`socket.emit`. -/
structure Browser where
  reads : StorageKey → Bool
  writes : StorageKey → Bool
  emits : Bool

structure SessionStorage where
  displayName : Option JsString
  reconnectToken : Option Token
  yjsToken : Option Token

structure Tab where
  storage : SessionStorage
  state : ClientRoomState
  /-- the handlers are bound to the socket -/
  bound : Bool
  /-- `socket.id`, which the socket has while it is connected -/
  socketId : Option SocketId
  /-- `socket[JOIN_MARKER]` -/
  joinMarker : Option SocketId

/-- A `user:join` on its way to the server. -/
abbrev SentJoin := SocketId × UserJoinPayload

/-- `userJoinSchema`: the payload as the handler gets it. -/
def userJoinSchema (data : UserJoinPayload) : Option UserJoinPayload :=
  let displayName := jsTrim data.displayName
  if displayName.length < 1 ∨ 30 < displayName.length then none
  else some { data with displayName := displayName }

/-! ## Joining -/

def emitJoin (browser : Browser) (tab : Tab) : Tab × Option SentJoin :=
  if browser.reads .displayName then
    match tab.storage.displayName.map jsTrim, tab.socketId with
    | some displayName, some id =>
      if displayName = [] ∨ tab.joinMarker = some id then (tab, none)
      else if browser.reads .reconnectToken && browser.emits then
        ({ tab with joinMarker := some id },
          some (id, ⟨displayName, tab.storage.reconnectToken.map .wellFormed⟩))
      else ({ tab with joinMarker := none }, none)
    | _, _ => (tab, none)
  else (tab, none)

def clearJoinMarker (tab : Tab) : Tab := { tab with joinMarker := none }

/-! ## Messages -/

/-- `storeSessionValue`, for the item that is stored. -/
def storeSessionValue {α : Type} (writable : Bool) (payloadValue stored : Option α) : Option α :=
  if writable then payloadValue.or stored else stored

/-- What `onUserJoined` and `onYjsTokenRotated` store. -/
def storeTokens (browser : Browser) (storage : SessionStorage) : Message → SessionStorage
  | .userJoined _ _ _ _ reconnectToken yjsToken =>
    { storage with
      reconnectToken :=
        storeSessionValue (browser.writes .reconnectToken) reconnectToken storage.reconnectToken
      yjsToken := storeSessionValue (browser.writes .yjsToken) yjsToken storage.yjsToken }
  | .yjsTokenRotated yjsToken =>
    { storage with
      yjsToken := storeSessionValue (browser.writes .yjsToken) (some yjsToken) storage.yjsToken }
  | _ => storage

/-- The handler of a message, when there is one. -/
def handleMessage (browser : Browser) (now : Time) (tab : Tab) (m : Message) : Tab :=
  if tab.bound then
    { tab with storage := storeTokens browser tab.storage m, state := roomReducer now tab.state m }
  else tab

/-! ## Events -/

inductive TabEvent where
  | mount (browser : Browser)
  | unmount
  | connect (browser : Browser) (id : SocketId)
  | disconnect
  | receive (browser : Browser) (now : Time) (m : Message)
  | enterName (browser : Browser) (displayName : JsString)

/-- The effect of `RoomProvider`: the handlers are bound to the socket, and a socket that is connected
already joins. -/
def bindHandlers (browser : Browser) (tab : Tab) : Tab × Option SentJoin :=
  if tab.socketId.isSome then emitJoin browser { tab with bound := true }
  else ({ tab with bound := true }, none)

/-- The socket gets an id, and `onConnect` runs when it is bound. -/
def connectSocket (browser : Browser) (id : SocketId) (tab : Tab) : Tab × Option SentJoin :=
  if tab.bound then emitJoin browser { tab with socketId := some id }
  else ({ tab with socketId := some id }, none)

/-- The socket loses its id, and `onDisconnect` runs when it is bound. -/
def disconnectTab (tab : Tab) : Tab :=
  if tab.bound then clearJoinMarker { tab with socketId := none } else { tab with socketId := none }

/-- `handleJoin` of the join page. -/
def enterName (browser : Browser) (displayName : JsString) (tab : Tab) : Tab :=
  let trimmed := jsTrim displayName
  if trimmed = [] then tab
  else { tab with storage := { tab.storage with
    displayName :=
      storeSessionValue (browser.writes .displayName) (some trimmed) tab.storage.displayName } }

/-- What a tab does with an event, and the join that it sends. -/
def handleTab (tab : Tab) : TabEvent → Option (Tab × Option SentJoin)
  | .mount browser => if tab.bound then none else some (bindHandlers browser tab)
  | .unmount => if tab.bound then some ({ tab with bound := false }, none) else none
  | .connect browser id => if tab.socketId.isSome then none else some (connectSocket browser id tab)
  | .disconnect => if tab.socketId.isSome then some (disconnectTab tab, none) else none
  | .receive browser now m =>
    if tab.socketId.isSome then some (handleMessage browser now tab m, none) else none
  | .enterName browser displayName => some (enterName browser displayName tab, none)

/-- A tab that has just been opened. -/
def newTab (displayName : Option JsString) : Tab where
  storage := ⟨displayName, none, none⟩
  state := initialRoomState
  bound := false
  socketId := none
  joinMarker := none

/-! ## What an event does to the marker -/

variable {tab tab' : Tab} {browser : Browser} {sent : Option SentJoin} {join : SentJoin} {e : TabEvent}

/-- A join is sent over the connection of the tab, which is marked with it and was not before. -/
structure SendsJoin (tab tab' : Tab) (join : SentJoin) : Prop where
  socketId : tab.socketId = some join.1
  unmarked : tab.joinMarker ≠ some join.1
  presented : join.2.reconnectToken = tab.storage.reconnectToken.map .wellFormed
  marked : tab' = { tab with joinMarker := some join.1 }

theorem emitJoin_cases (browser : Browser) (tab : Tab) :
    emitJoin browser tab = (tab, none) ∨
    (∃ id, tab.socketId = some id ∧ tab.joinMarker ≠ some id ∧
      emitJoin browser tab = (clearJoinMarker tab, none)) ∨
    ∃ tab' join, emitJoin browser tab = (tab', some join) ∧ SendsJoin tab tab' join := by
  unfold emitJoin
  cases hreads : browser.reads .displayName with
  | false => exact .inl rfl
  | true =>
    rw [if_pos rfl]
    split
    · rename_i displayName id hname hid
      by_cases hskip : displayName = [] ∨ tab.joinMarker = some id
      · rw [if_pos hskip]
        exact .inl rfl
      · rw [if_neg hskip]
        have hunmarked : tab.joinMarker ≠ some id := fun hmarked => hskip (.inr hmarked)
        cases hemits : browser.reads .reconnectToken && browser.emits with
        | false => exact .inr (.inl ⟨id, hid, hunmarked, rfl⟩)
        | true => exact .inr (.inr ⟨_, _, rfl, hid, hunmarked, rfl, rfl⟩)
    · exact .inl rfl

/-- A join is sent at most once over a connection that keeps its marker. -/
inductive Marks (tab : Tab) (e : TabEvent) (tab' : Tab) : Option SentJoin → Prop where
  | sends (join : SentJoin)
      (hsocket : tab.socketId = some join.1 ∨ ∃ browser, e = .connect browser join.1)
      (hunmarked : tab.joinMarker ≠ some join.1)
      (hpresented : join.2.reconnectToken = tab.storage.reconnectToken.map .wellFormed)
      (hafter : tab'.socketId = some join.1)
      (hmarked : tab'.joinMarker = some join.1) : Marks tab e tab' (some join)
  | silent
      (hsocket : ∀ id, tab'.socketId = some id → (∃ browser, e = .connect browser id) ∨
        tab.socketId = some id ∧ (tab.joinMarker = some id → tab'.joinMarker = some id)) :
      Marks tab e tab' none

theorem emitJoin_marks {before : Tab} (browser : Browser) (hmarker : tab.joinMarker = before.joinMarker)
    (hstorage : tab.storage = before.storage)
    (hsocket : ∀ id, tab.socketId = some id → before.socketId = some id ∨ ∃ browser, e = .connect browser id) :
    Marks before e (emitJoin browser tab).1 (emitJoin browser tab).2 := by
  have hsilent : ∀ id, tab.socketId = some id → (∃ browser, e = .connect browser id) ∨
      before.socketId = some id ∧ (before.joinMarker = some id → tab.joinMarker = some id) := by
    intro id hid
    rcases hsocket id hid with hbefore | hconnect
    · exact .inr ⟨hbefore, fun hmarked => hmarker.trans hmarked⟩
    · exact .inl hconnect
  rcases emitJoin_cases browser tab with heq | ⟨id, hid, hunmarked, heq⟩ | ⟨tab', join, heq, hsends⟩
  · rw [heq]
    exact .silent hsilent
  · rw [heq]
    refine .silent fun id' hid' => (hsilent id' hid').imp_right fun ⟨hbefore, hkept⟩ => ⟨hbefore, ?_⟩
    intro hmarked
    obtain rfl : id = id' := Option.some.inj (hid.symm.trans hid')
    exact absurd (hkept hmarked) hunmarked
  · rw [heq]
    obtain ⟨hid, hunmarked, hpresented, rfl⟩ := hsends
    exact .sends join (hsocket _ hid) (hmarker ▸ hunmarked) (hstorage ▸ hpresented) hid rfl

/-- The marker is cleared only when the connection is gone. -/
theorem handleTab_marks (h : handleTab tab e = some (tab', sent)) : Marks tab e tab' sent := by
  have hkept : tab'.socketId = tab.socketId → tab'.joinMarker = tab.joinMarker → sent = none →
      Marks tab e tab' sent := by
    rintro hsocket hmarker rfl
    exact .silent fun id hid => .inr ⟨hsocket ▸ hid, fun hmarked => hmarker.trans hmarked⟩
  cases e with
  | mount browser =>
    simp only [handleTab, Option.ite_none_left_eq_some, Option.some.injEq] at h
    obtain ⟨-, h⟩ := h
    unfold bindHandlers at h
    by_cases hconnected : tab.socketId.isSome = true
    · rw [if_pos hconnected] at h
      obtain ⟨rfl, rfl⟩ := Prod.mk.inj h
      exact emitJoin_marks browser rfl rfl fun _ hid => .inl hid
    · rw [if_neg hconnected] at h
      cases h
      exact hkept rfl rfl rfl
  | unmount =>
    simp only [handleTab, Option.ite_none_right_eq_some, Option.some.injEq] at h
    obtain ⟨-, h⟩ := h
    cases h
    exact hkept rfl rfl rfl
  | connect browser id =>
    simp only [handleTab, Option.ite_none_left_eq_some, Option.some.injEq] at h
    obtain ⟨-, h⟩ := h
    have hconnects : ∀ id', some id = some id' → ∃ browser', TabEvent.connect browser id = .connect browser' id' := by
      intro id' hid
      exact ⟨browser, by rw [Option.some.inj hid]⟩
    unfold connectSocket at h
    cases hbound : tab.bound with
    | true =>
      rw [hbound, if_pos rfl] at h
      obtain ⟨rfl, rfl⟩ := Prod.mk.inj h
      exact emitJoin_marks browser rfl rfl fun id' hid => .inr (hconnects id' hid)
    | false =>
      rw [hbound, if_neg Bool.false_ne_true] at h
      cases h
      exact .silent fun id' hid => .inl (hconnects id' hid)
  | disconnect =>
    simp only [handleTab, Option.ite_none_right_eq_some, Option.some.injEq] at h
    obtain ⟨-, h⟩ := h
    cases h
    have hgone : (disconnectTab tab).socketId = none := by
      unfold disconnectTab
      split_ifs <;> rfl
    refine .silent fun id hid => ?_
    rw [hgone] at hid
    cases hid
  | receive browser now m =>
    simp only [handleTab, Option.ite_none_right_eq_some, Option.some.injEq] at h
    obtain ⟨-, h⟩ := h
    cases h
    unfold handleMessage at hkept ⊢
    split_ifs at hkept ⊢ <;> exact hkept rfl rfl rfl
  | enterName browser displayName =>
    simp only [handleTab, Option.some.injEq] at h
    cases h
    unfold enterName at hkept ⊢
    dsimp only at hkept ⊢
    split_ifs at hkept ⊢ <;> exact hkept rfl rfl rfl

/-! ## What an event does to the session -/

/-- What was received stays as it was. -/
structure KeepsSession (tab tab' : Tab) : Prop where
  reconnectToken : tab'.storage.reconnectToken = tab.storage.reconnectToken
  yjsToken : tab'.storage.yjsToken = tab.storage.yjsToken
  state : tab'.state = tab.state

theorem emitJoin_keeps (browser : Browser) (tab : Tab) : KeepsSession tab (emitJoin browser tab).1 := by
  rcases emitJoin_cases browser tab with heq | ⟨id, -, -, heq⟩ | ⟨tab', join, heq, hsends⟩
  · rw [heq]
    exact ⟨rfl, rfl, rfl⟩
  · rw [heq]
    exact ⟨rfl, rfl, rfl⟩
  · rw [heq, hsends.marked]
    exact ⟨rfl, rfl, rfl⟩

/-- Only messages change it. -/
theorem handleTab_keeps (h : handleTab tab e = some (tab', sent))
    (he : ∀ browser now m, e ≠ .receive browser now m) : KeepsSession tab tab' := by
  cases e with
  | mount browser =>
    simp only [handleTab, Option.ite_none_left_eq_some, Option.some.injEq] at h
    obtain ⟨-, h⟩ := h
    rw [← show (bindHandlers browser tab).1 = tab' from congrArg Prod.fst h]
    unfold bindHandlers
    split_ifs
    · obtain ⟨hreconnect, hyjs, hstate⟩ := emitJoin_keeps browser { tab with bound := true }
      exact ⟨hreconnect, hyjs, hstate⟩
    · exact ⟨rfl, rfl, rfl⟩
  | unmount =>
    simp only [handleTab, Option.ite_none_right_eq_some, Option.some.injEq] at h
    obtain ⟨-, h⟩ := h
    cases h
    exact ⟨rfl, rfl, rfl⟩
  | connect browser id =>
    simp only [handleTab, Option.ite_none_left_eq_some, Option.some.injEq] at h
    obtain ⟨-, h⟩ := h
    rw [← show (connectSocket browser id tab).1 = tab' from congrArg Prod.fst h]
    unfold connectSocket
    split_ifs
    · obtain ⟨hreconnect, hyjs, hstate⟩ := emitJoin_keeps browser { tab with socketId := some id }
      exact ⟨hreconnect, hyjs, hstate⟩
    · exact ⟨rfl, rfl, rfl⟩
  | disconnect =>
    simp only [handleTab, Option.ite_none_right_eq_some, Option.some.injEq] at h
    obtain ⟨-, h⟩ := h
    cases h
    unfold disconnectTab
    split_ifs <;> exact ⟨rfl, rfl, rfl⟩
  | receive browser now m => exact absurd rfl (he browser now m)
  | enterName browser displayName =>
    simp only [handleTab, Option.some.injEq] at h
    cases h
    unfold enterName
    dsimp only
    split_ifs <;> exact ⟨rfl, rfl, rfl⟩

end CodeShare
