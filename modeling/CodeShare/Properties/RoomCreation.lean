import CodeShare.Room.RoomManager

/-! # Creating rooms

A code is looked up among the active rooms at each of the five attempts, but the fallback's is not: the
only way to displace a room is that all six are in use. The format of a code is what makes it its own
normal form.
-/

namespace CodeShare
open RoomCode
set_option autoImplicit false

/-! ## Codes in use -/

/-- Below the limit, each of the codes that a creation may take is in use. -/
structure CodesTaken (manager : RoomManager) (draw : Draw) : Prop where
  below : manager.getRoomCount < manager.maxActiveRooms
  attempts : ∀ attempt < maxRetries,
    randomSegments draw.random (attempt * (segmentLength * segmentCount)) ∈ manager.rooms
  fallback : uuidFallbackSegments draw.uuid ∈ manager.rooms

theorem generateRoomCode_mem_iff (manager : RoomManager) (draw : Draw) :
    generateRoomCode manager.rooms.keys draw.random draw.uuid ∈ manager.rooms ↔
      (∀ attempt < maxRetries, randomSegments draw.random (attempt * (segmentLength * segmentCount)) ∈
        manager.rooms) ∧ uuidFallbackSegments draw.uuid ∈ manager.rooms := by
  unfold generateRoomCode
  simp only [AList.mem_keys]
  rw [attemptCodes_mem_iff]
  simp only [Nat.zero_add]

theorem generateRoomCode_formatted (manager : RoomManager) (draw : Draw) :
    Formatted (generateRoomCode manager.rooms.keys draw.random draw.uuid) :=
  attemptCodes_formatted _ _ _ _ _

/-- A room that has been created from the configured options is the one its server starts with. -/
theorem newRoom_eq (cfg : Config) (mode : RoomMode) (now : Time) (roomCode : JsString) :
    newRoom cfg mode now = (CodedRoom.new roomCode mode ⟨some cfg.submissionLimit,
      some cfg.importLimit, some cfg.customTestCaseLimit, some cfg.gracePeriodMs⟩ 0 now).toRoom :=
  rfl

/-! ## How many rooms there are -/

namespace RoomManager
variable (toLowerCase : JsString → JsString)

theorem mem_insert_count {manager : RoomManager} {roomCode : JsString} (room : CodedRoom)
    (h : roomCode ∈ manager.rooms) :
    (manager.rooms.insert roomCode room).entries.length = manager.getRoomCount := by
  have hkeys : (manager.rooms.insert roomCode room).keys.length = manager.rooms.keys.length := by
    have hmem : roomCode ∈ manager.rooms.keys := AList.mem_keys.mp h
    have herase := @List.length_erase_of_mem JsString instBEqOfDecidableEq _ _ _ hmem
    rw [AList.keys_insert, List.length_cons, herase]
    exact Nat.sub_add_cancel (List.length_pos_of_mem hmem)
  simpa [AList.keys, List.keys, getRoomCount] using hkeys

theorem notMem_insert_count {manager : RoomManager} {roomCode : JsString} (room : CodedRoom)
    (h : roomCode ∉ manager.rooms) :
    (manager.rooms.insert roomCode room).entries.length = manager.getRoomCount + 1 := by
  rw [AList.entries_insert_of_notMem h, List.length_cons]
  rfl

theorem createRoom_count {manager : RoomManager} (mode : RoomMode) (draw : Draw)
    (h : manager.getRoomCount ≤ manager.maxActiveRooms) :
    (manager.createRoom mode draw).2.getRoomCount ≤ (manager.createRoom mode draw).2.maxActiveRooms := by
  unfold createRoom
  by_cases hfull : manager.maxActiveRooms ≤ manager.getRoomCount
  · rw [if_pos hfull]
    exact h
  · rw [if_neg hfull]
    show (AList.insert _ _ _).entries.length ≤ manager.maxActiveRooms
    by_cases hused : generateRoomCode manager.rooms.keys draw.random draw.uuid ∈ manager.rooms
    · rw [mem_insert_count _ hused]
      exact h
    · rw [notMem_insert_count _ hused]
      omega

theorem destroyRoom_count (manager : RoomManager) (roomCode : JsString) :
    (manager.destroyRoom toLowerCase roomCode).getRoomCount ≤ manager.getRoomCount := by
  have hkeys : (manager.rooms.erase (RoomCode.normalizeRoomCode toLowerCase roomCode)).keys.length ≤
      manager.rooms.keys.length := by
    rw [AList.keys_erase]
    exact @List.length_erase_le JsString instBEqOfDecidableEq _ _
  simpa [AList.keys, List.keys, getRoomCount, destroyRoom] using hkeys

/-- Nothing but a creation adds a room, and no call moves the limit. -/
structure Shrinks (before after : RoomManager) : Prop where
  count : after.getRoomCount ≤ before.getRoomCount
  limit : after.maxActiveRooms = before.maxActiveRooms

theorem Shrinks.trans {first second third : RoomManager} (h : Shrinks first second)
    (h' : Shrinks second third) : Shrinks first third :=
  ⟨h'.count.trans h.count, h'.limit.trans h.limit⟩

theorem destroyRoom_shrinks (manager : RoomManager) (roomCode : JsString) :
    Shrinks manager (manager.destroyRoom toLowerCase roomCode) :=
  ⟨destroyRoom_count toLowerCase manager roomCode, rfl⟩

theorem destroyIdleRooms_shrinks (manager : RoomManager) (idleRoomTtlMs : Option Time) (now : Time) :
    Shrinks manager (manager.destroyIdleRooms toLowerCase idleRoomTtlMs now).2 := by
  have hloop : ∀ (entries : List (Sigma fun _ : JsString => CodedRoom)) (start : ℕ × RoomManager),
      Shrinks start.2 (entries.foldl (fun (acc : ℕ × RoomManager) entry =>
        if idle entry.2.toRoom (idleRoomTtlMs.getD manager.idleRoomTtlMs) now then
          (acc.1 + 1, acc.2.destroyRoom toLowerCase entry.1)
        else acc) start).2 := by
    intro entries
    induction entries with
    | nil => exact fun start => ⟨le_rfl, rfl⟩
    | cons entry entries ih =>
      intro start
      rw [List.foldl_cons]
      refine Shrinks.trans ?_ (ih _)
      by_cases hidle : idle entry.2.toRoom (idleRoomTtlMs.getD manager.idleRoomTtlMs) now
      · rw [if_pos hidle]
        exact destroyRoom_shrinks toLowerCase _ _
      · rw [if_neg hidle]
        exact ⟨le_rfl, rfl⟩
  exact hloop manager.rooms.entries (0, manager)

theorem resetRooms_shrinks (manager : RoomManager) :
    Shrinks manager (manager.resetRooms toLowerCase) := by
  have hloop : ∀ (codes : List JsString) (start : RoomManager), Shrinks start
      (codes.foldl (fun manager' roomCode => manager'.destroyRoom toLowerCase roomCode) start) := by
    intro codes
    induction codes with
    | nil => exact fun start => ⟨le_rfl, rfl⟩
    | cons roomCode codes ih =>
      intro start
      rw [List.foldl_cons]
      exact (destroyRoom_shrinks toLowerCase start roomCode).trans (ih _)
  exact hloop manager.rooms.keys manager

theorem after_count {manager : RoomManager} (call : Call)
    (h : manager.getRoomCount ≤ manager.maxActiveRooms) :
    (manager.after toLowerCase call).getRoomCount ≤ (manager.after toLowerCase call).maxActiveRooms := by
  have hshrinks : ∀ {next : RoomManager}, Shrinks manager next → next.getRoomCount ≤ next.maxActiveRooms := by
    intro next hnext
    rw [hnext.limit]
    exact hnext.count.trans h
  cases call with
  | createRoom mode draw => exact createRoom_count mode draw h
  | destroyRoom roomCode => exact hshrinks (destroyRoom_shrinks toLowerCase manager roomCode)
  | destroyIdleRooms idleRoomTtlMs now =>
    exact hshrinks (destroyIdleRooms_shrinks toLowerCase manager idleRoomTtlMs now)
  | resetRooms => exact hshrinks (resetRooms_shrinks toLowerCase manager)
  | changes roomCode room =>
    have hkeys : (manager.rooms.replace (RoomCode.normalizeRoomCode toLowerCase roomCode)
        ⟨room, RoomCode.normalizeRoomCode toLowerCase roomCode⟩).keys.length = manager.rooms.keys.length :=
      congrArg List.length (AList.keys_replace _ _ _)
    refine hshrinks ⟨?_, rfl⟩
    simpa [AList.keys, List.keys, getRoomCount, after] using hkeys.le

theorem run_count {manager : RoomManager} (calls : List Call)
    (h : manager.getRoomCount ≤ manager.maxActiveRooms) :
    (manager.run toLowerCase calls).getRoomCount ≤ (manager.run toLowerCase calls).maxActiveRooms := by
  unfold run
  induction calls generalizing manager with
  | nil => exact h
  | cons call calls ih =>
    rw [List.foldl_cons]
    exact ih (after_count toLowerCase call h)

end RoomManager

/-! ## What a creation does -/

/-- The registry has one more room, under a code that was not in use. -/
structure AddsRoom (before after : RoomManager) (room : CodedRoom) : Prop where
  unused : room.roomCode ∉ before.rooms
  lookup : ∀ roomCode, after.rooms.lookup roomCode =
    if roomCode = room.roomCode then some room else before.rooms.lookup roomCode
  count : after.getRoomCount = before.getRoomCount + 1

/-- The code is accepted as it is, and finds the room. -/
structure OwnCode (toLowerCase : JsString → JsString) (after : RoomManager) (room : CodedRoom) : Prop where
  accepted : roomCodeSchema toLowerCase room.roomCode = some room.roomCode
  normalized : RoomCode.normalizeRoomCode toLowerCase room.roomCode = room.roomCode
  found : after.getRoom toLowerCase room.roomCode = some room

structure CreatesRoom (toLowerCase : JsString → JsString) (before : RoomManager) (mode : RoomMode)
    (result : Except JsString CodedRoom) (after : RoomManager) : Prop where
  outcome : (∃ message, result = .error message ∧ after = before) ∨
    ∃ room, result = .ok room ∧ room.mode = mode ∧ AddsRoom before after room
  capacity : before.getRoomCount ≤ before.maxActiveRooms → after.getRoomCount ≤ after.maxActiveRooms
  code : ∀ room, result = .ok room → OwnCode toLowerCase after room

section
variable {toLowerCase : JsString → JsString} (manager : RoomManager) (mode : RoomMode) (draw : Draw)

theorem createRoom_full (h : manager.maxActiveRooms ≤ manager.getRoomCount) :
    manager.createRoom mode draw = (.error (js "Maximum active rooms limit reached."), manager) := by
  unfold RoomManager.createRoom
  rw [if_pos h]

theorem createRoom_below (h : manager.getRoomCount < manager.maxActiveRooms) :
    ∃ room, manager.createRoom mode draw =
        (.ok room, { manager with rooms := manager.rooms.insert room.roomCode room }) ∧
      room.roomCode = generateRoomCode manager.rooms.keys draw.random draw.uuid ∧ room.mode = mode := by
  refine ⟨CodedRoom.new (generateRoomCode manager.rooms.keys draw.random draw.uuid) mode
    manager.roomDefaults draw.yjsToken draw.now, ?_, rfl, rfl⟩
  unfold RoomManager.createRoom
  rw [if_neg (by omega)]
  rfl

theorem createRoom_ownCode (hlower : LowersAscii toLowerCase) {room : CodedRoom}
    (h : (manager.createRoom mode draw).1 = .ok room) :
    OwnCode toLowerCase (manager.createRoom mode draw).2 room := by
  by_cases hfull : manager.maxActiveRooms ≤ manager.getRoomCount
  · rw [createRoom_full manager mode draw hfull] at h
    cases h
  · obtain ⟨room', hcreated, hcode, -⟩ := createRoom_below manager mode draw (by omega)
    rw [hcreated] at h ⊢
    obtain rfl : room' = room := Except.ok.inj h
    have hformat : Formatted room'.roomCode := by
      rw [hcode]
      exact generateRoomCode_formatted manager draw
    refine ⟨hformat.accepted hlower, hformat.normalized hlower, ?_⟩
    unfold RoomManager.getRoom
    rw [hformat.normalized hlower]
    exact AList.lookup_insert manager.rooms

/-- A code in use is not a code for one room more. -/
theorem not_creates_of_taken (h : CodesTaken manager draw) :
    ¬ CreatesRoom toLowerCase manager mode (manager.createRoom mode draw).1
      (manager.createRoom mode draw).2 := by
  intro hcreates
  obtain ⟨room, hcreated, hcode, -⟩ := createRoom_below manager mode draw h.below
  have hused : room.roomCode ∈ manager.rooms := by
    rw [hcode]
    exact (generateRoomCode_mem_iff manager draw).mpr ⟨h.attempts, h.fallback⟩
  rcases hcreates.outcome with ⟨message, herror, -⟩ | ⟨room', hroom', -, hadds⟩
  · rw [hcreated] at herror
    cases herror
  · rw [hcreated] at hroom'
    obtain rfl : room = room' := Except.ok.inj hroom'
    exact hadds.unused hused

theorem createRoom_adds (hbelow : manager.getRoomCount < manager.maxActiveRooms)
    (h : ¬ CodesTaken manager draw) : ∃ room, (manager.createRoom mode draw).1 = .ok room ∧
      room.mode = mode ∧ AddsRoom manager (manager.createRoom mode draw).2 room := by
  obtain ⟨room, hcreated, hcode, hmode⟩ := createRoom_below manager mode draw hbelow
  have hunused : room.roomCode ∉ manager.rooms := by
    intro hused
    rw [hcode, generateRoomCode_mem_iff] at hused
    exact h ⟨hbelow, hused.1, hused.2⟩
  refine ⟨room, ?_, hmode, hunused, fun roomCode => ?_, ?_⟩
  · rw [hcreated]
  · rw [hcreated]
    by_cases hown : roomCode = room.roomCode
    · rw [if_pos hown, hown]
      exact AList.lookup_insert manager.rooms
    · rw [if_neg hown]
      exact AList.lookup_insert_ne hown
  · rw [hcreated]
    exact RoomManager.notMem_insert_count room hunused

theorem creates_of_free (hlower : LowersAscii toLowerCase) (h : ¬ CodesTaken manager draw) :
    CreatesRoom toLowerCase manager mode (manager.createRoom mode draw).1
      (manager.createRoom mode draw).2 := by
  refine ⟨?_, RoomManager.createRoom_count mode draw, fun room => createRoom_ownCode manager mode draw hlower⟩
  by_cases hfull : manager.maxActiveRooms ≤ manager.getRoomCount
  · left
    rw [createRoom_full manager mode draw hfull]
    exact ⟨_, rfl, rfl⟩
  · right
    exact createRoom_adds manager mode draw (by omega) h

end

/-- A creation throws or adds a room exactly when it finds one of the codes that it may take not in use;
the registry stays within its limit in any case. -/
theorem createRoom_creates_iff (toLowerCase : JsString → JsString) (hlower : LowersAscii toLowerCase)
    (manager : RoomManager) (mode : RoomMode) (draw : Draw) :
    (CreatesRoom toLowerCase manager mode (manager.createRoom mode draw).1
      (manager.createRoom mode draw).2 ↔ ¬ CodesTaken manager draw) ∧
    ∀ calls : List RoomManager.Call, manager.getRoomCount ≤ manager.maxActiveRooms →
      (manager.run toLowerCase calls).getRoomCount ≤ (manager.run toLowerCase calls).maxActiveRooms := by
  refine ⟨⟨fun hcreates htaken => ?_, fun hfree => ?_⟩, fun calls => ?_⟩
  · exact not_creates_of_taken manager mode draw htaken hcreates
  · exact creates_of_free manager mode draw hlower hfree
  · exact RoomManager.run_count toLowerCase calls

/-! ## A room displaced -/

def exampleLowerCase (text : JsString) : JsString := text.map asciiLower

/-- Every random number is 0, and so are the six bytes that the fallback reads. -/
def exampleDraw : Draw where
  random := fun _ => ⟨0, le_rfl, zero_lt_one⟩
  uuid := ⟨[0, 0, 0, 0, 0, 0, 64, 0, 128, 0, 0, 0, 0, 0, 0, 0], rfl, by decide, rfl, rfl⟩
  yjsToken := 1
  now := 60000

def exampleRoom : CodedRoom := CodedRoom.new (js "aaa-aaa") .collaboration {} 0 0

def exampleManager : RoomManager where
  rooms := AList.singleton (js "aaa-aaa") exampleRoom

theorem exampleManager_taken : CodesTaken exampleManager exampleDraw := by
  refine ⟨by decide, by decide +kernel, by decide⟩

/-- The room of the only code in use is replaced by a new one. -/
theorem createRoom_displaces :
    LowersAscii exampleLowerCase ∧
    exampleManager.getRoom exampleLowerCase (js "aaa-aaa") = some exampleRoom ∧
    ((exampleManager.createRoom .interview exampleDraw).2.getRoom exampleLowerCase (js "aaa-aaa")).map
      (·.mode) = some .interview ∧
    (exampleManager.createRoom .interview exampleDraw).2.getRoomCount = 1 ∧
    ¬ ∀ toLowerCase, LowersAscii toLowerCase → ∀ (manager : RoomManager) (mode : RoomMode) (draw : Draw),
      CreatesRoom toLowerCase manager mode (manager.createRoom mode draw).1
        (manager.createRoom mode draw).2 := by
  have hlower : LowersAscii exampleLowerCase := fun text _ => rfl
  refine ⟨hlower, by rfl, by decide +kernel, by decide +kernel, fun hall => ?_⟩
  exact not_creates_of_taken exampleManager .interview exampleDraw exampleManager_taken
    (hall exampleLowerCase hlower exampleManager .interview exampleDraw)

/-- The same random numbers, so that the code in use is drawn five times, with other bytes for the fallback. -/
def fallbackDraw : Draw :=
  { exampleDraw with uuid := ⟨[1, 1, 1, 1, 1, 1, 64, 0, 128, 0, 0, 0, 0, 0, 0, 0], rfl, by decide, rfl, rfl⟩ }

/-- The new room gets the code of the fallback, beside the room whose code was drawn. -/
theorem createRoom_beside :
    LowersAscii exampleLowerCase ∧
    (∀ attempt < maxRetries, randomSegments fallbackDraw.random (attempt * (segmentLength * segmentCount)) ∈
      exampleManager.rooms) ∧
    (exampleManager.createRoom .interview fallbackDraw).2.rooms.keys = [js "bbb-bbb", js "aaa-aaa"] ∧
    CreatesRoom exampleLowerCase exampleManager .interview
      (exampleManager.createRoom .interview fallbackDraw).1
      (exampleManager.createRoom .interview fallbackDraw).2 := by
  have hlower : LowersAscii exampleLowerCase := fun text _ => rfl
  have hfree : ¬ CodesTaken exampleManager fallbackDraw := by
    intro htaken
    have hfallback := htaken.fallback
    revert hfallback
    decide +kernel
  exact ⟨hlower, exampleManager_taken.attempts, by decide +kernel,
    (createRoom_creates_iff exampleLowerCase hlower exampleManager .interview fallbackDraw).1.mpr hfree⟩

end CodeShare
