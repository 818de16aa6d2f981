import CodeShare.Lib.ReliabilityStore
import Mathlib.Tactic.Ring

/-! # Daily quotas

The memory store keeps a counter for each day, Redis a key for each resource and day that lives until
the end of the next day and counts denied attempts, too. In the years 0 to 9999 a day has a key of its
own, and both stores allow exactly the first reservations of a day.
-/

namespace CodeShare.ReliabilityStore
open Calendar
set_option autoImplicit false

/-- The years that `toISOString` writes with four digits. -/
def FourDigitYear (day : ℤ) : Prop := 0 ≤ yearFromDay day ∧ yearFromDay day ≤ 9999

instance (day : ℤ) : Decidable (FourDigitYear day) := by
  unfold FourDigitYear
  infer_instance

namespace QuotaCall

/-- A reservation of a resource on a day. -/
def on (resource : DailyQuotaResource) (day : ℤ) : QuotaCall → Bool
  | .reserve options _ => options.resource = resource && utcDay options.now = day
  | .snapshot _ _ => false

/-- A reservation of a resource under the key of a day. -/
def uses (resource : DailyQuotaResource) (key : JsString) : QuotaCall → Bool
  | .reserve options _ => options.resource = resource && utcDayKey options.now = key
  | .snapshot _ _ => false

/-- The end of the key's life, if the call is the first to use it. -/
def opens (resource : DailyQuotaResource) (key : JsString) : QuotaCall → Option ℤ
  | .reserve options ranAt =>
    if options.resource = resource ∧ utcDayKey options.now = key then
      some (ranAt + max 1 (msUntilNextUtcDay options.now + 86400000))
    else none
  | .snapshot _ _ => none

/-- A reservation of the resource on the day has the limit, and its script runs before the end of the
next day. -/
def Fits (resource : DailyQuotaResource) (day : ℤ) (limit : ℕ) : QuotaCall → Prop
  | .reserve options ranAt => options.resource = resource → utcDay options.now = day →
    options.limit = limit ∧ options.now ≤ ranAt ∧ ranAt < (day + 2) * msPerDay
  | .snapshot _ _ => True

instance (resource : DailyQuotaResource) (day : ℤ) (limit : ℕ) (call : QuotaCall) :
    Decidable (call.Fits resource day limit) := by
  unfold Fits
  split <;> infer_instance

end QuotaCall

/-- How often a key has been used. -/
def attempts (past : List QuotaCall) (resource : DailyQuotaResource) (key : JsString) : ℕ :=
  past.countP (QuotaCall.uses resource key)

/-- The end of the life of a key. -/
def expiry (past : List QuotaCall) (resource : DailyQuotaResource) (key : JsString) : Option ℤ :=
  past.findSome? (QuotaCall.opens resource key)

theorem QuotaCall.uses_of_on {call : QuotaCall} {resource : DailyQuotaResource} {day : ℤ}
    (h : call.on resource day = true) : call.uses resource (dayKey day) = true := by
  cases call with
  | snapshot now ranAt => cases h
  | reserve options ranAt =>
    simp only [on, Bool.and_eq_true, decide_eq_true_eq] at h
    obtain ⟨rfl, rfl⟩ := h
    simp [uses, utcDayKey]

/-! ## Keys -/

theorem length_paddedUnits (digits n : ℕ) : (paddedUnits digits n).length = digits := by
  induction digits generalizing n with
  | zero => rfl
  | succ digits ih => rw [paddedUnits, List.length_append, ih, List.length_singleton]

theorem paddedUnits_inj {digits n m : ℕ} (hn : n < 10 ^ digits) (hm : m < 10 ^ digits)
    (h : paddedUnits digits n = paddedUnits digits m) : n = m := by
  induction digits generalizing n m with
  | zero => omega
  | succ digits ih =>
    rw [pow_succ] at hn hm
    obtain ⟨hfirst, hlast⟩ := List.append_inj' h rfl
    have hdiv := ih (by omega) (by omega) hfirst
    have hmod : 48 + n % 10 = 48 + m % 10 := (List.cons.inj hlast).1
    omega

theorem dayKey_of_fourDigitYear {day : ℤ} (h : FourDigitYear day) :
    dayKey day = paddedUnits 4 (yearFromDay day).toNat ++ 45 :: paddedUnits 2 (monthFromDay day + 1) ++
      45 :: paddedUnits 2 (dateFromDay day).toNat := by
  unfold dayKey isoDate
  dsimp only
  rw [if_pos ⟨h.1, h.2⟩, List.take_of_length_le]
  simp [length_paddedUnits]

/-- Only the years with four digits begin with a digit. -/
theorem fourDigitYear_of_dayKey {a b : ℤ} (ha : FourDigitYear a) (h : dayKey b = dayKey a) :
    FourDigitYear b := by
  by_contra hb
  have hhead := congrArg List.head? h
  have hsign : (dayKey b).head? = some (if yearFromDay b < 0 then 45 else 43) := by
    unfold dayKey isoDate
    dsimp only
    rw [if_neg (show ¬(0 ≤ yearFromDay b ∧ yearFromDay b ≤ 9999) from hb)]
    rfl
  have hdigit : (dayKey a).head? = some (48 + (yearFromDay a).toNat / 10 / 10 / 10 % 10) := by
    rw [dayKey_of_fourDigitYear ha]
    rfl
  rw [hsign, hdigit, Option.some.injEq] at hhead
  split_ifs at hhead <;> omega

/-- Days of such years have keys of their own. -/
theorem dayKey_inj {a b : ℤ} (ha : FourDigitYear a) (h : dayKey b = dayKey a) : b = a := by
  have hb := fourDigitYear_of_dayKey ha h
  rw [dayKey_of_fourDigitYear ha, dayKey_of_fourDigitYear hb] at h
  obtain ⟨hmonths, hdate⟩ := List.append_inj' h (by simp [length_paddedUnits])
  obtain ⟨hyear, hmonth⟩ := List.append_inj hmonths (by simp [length_paddedUnits])
  have hyear' := paddedUnits_inj (by unfold FourDigitYear at hb; omega)
    (by unfold FourDigitYear at ha; omega) hyear
  have hmonth' := paddedUnits_inj (by have := monthFromDay_lt b; omega)
    (by have := monthFromDay_lt a; omega) (List.cons.inj hmonth).2
  have hdate' := paddedUnits_inj (by have := dateFromDay_bounds b; omega)
    (by have := dateFromDay_bounds a; omega) (List.cons.inj hdate).2
  have hb' := dateFromDay_bounds b
  have ha' := dateFromDay_bounds a
  unfold FourDigitYear at ha hb
  have hyearEq : yearFromDay b = yearFromDay a := by omega
  have hmonthEq : monthFromDay b = monthFromDay a := by omega
  have hdateEq : dateFromDay b = dateFromDay a := by omega
  calc b = makeDay (yearFromDay b) (monthFromDay b) (dateFromDay b) := (makeDay_self b).symm
    _ = makeDay (yearFromDay a) (monthFromDay a) (dateFromDay a) := by rw [hyearEq, hmonthEq, hdateEq]
    _ = a := makeDay_self a

theorem dailyQuotaKey_inj {keyPrefix : JsString} {r r' : DailyQuotaResource} {key key' : JsString} :
    RedisReliabilityStore.dailyQuotaKey keyPrefix r key =
        RedisReliabilityStore.dailyQuotaKey keyPrefix r' key' ↔ r = r' ∧ key = key' := by
  constructor
  · intro h
    have htail := List.append_cancel_left
      (show keyPrefix ++ (js ":daily:" ++ r.text ++ js ":" ++ key) =
        keyPrefix ++ (js ":daily:" ++ r'.text ++ js ":" ++ key') by
          simpa [RedisReliabilityStore.dailyQuotaKey, RedisReliabilityStore.redisKey, joinTexts, js] using h)
    cases r <;> cases r' <;> simp_all [js, DailyQuotaResource.text]
  · rintro ⟨rfl, rfl⟩
    rfl

/-! ## One reservation in memory -/

section
variable (store : MemoryReliabilityStore) (options : DailyQuotaOptions) (key : JsString)
  (resource : DailyQuotaResource)

theorem setDailyCounters_count (day : JsString) (counters : DailyCounterMap) :
    (store.setDailyCounters day counters).count key resource =
      if key = day then counters resource else store.count key resource := by
  unfold MemoryReliabilityStore.count MemoryReliabilityStore.setDailyCounters
  dsimp only
  split_ifs with hkey
  · rw [hkey, Function.update_self]
    rfl
  · rw [Function.update_of_ne hkey]

theorem getOrCreateDailyCounters_snd :
    (store.getOrCreateDailyCounters key).2 resource = store.count key resource := by
  unfold MemoryReliabilityStore.getOrCreateDailyCounters MemoryReliabilityStore.count
  cases store.dailyCounters key <;> rfl

theorem getOrCreateDailyCounters_count (day : JsString) :
    (store.getOrCreateDailyCounters day).1.count key resource = store.count key resource := by
  unfold MemoryReliabilityStore.getOrCreateDailyCounters
  split
  · rfl
  · rename_i hnone
    dsimp only
    rw [setDailyCounters_count]
    split_ifs with hkey
    · unfold MemoryReliabilityStore.count
      rw [hkey, hnone]
      rfl
    · rfl

theorem memory_reserve :
    (store.reserveDailyQuota options).2.allowed =
        decide (store.count (utcDayKey options.now) options.resource < options.limit) ∧
      (store.reserveDailyQuota options).2.used =
        store.count (utcDayKey options.now) options.resource +
          (store.reserveDailyQuota options).2.allowed.toNat := by
  unfold MemoryReliabilityStore.reserveDailyQuota
  dsimp only
  rw [getOrCreateDailyCounters_snd]
  split_ifs with hlimit
  · exact ⟨(decide_eq_false (by omega)).symm, rfl⟩
  · exact ⟨(decide_eq_true (by omega)).symm, rfl⟩

/-- The counter of the reservation moves when it is allowed, and no other counter moves. -/
theorem memory_reserve_count :
    (store.reserveDailyQuota options).1.count key resource = store.count key resource +
      (if options.resource = resource ∧ utcDayKey options.now = key then
        (store.reserveDailyQuota options).2.allowed.toNat else 0) := by
  unfold MemoryReliabilityStore.reserveDailyQuota
  dsimp only
  rw [getOrCreateDailyCounters_snd]
  split_ifs with hlimit hmine hmine
  · exact getOrCreateDailyCounters_count ..
  · exact getOrCreateDailyCounters_count ..
  · obtain ⟨rfl, rfl⟩ := hmine
    rw [setDailyCounters_count, if_pos rfl, Function.update_self]
    rfl
  · rw [setDailyCounters_count, getOrCreateDailyCounters_count]
    split_ifs with hkey
    · have hresource : resource ≠ options.resource := fun h => hmine ⟨h.symm, hkey.symm⟩
      rw [Function.update_of_ne hresource, getOrCreateDailyCounters_snd, hkey]
      rfl
    · rfl

end

/-! ## One reservation in Redis -/

section
variable (keyPrefix : JsString) (db : Keyspace) (options : DailyQuotaOptions) (ranAt : ℤ)
  (resource : DailyQuotaResource) (day key : JsString)

/-- The value of a key that is alive. -/
def Keyspace.value (clock : ℤ) (key : JsString) : ℕ := ((db.lookup clock key).map (·.value)).getD 0

theorem lookup_update (v : RedisValue) (hlive : v.expireAt.all fun e => ranAt ≤ e) :
    Keyspace.lookup (Function.update db key (some v)) ranAt key = some v := by
  unfold Keyspace.lookup
  rw [Function.update_self, Option.filter_some, if_pos hlive]

theorem reserveScript_keyspace (limit : ℕ) (ttlMs : ℤ) :
    (db.reserveScript ranAt key limit ttlMs).1 =
      if (db.incr ranAt key).2 = 1 then (db.incr ranAt key).1.pexpire ranAt key ttlMs
      else (db.incr ranAt key).1 := by
  unfold Keyspace.reserveScript
  dsimp only
  split_ifs <;> rfl

/-- The script counts the attempt, and opens the key with the first. -/
theorem reserveScript_self (limit : ℕ) (ttlMs : ℤ)
    (hpositive : ∀ v, db.lookup ranAt key = some v → 1 ≤ v.value) :
    (db.reserveScript ranAt key limit ttlMs).1 key = some
      ⟨db.value ranAt key + 1, match db.lookup ranAt key with
        | none => some (ranAt + ttlMs)
        | some v => v.expireAt⟩ := by
  rw [reserveScript_keyspace]
  unfold Keyspace.incr Keyspace.value
  cases hlookup : db.lookup ranAt key with
  | none =>
    dsimp only [Option.map_none, Option.getD_none]
    rw [if_pos rfl]
    unfold Keyspace.pexpire
    rw [lookup_update _ _ _ _ rfl]
    exact Function.update_self ..
  | some v =>
    have hsecond : v.value + 1 ≠ 1 := by
      have hvalue := hpositive v hlookup
      omega
    dsimp only [Option.map_some, Option.getD_some]
    rw [if_neg hsecond, Function.update_self]

theorem reserveScript_other {other : JsString} (hother : other ≠ key) (limit : ℕ) (ttlMs : ℤ) :
    (db.reserveScript ranAt key limit ttlMs).1 other = db other := by
  have hincr : (db.incr ranAt key).1 other = db other := by
    unfold Keyspace.incr
    split <;> exact Function.update_of_ne hother _ _
  have hpexpire (db' : Keyspace) : db'.pexpire ranAt key ttlMs other = db' other := by
    unfold Keyspace.pexpire
    cases db'.lookup ranAt key with
    | none => rfl
    | some v => exact Function.update_of_ne hother _ _
  rw [reserveScript_keyspace]
  split_ifs
  · rw [hpexpire, hincr]
  · exact hincr

theorem reserveScript_snd (limit : ℕ) (ttlMs : ℤ) :
    (db.reserveScript ranAt key limit ttlMs).2.1 =
        (if db.value ranAt key < limit then 1 else 0) ∧
      (db.reserveScript ranAt key limit ttlMs).2.2.1 =
        db.value ranAt key + (if db.value ranAt key < limit then 1 else 0) := by
  have hincr : (db.incr ranAt key).2 = db.value ranAt key + 1 := by
    unfold Keyspace.incr Keyspace.value
    cases db.lookup ranAt key <;> rfl
  unfold Keyspace.reserveScript
  dsimp only
  rw [hincr]
  by_cases hlimit : db.value ranAt key < limit
  · rw [if_neg (show ¬ limit < db.value ranAt key + 1 by omega), if_pos hlimit]
    exact ⟨rfl, rfl⟩
  · rw [if_pos (show limit < db.value ranAt key + 1 by omega), if_neg hlimit]
    exact ⟨rfl, rfl⟩

theorem redis_reserve :
    (RedisReliabilityStore.reserveDailyQuota keyPrefix db options ranAt).2.allowed =
        decide (db.value ranAt (RedisReliabilityStore.dailyQuotaKey keyPrefix options.resource
          (utcDayKey options.now)) < options.limit) ∧
      (RedisReliabilityStore.reserveDailyQuota keyPrefix db options ranAt).2.used =
        db.value ranAt (RedisReliabilityStore.dailyQuotaKey keyPrefix options.resource
            (utcDayKey options.now)) +
          (RedisReliabilityStore.reserveDailyQuota keyPrefix db options ranAt).2.allowed.toNat := by
  obtain ⟨hallowed, hused⟩ := reserveScript_snd db ranAt
    (RedisReliabilityStore.dailyQuotaKey keyPrefix options.resource (utcDayKey options.now))
    options.limit (max 1 (msUntilNextUtcDay options.now + 86400000))
  unfold RedisReliabilityStore.reserveDailyQuota RedisReliabilityStore.reserve
  dsimp only
  rw [hallowed, hused]
  split_ifs with hlimit
  · exact ⟨(decide_eq_true hlimit).symm, rfl⟩
  · exact ⟨(decide_eq_false hlimit).symm, rfl⟩

end

/-! ## The books of Redis -/

section
variable {keyPrefix : JsString} {past : List QuotaCall} {call : QuotaCall}
  {resource : DailyQuotaResource} {key : JsString}

/-- What Redis holds for a resource and a day. -/
def redisEntry (past : List QuotaCall) (resource : DailyQuotaResource) (key : JsString) :
    Option RedisValue :=
  (expiry past resource key).map fun expireAt => ⟨attempts past resource key, some expireAt⟩

/-- The key of a call has not run out. -/
def Alive (past : List QuotaCall) (resource : DailyQuotaResource) (key : JsString) (ranAt : ℤ) : Prop :=
  ∀ expireAt, expiry past resource key = some expireAt → ranAt ≤ expireAt

theorem opens_eq_none : call.opens resource key = none ↔ call.uses resource key = false := by
  cases call with
  | snapshot now ranAt => exact iff_of_true rfl rfl
  | reserve options ranAt =>
    simp only [QuotaCall.opens, QuotaCall.uses]
    split_ifs with hmine
    · simp [hmine]
    · simpa using hmine

theorem expiry_eq_none : expiry past resource key = none ↔ attempts past resource key = 0 := by
  unfold expiry attempts
  rw [List.findSome?_eq_none_iff, List.countP_eq_zero]
  refine forall₂_congr fun call _ => ?_
  rw [opens_eq_none, Bool.not_eq_true]

theorem attempts_concat : attempts (past ++ [call]) resource key =
    attempts past resource key + (call.uses resource key).toNat := by
  unfold attempts
  rw [List.countP_append, List.countP_singleton]
  cases call.uses resource key <;> rfl

theorem expiry_concat : expiry (past ++ [call]) resource key =
    (expiry past resource key).or (call.opens resource key) := by
  unfold expiry
  rw [List.findSome?_append, List.findSome?_singleton]

theorem redisEntry_value {v : RedisValue} (h : redisEntry past resource key = some v) :
    v.value = attempts past resource key ∧ 1 ≤ v.value := by
  obtain ⟨e, he, rfl⟩ := Option.map_eq_some_iff.mp h
  have hused : attempts past resource key ≠ 0 := by
    intro hzero
    rw [expiry_eq_none.mpr hzero] at he
    cases he
  exact ⟨rfl, Nat.pos_of_ne_zero hused⟩

/-- The value of a key that has not run out counts its attempts. -/
theorem value_of_alive {db : Keyspace} {ranAt : ℤ}
    (hbooks : db (RedisReliabilityStore.dailyQuotaKey keyPrefix resource key) =
      redisEntry past resource key) (halive : Alive past resource key ranAt) :
    db.lookup ranAt (RedisReliabilityStore.dailyQuotaKey keyPrefix resource key) =
        redisEntry past resource key ∧
      db.value ranAt (RedisReliabilityStore.dailyQuotaKey keyPrefix resource key) =
        attempts past resource key := by
  have hlookup : db.lookup ranAt (RedisReliabilityStore.dailyQuotaKey keyPrefix resource key) =
      redisEntry past resource key := by
    unfold Keyspace.lookup
    rw [hbooks]
    unfold redisEntry
    cases hexpiry : expiry past resource key with
    | none => rfl
    | some e => exact Option.filter_some_pos (by simpa using halive e hexpiry)
  refine ⟨hlookup, ?_⟩
  unfold Keyspace.value
  rw [hlookup]
  unfold redisEntry
  cases hexpiry : expiry past resource key with
  | none => exact (expiry_eq_none.mp hexpiry).symm
  | some e => rfl

theorem redis_books_concat
    (hbooks : redisAfter keyPrefix past (RedisReliabilityStore.dailyQuotaKey keyPrefix resource key) =
      redisEntry past resource key)
    (halive : ∀ options ranAt, call = .reserve options ranAt → call.uses resource key = true →
      Alive past resource key ranAt) :
    redisAfter keyPrefix (past ++ [call])
        (RedisReliabilityStore.dailyQuotaKey keyPrefix resource key) =
      redisEntry (past ++ [call]) resource key := by
  unfold redisAfter at hbooks ⊢
  rw [Services.after_concat]
  unfold redisEntry
  rw [expiry_concat, attempts_concat]
  cases call with
  | snapshot now ranAt =>
    rw [opens_eq_none.mpr rfl, Option.or_none]
    exact hbooks
  | reserve options ranAt =>
    by_cases hmine : options.resource = resource ∧ utcDayKey options.now = key
    · obtain ⟨rfl, rfl⟩ := hmine
      obtain ⟨hlookup, hvalue⟩ :=
        value_of_alive hbooks (halive options ranAt rfl (by simp [QuotaCall.uses]))
      refine (reserveScript_self _ ranAt _ options.limit
        (max 1 (msUntilNextUtcDay options.now + 86400000)) ?_).trans ?_
      · rw [hlookup]
        exact fun v hv => (redisEntry_value hv).2
      · rw [hvalue, hlookup]
        unfold redisEntry
        cases hexpiry : expiry past options.resource (utcDayKey options.now) with
        | none => simp [QuotaCall.opens, QuotaCall.uses]
        | some e => simp [QuotaCall.uses]
    · have hother : RedisReliabilityStore.dailyQuotaKey keyPrefix resource key ≠
          RedisReliabilityStore.dailyQuotaKey keyPrefix options.resource (utcDayKey options.now) := by
        intro hkey
        obtain ⟨hresource, hday⟩ := dailyQuotaKey_inj.mp hkey
        exact hmine ⟨hresource.symm, hday.symm⟩
      have hnone : QuotaCall.opens resource key (.reserve options ranAt) = none := if_neg hmine
      rw [hnone, opens_eq_none.mp hnone, Option.or_none]
      exact (reserveScript_other _ ranAt _ hother _ _).trans hbooks

end

/-! ## Runs -/

theorem uses_dayKey {day : ℤ} (hyear : FourDigitYear day) (resource : DailyQuotaResource) :
    QuotaCall.uses resource (dayKey day) = QuotaCall.on resource day := by
  funext call
  cases call with
  | snapshot now ranAt => rfl
  | reserve options ranAt =>
    have hkey : utcDayKey options.now = dayKey day ↔ utcDay options.now = day :=
      ⟨fun h => dayKey_inj hyear h, fun h => congrArg dayKey h⟩
    simp only [QuotaCall.uses, QuotaCall.on, hkey]

/-- The end of the day is no further than the code says. -/
theorem le_msUntilNextUtcDay (now : ℤ) : (utcDay now + 1) * msPerDay - now ≤ msUntilNextUtcDay now := by
  have hnext : (utcDay now + 1) * msPerDay ≤ dateUTC (yearFromDay (utcDay now))
      (monthFromDay (utcDay now)) (dateFromDay (utcDay now) + 1) := by
    have hself : makeDay (yearFromDay (utcDay now)) (monthFromDay (utcDay now))
        (dateFromDay (utcDay now) + 1) = utcDay now + 1 := by
      rw [makeDay_add, makeDay_self]
    refine Int.mul_le_mul_of_nonneg_right ?_ (by decide)
    split_ifs with hcentury
    · rw [← hself]
      exact (makeDay_strictMono (by omega) _ _).le
    · exact hself.ge
  unfold msUntilNextUtcDay
  dsimp only
  omega

section
variable {keyPrefix : JsString} {past : List QuotaCall} {resource : DailyQuotaResource} {day : ℤ}
  {limit : ℕ}

/-- The key of a day lives until the end of the next day. -/
theorem alive_of_started (hyear : FourDigitYear day)
    (hpast : ∀ options ran, .reserve options ran ∈ past → options.resource = resource →
      utcDay options.now = day → options.now ≤ ran)
    {ranAt : ℤ} (hran : ranAt < (day + 2) * msPerDay) : Alive past resource (dayKey day) ranAt := by
  intro e he
  obtain ⟨call, hm, hopens⟩ := List.exists_of_findSome?_eq_some he
  cases call with
  | snapshot now ran => cases hopens
  | reserve options ran =>
    simp only [QuotaCall.opens] at hopens
    split_ifs at hopens with hmine
    obtain rfl := Option.some.inj hopens
    have hday : utcDay options.now = day := dayKey_inj hyear hmine.2
    have hstarted := hpast _ _ hm hmine.1 hday
    have hnext := le_msUntilNextUtcDay options.now
    have hend : (day + 2) * msPerDay = (day + 1) * msPerDay + 86400000 := by
      unfold msPerDay
      omega
    rw [hday] at hnext
    omega

theorem alive_of_fits (hyear : FourDigitYear day) (hpast : ∀ call ∈ past, call.Fits resource day limit)
    {ranAt : ℤ} (hran : ranAt < (day + 2) * msPerDay) : Alive past resource (dayKey day) ranAt :=
  alive_of_started hyear (fun _ _ hm hresource hday => (hpast _ hm hresource hday).2.1) hran

/-- The books of both stores for a resource and a day. -/
structure QuotaBooks (keyPrefix : JsString) (resource : DailyQuotaResource) (day : ℤ) (limit : ℕ)
    (past : List QuotaCall) : Prop where
  fits : ∀ call ∈ past, call.Fits resource day limit
  memory : (memoryAfter past).count (dayKey day) resource =
    min limit (past.countP (QuotaCall.on resource day))
  redis : redisAfter keyPrefix past (RedisReliabilityStore.dailyQuotaKey keyPrefix resource (dayKey day)) =
    redisEntry past resource (dayKey day)

theorem quotaBooks_nil : QuotaBooks keyPrefix resource day limit [] where
  fits := nofun
  memory := (Nat.min_zero limit).symm
  redis := rfl

theorem quotaBooks_concat {call : QuotaCall} (hyear : FourDigitYear day)
    (h : QuotaBooks keyPrefix resource day limit past) (hcall : call.Fits resource day limit) :
    QuotaBooks keyPrefix resource day limit (past ++ [call]) where
  fits := List.forall_mem_append.mpr ⟨h.fits, List.forall_mem_singleton.mpr hcall⟩
  memory := by
    have hmemory := h.memory
    unfold memoryAfter at hmemory ⊢
    rw [Services.after_concat, List.countP_append, List.countP_singleton]
    cases call with
    | snapshot now ranAt => exact (getOrCreateDailyCounters_count ..).trans hmemory
    | reserve options ranAt =>
      have hkey : utcDayKey options.now = dayKey day ↔ utcDay options.now = day :=
        ⟨fun h => dayKey_inj hyear h, fun h => congrArg dayKey h⟩
      refine (memory_reserve_count ..).trans ?_
      simp only [QuotaCall.on, hkey, Bool.and_eq_true, decide_eq_true_eq]
      split_ifs with hmine
      · obtain ⟨rfl, rfl⟩ := hmine
        rw [(memory_reserve ..).1, (hcall rfl rfl).1]
        unfold utcDayKey
        rw [hmemory]
        by_cases hlimit : past.countP (QuotaCall.on options.resource (utcDay options.now)) < limit
        · rw [decide_eq_true (by omega), Bool.toNat_true]
          omega
        · rw [decide_eq_false (by omega), Bool.toNat_false]
          omega
      · exact hmemory
  redis := by
    refine redis_books_concat h.redis fun options ranAt hreserve huses => ?_
    subst hreserve
    rw [uses_dayKey hyear] at huses
    simp only [QuotaCall.on, Bool.and_eq_true, decide_eq_true_eq] at huses
    exact alive_of_fits hyear h.fits (hcall huses.1 huses.2).2.2

end

/-- **Exactly the first reservations of a day are allowed**, in memory and in Redis: a resource with a
fixed limit is granted while it has been asked for less often on that day. -/
theorem daily_quota (keyPrefix : JsString) {resource : DailyQuotaResource} {day : ℤ} {limit : ℕ}
    {calls : List QuotaCall} (hyear : FourDigitYear day)
    (hfits : ∀ call ∈ calls, call.Fits resource day limit) :
    AtEachPrefix (fun past call => ∀ options ranAt, call = .reserve options ranAt →
      options.resource = resource → utcDay options.now = day →
      (((memoryAfter past).reserveDailyQuota options).2.allowed = true ↔
        past.countP (QuotaCall.on resource day) < limit) ∧
      ((RedisReliabilityStore.reserveDailyQuota keyPrefix (redisAfter keyPrefix past) options
          ranAt).2.allowed = true ↔
        past.countP (QuotaCall.on resource day) < limit)) calls := by
  rintro past call later hsplit options ranAt rfl rfl rfl
  have hall := AtEachPrefix.of_forall_mem hfits
  have hbooks : QuotaBooks keyPrefix options.resource (utcDay options.now) limit past := by
    rw [hsplit] at hall
    exact hall.of_append.invariant quotaBooks_nil
      fun past call h hcall => quotaBooks_concat hyear h hcall
  obtain ⟨hlimit, -, hran⟩ := hall past _ later hsplit rfl rfl
  have hmemory : (memoryAfter past).count (utcDayKey options.now) options.resource =
      min limit (past.countP (QuotaCall.on options.resource (utcDay options.now))) := hbooks.memory
  obtain ⟨-, hredis⟩ := value_of_alive hbooks.redis (alive_of_fits hyear hbooks.fits hran)
  constructor
  · rw [(memory_reserve ..).1, hmemory, hlimit, decide_eq_true_eq]
    omega
  · rw [(redis_reserve ..).1, hlimit, decide_eq_true_eq]
    unfold utcDayKey
    rw [hredis]
    unfold attempts
    rw [uses_dayKey hyear]

/-- Two reservations on the first of January 2026, and one on the next day. -/
def exampleQuotaCalls : List QuotaCall :=
  [.reserve ⟨.judge0, 1, 1767225600000⟩ 1767225600000,
    .reserve ⟨.judge0, 1, 1767225601000⟩ 1767225601005,
    .reserve ⟨.judge0, 1, 1767312000000⟩ 1767312000000]

theorem daily_quota_example : FourDigitYear 20454 ∧
    ((memoryAfter (exampleQuotaCalls.take 1)).reserveDailyQuota
      ⟨.judge0, 1, 1767225601000⟩).2.allowed = false ∧
    AtEachPrefix (fun past call => ∀ options ranAt, call = .reserve options ranAt →
      options.resource = .judge0 → utcDay options.now = 20454 →
      (((memoryAfter past).reserveDailyQuota options).2.allowed = true ↔
        past.countP (QuotaCall.on .judge0 20454) < 1) ∧
      ((RedisReliabilityStore.reserveDailyQuota (js "codeshare") (redisAfter (js "codeshare") past)
          options ranAt).2.allowed = true ↔
        past.countP (QuotaCall.on .judge0 20454) < 1)) exampleQuotaCalls :=
  ⟨by decide, by decide, daily_quota (js "codeshare") (by decide) (by decide)⟩

/-- The first two days of the year 10000 share a key. -/
theorem tenThousandth_year_shares_key :
    utcDay 253402300800000 ≠ utcDay 253402387200000 ∧
    ((memoryAfter [.reserve ⟨.judge0, 1, 253402300800000⟩ 253402300800000]).reserveDailyQuota
      ⟨.judge0, 1, 253402387200000⟩).2.allowed = false ∧
    (RedisReliabilityStore.reserveDailyQuota (js "codeshare")
      (redisAfter (js "codeshare") [.reserve ⟨.judge0, 1, 253402300800000⟩ 253402300800000])
      ⟨.judge0, 1, 253402387200000⟩ 253402387200000).2.allowed = false := by
  decide

end CodeShare.ReliabilityStore
