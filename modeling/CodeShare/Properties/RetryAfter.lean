import CodeShare.Properties.WindowRetry

/-! # Retry-After

A denied call is told after how many seconds it would be allowed. The windows of both stores end when they say, and
the days of the memory store do; the daily keys of Redis live a day longer than their days.
-/

namespace CodeShare.ReliabilityStore
open Calendar
set_option autoImplicit false

def RetryExact (kind : ReliabilityStoreKind) (keyPrefix : JsString) (past : List StoreCall) (call : StoreCall) : Prop :=
  match kind with
  | .memory => Exact memoryAnswer (memoryStoreAfter past) call
  | .redis => Exact (redisAnswer keyPrefix) (keyspaceAfter keyPrefix past) call

def quotaCalls (past : List StoreCall) : List QuotaCall := past.filterMap StoreCall.quotaCall

/-- Earlier calls that Redis counts in the same window have windows of the same length. A reservation is within its
limit, or the memory store has it in a year from 100 to 9999. -/
def TimedWell (kind : ReliabilityStoreKind) (keyPrefix : JsString) (past : List StoreCall) : StoreCall → Prop
  | .window options => kind = .redis → SameLength keyPrefix past options
  | .quota options =>
    attempts (quotaCalls past) options.resource (utcDayKey options.now) < options.limit ∨
      (kind = .memory ∧ 100 ≤ yearFromDay (utcDay options.now) ∧ yearFromDay (utcDay options.now) ≤ 9999)

section
variable {keyPrefix : JsString} {past : List StoreCall} {options : DailyQuotaOptions} {resource : DailyQuotaResource}
  {key : JsString} {windowOf : JsString → ℤ} {quotaOf : DailyQuotaResource → ℕ}

/-! ## Days -/

theorem lt_midnight (now : ℤ) : now < (utcDay now + 1) * msPerDay := Int.lt_ediv_add_one_mul_self now (by decide)

/-- The key of the day behind a day with a four-digit year has not been used up to then. -/
theorem dayKey_succ_ne {day earlier : ℤ} (hyear : FourDigitYear day) (hle : earlier ≤ day) :
    dayKey earlier ≠ dayKey (day + 1) := by
  intro h
  by_cases hnext : FourDigitYear (day + 1)
  · have heq := dayKey_inj hnext h
    omega
  · -- the next day is the first one with a sign, and earlier days with that sign have other years
    have hearlier : ¬ FourDigitYear earlier := fun hfour => hnext (fourDigitYear_of_dayKey hfour h.symm)
    have hsign : ∀ {day}, ¬ FourDigitYear day →
        (dayKey day).head? = some (if yearFromDay day < 0 then 45 else 43) := by
      intro day hday
      unfold dayKey isoDate
      dsimp only
      rw [if_neg (show ¬ (0 ≤ yearFromDay day ∧ yearFromDay day ≤ 9999) from hday)]
      rfl
    have hyears : ¬ yearFromDay (day + 1) < yearFromDay day := by
      intro hlt
      have hdays := lt_of_yearFromDay_lt hlt
      omega
    have hyears' : ¬ yearFromDay day < yearFromDay earlier := by
      intro hlt
      have hdays := lt_of_yearFromDay_lt hlt
      omega
    have hhead := congrArg List.head? h
    rw [hsign hearlier, hsign hnext, Option.some.injEq] at hhead
    unfold FourDigitYear at hyear hnext hearlier
    split_ifs at hhead <;> omega

/-- From the year 100 on the time to the next day is exact; before, it is longer by centuries. -/
theorem msUntilNextUtcDay_eq {now : ℤ} (hyear : 100 ≤ yearFromDay (utcDay now)) :
    msUntilNextUtcDay now = (utcDay now + 1) * msPerDay - now := by
  have hself : makeDay (yearFromDay (utcDay now)) (monthFromDay (utcDay now))
      (dateFromDay (utcDay now) + 1) = utcDay now + 1 := by
    rw [makeDay_add, makeDay_self]
  have hlt := lt_midnight now
  unfold msUntilNextUtcDay dateUTC
  dsimp only
  rw [if_neg (by omega), hself]
  omega

theorem lt_msUntilNextUtcDay {now : ℤ} (hyear : 0 ≤ yearFromDay (utcDay now) ∧ yearFromDay (utcDay now) ≤ 99) :
    (utcDay now + 1) * msPerDay - now + 1000 < msUntilNextUtcDay now := by
  have hself : makeDay (yearFromDay (utcDay now)) (monthFromDay (utcDay now))
      (dateFromDay (utcDay now) + 1) = utcDay now + 1 := by
    rw [makeDay_add, makeDay_self]
  have hcentury := makeDay_strictMono (show yearFromDay (utcDay now) < 1900 + yearFromDay (utcDay now) by omega)
    (monthFromDay (utcDay now)) (dateFromDay (utcDay now) + 1)
  rw [hself] at hcentury
  unfold msUntilNextUtcDay dateUTC msPerDay
  dsimp only
  rw [if_pos hyear]
  omega

/-! ## The parts of a store -/

theorem memoryStoreAfter_snd (past : List StoreCall) : (memoryStoreAfter past).2 = memoryAfter (quotaCalls past) := by
  induction past using List.reverseRecOn with
  | nil => rfl
  | append_singleton past call ih =>
    unfold memoryStoreAfter quotaCalls memoryAfter at *
    rw [Services.after_concat, List.filterMap_append]
    cases call with
    | window options =>
      rw [show [StoreCall.window options].filterMap StoreCall.quotaCall = [] from rfl, List.append_nil, ← ih]
      rfl
    | quota options =>
      rw [show [StoreCall.quota options].filterMap StoreCall.quotaCall = [.reserve options options.now] from rfl,
        Services.after_concat, ← ih]
      rfl

/-- Under the daily keys Redis holds what the reservations have left there. -/
theorem keyspaceAfter_daily (past : List StoreCall) (resource : DailyQuotaResource) (day : JsString) :
    keyspaceAfter keyPrefix past (RedisReliabilityStore.dailyQuotaKey keyPrefix resource day) =
      redisAfter keyPrefix (quotaCalls past) (RedisReliabilityStore.dailyQuotaKey keyPrefix resource day) := by
  induction past using List.reverseRecOn generalizing resource day with
  | nil => rfl
  | append_singleton past call ih =>
    unfold keyspaceAfter quotaCalls redisAfter at *
    rw [Services.after_concat, List.filterMap_append]
    cases call with
    | window options =>
      rw [show [StoreCall.window options].filterMap StoreCall.quotaCall = [] from rfl, List.append_nil, ← ih]
      exact reserveScript_other _ _ _ (dailyQuotaKey_ne_windowKey _ _) _ _
    | quota options =>
      rw [show [StoreCall.quota options].filterMap StoreCall.quotaCall = [.reserve options options.now] from rfl,
        Services.after_concat]
      by_cases hkey : RedisReliabilityStore.dailyQuotaKey keyPrefix resource day =
          RedisReliabilityStore.dailyQuotaKey keyPrefix options.resource (utcDayKey options.now)
      · rw [hkey]
        exact (reserveScript_congr (ih _ _) _ _ _).2
      · exact (reserveScript_other _ _ _ hkey _ _).trans
          ((ih _ _).trans (reserveScript_other _ _ _ hkey _ _).symm)

/-- Every window in Redis is in the books. -/
theorem windowBooks_after (hpast : ∀ call ∈ past, call.Configured windowOf quotaOf) :
    WindowBooks keyPrefix past (keyspaceAfter keyPrefix past) := by
  induction past using List.reverseRecOn with
  | nil => exact fun _ _ _ hv => nomatch hv
  | append_singleton past call ih =>
    obtain ⟨hpast, hcall⟩ := List.forall_mem_append.mp hpast
    unfold keyspaceAfter
    rw [Services.after_concat]
    exact windowBooks_concat (ih hpast) (hcall call (List.mem_singleton_self _))

/-! ## Counts -/

/-- Neither store counts more than the attempts. -/
theorem count_le_attempts (past : List QuotaCall) (resource : DailyQuotaResource) (key : JsString) :
    (memoryAfter past).count key resource ≤ attempts past resource key := by
  induction past using List.reverseRecOn with
  | nil => exact Nat.zero_le _
  | append_singleton past call ih =>
    unfold memoryAfter at *
    rw [Services.after_concat, attempts_concat]
    cases call with
    | snapshot now ranAt => exact (getOrCreateDailyCounters_count ..).trans_le (ih.trans (Nat.le_add_right _ _))
    | reserve options ranAt =>
      refine (memory_reserve_count ..).trans_le ?_
      have hone := Bool.toNat_le ((MemoryReliabilityStore.reserveDailyQuota
        (Services.after MemoryReliabilityStore.handle .empty past) options).2.allowed)
      split_ifs with hmine
      · simp only [QuotaCall.uses, hmine, decide_true, Bool.and_self, Bool.toNat_true]
        omega
      · omega

theorem stored_le_attempts (past : List QuotaCall) (resource : DailyQuotaResource) (key : JsString)
    {v : RedisValue} (hv : redisAfter keyPrefix past (RedisReliabilityStore.dailyQuotaKey keyPrefix resource key) = some v) :
    1 ≤ v.value ∧ v.value ≤ attempts past resource key := by
  induction past using List.reverseRecOn generalizing v with
  | nil => cases hv
  | append_singleton past call ih =>
    unfold redisAfter at *
    rw [Services.after_concat] at hv
    rw [attempts_concat]
    cases call with
    | snapshot now ranAt =>
      obtain ⟨hpositive, hle⟩ := ih hv
      exact ⟨hpositive, hle.trans (Nat.le_add_right _ _)⟩
    | reserve options ranAt =>
      by_cases hkey : RedisReliabilityStore.dailyQuotaKey keyPrefix resource key =
          RedisReliabilityStore.dailyQuotaKey keyPrefix options.resource (utcDayKey options.now)
      · obtain ⟨rfl, rfl⟩ := dailyQuotaKey_inj.mp hkey
        have hself := reserveScript_self (Services.after (RedisReliabilityStore.handle keyPrefix) (fun _ => none) past)
          ranAt (RedisReliabilityStore.dailyQuotaKey keyPrefix options.resource (utcDayKey options.now)) options.limit
          (max 1 (msUntilNextUtcDay options.now + 86400000))
          fun v hv => (ih (Option.filter_eq_some_iff.mp hv).1).1
        obtain rfl := Option.some.inj (hself.symm.trans hv)
        have hvalue : (Services.after (RedisReliabilityStore.handle keyPrefix) (fun _ => none) past).value ranAt
              (RedisReliabilityStore.dailyQuotaKey keyPrefix options.resource (utcDayKey options.now)) ≤
            attempts past options.resource (utcDayKey options.now) := by
          by_contra hgreater
          obtain ⟨v, hv, -, hvalue⟩ := exists_of_value (Nat.zero_lt_of_lt (not_le.mp hgreater))
          have hle := (ih hv).2
          omega
        refine ⟨Nat.le_add_left 1 _, ?_⟩
        simp only [QuotaCall.uses, decide_true, Bool.and_self, Bool.toNat_true]
        omega
      · have hbefore : Services.after (RedisReliabilityStore.handle keyPrefix) (fun _ => none) past
            (RedisReliabilityStore.dailyQuotaKey keyPrefix resource key) = some v := by
          rw [← hv]
          exact (reserveScript_other _ _ _ hkey _ _).symm
        obtain ⟨hpositive, hle⟩ := ih hbefore
        exact ⟨hpositive, hle.trans (Nat.le_add_right _ _)⟩

theorem value_le_attempts (past : List QuotaCall) (resource : DailyQuotaResource) (key : JsString) (clock : ℤ) :
    (redisAfter keyPrefix past).value clock (RedisReliabilityStore.dailyQuotaKey keyPrefix resource key) ≤
      attempts past resource key := by
  by_contra hgreater
  obtain ⟨v, hv, -, hvalue⟩ := exists_of_value (Nat.zero_lt_of_lt (not_le.mp hgreater))
  have hle := (stored_le_attempts past resource key hv).2
  omega

theorem daily_value_le (past : List StoreCall) (resource : DailyQuotaResource) (key : JsString) (clock : ℤ) :
    (keyspaceAfter keyPrefix past).value clock (RedisReliabilityStore.dailyQuotaKey keyPrefix resource key) ≤
      attempts (quotaCalls past) resource key := by
  have hle : (redisAfter keyPrefix (quotaCalls past)).value clock
      (RedisReliabilityStore.dailyQuotaKey keyPrefix resource key) ≤ attempts (quotaCalls past) resource key :=
    value_le_attempts (quotaCalls past) resource key clock
  unfold Keyspace.value Keyspace.lookup at *
  rwa [keyspaceAfter_daily]

/-- No reservation has been attempted on the next day. -/
theorem attempts_next_day {day : ℤ} (hyear : FourDigitYear day)
    (htimes : ∀ call ∈ past, utcDay call.now ≤ day) : attempts (quotaCalls past) resource (dayKey (day + 1)) = 0 := by
  unfold attempts
  rw [List.countP_eq_zero]
  intro call hm huses
  obtain ⟨earlier, hearlier, hcall⟩ := List.mem_filterMap.mp hm
  cases earlier with
  | window options => cases hcall
  | quota options =>
    obtain rfl := Option.some.inj hcall
    simp only [QuotaCall.uses, Bool.and_eq_true, decide_eq_true_eq] at huses
    exact dayKey_succ_ne hyear (htimes _ hearlier) huses.2

/-- The books of both stores on the day of a call. -/
theorem quotaBooks_after {day : ℤ} (hyear : FourDigitYear day)
    (hpast : ∀ call ∈ past, call.Configured windowOf quotaOf) (resource : DailyQuotaResource) :
    QuotaBooks keyPrefix resource day (quotaOf resource) (quotaCalls past) := by
  have hfits : ∀ call ∈ quotaCalls past, call.Fits resource day (quotaOf resource) := by
    intro call hm
    obtain ⟨earlier, hearlier, hcall⟩ := List.mem_filterMap.mp hm
    cases earlier with
    | window options => cases hcall
    | quota options =>
      obtain rfl := Option.some.inj hcall
      rintro rfl rfl
      refine ⟨(hpast _ hearlier).2, le_refl _, ?_⟩
      have hlt := lt_midnight options.now
      unfold msPerDay at hlt ⊢
      omega
  exact (AtEachPrefix.of_forall_mem hfits).invariant quotaBooks_nil
    fun past call h hcall => quotaBooks_concat hyear h hcall

/-! ## Quotas -/

theorem utcDay_before {now ms : ℤ} (hms : 0 ≤ ms) (hearly : ms < (utcDay now + 1) * msPerDay - now) :
    utcDay (now + ms) = utcDay now := by
  unfold utcDay msPerDay at *
  omega

theorem utcDay_behind {now ms : ℤ} (hlate : (utcDay now + 1) * msPerDay - now ≤ ms)
    (hsoon : ms < (utcDay now + 1) * msPerDay - now + 1000) : utcDay (now + ms) = utcDay now + 1 := by
  unfold utcDay msPerDay at *
  omega

/-- What denies until the next day and allows then is exact when it says so. -/
theorem exact_quota_iff {σ : Type} {answer : σ → StoreCall → σ × RateLimitCheckResult} {store : σ}
    (hdenied : (answer store (.quota options)).2.allowed = false)
    (hsameDay : ∀ later : DailyQuotaOptions, later.resource = options.resource → later.limit = options.limit →
      utcDay later.now = utcDay options.now → options.now ≤ later.now →
      (answer (answer store (.quota options)).1 (.quota later)).2.allowed = false)
    (hnextDay : ∀ later : DailyQuotaOptions, later.resource = options.resource → later.limit = options.limit →
      utcDay later.now = utcDay options.now + 1 →
      (answer (answer store (.quota options)).1 (.quota later)).2.allowed = true) :
    Exact answer store (.quota options) ↔ (answer store (.quota options)).2.retryAfterSeconds =
      retryAfterSeconds ((utcDay options.now + 1) * msPerDay - options.now) := by
  have hlt := lt_midnight options.now
  have hleast : IsLeast {k : ℤ | 1 ≤ k ∧ (answer (answer store (.quota options)).1
      ((StoreCall.quota options).later (1000 * k))).2.allowed = true}
      (retryAfterSeconds ((utcDay options.now + 1) * msPerDay - options.now)) := by
    apply isLeast_retryAfterSeconds
    · omega
    · intro k hk hearly
      rw [Bool.not_eq_true]
      refine hsameDay _ rfl rfl (utcDay_before (by omega) hearly) ?_
      dsimp only
      omega
    · intro k _ hlate hsoon
      exact hnextDay _ rfl rfl (utcDay_behind hlate hsoon)
  constructor
  · intro h
    exact (h hdenied).unique hleast
  · intro h _
    rw [h]
    exact hleast

theorem retryAfterSeconds_lt {ms ms' : ℤ} (hms : 0 < ms) (h : ms + 1000 ≤ ms') :
    retryAfterSeconds ms < retryAfterSeconds ms' := by
  unfold retryAfterSeconds
  omega

/-- The attempts of a four-digit day are its reservations. -/
theorem attempts_eq_countP {day : ℤ} (hyear : FourDigitYear day) (past : List QuotaCall)
    (resource : DailyQuotaResource) :
    attempts past resource (dayKey day) = past.countP (QuotaCall.on resource day) := by
  unfold attempts
  rw [uses_dayKey hyear]

/-! ### In memory -/

theorem memory_quota_allowed
    (hroom : attempts (quotaCalls past) options.resource (utcDayKey options.now) < options.limit) :
    ((memoryAfter (quotaCalls past)).reserveDailyQuota options).2.allowed = true := by
  have hle := count_le_attempts (quotaCalls past) options.resource (utcDayKey options.now)
  rw [(memory_reserve ..).1]
  exact decide_eq_true (lt_of_le_of_lt hle hroom)

/-- The counter of a day that is used up. -/
theorem memory_count_full (hyear : FourDigitYear (utcDay options.now))
    (hpast : ∀ call ∈ past, call.Configured windowOf quotaOf) (hquota : options.limit = quotaOf options.resource)
    (hfull : options.limit ≤ attempts (quotaCalls past) options.resource (utcDayKey options.now)) :
    (memoryAfter (quotaCalls past)).count (utcDayKey options.now) options.resource = options.limit := by
  have hbooks : QuotaBooks [] options.resource (utcDay options.now) (quotaOf options.resource) (quotaCalls past) :=
    quotaBooks_after hyear hpast options.resource
  rw [utcDayKey, hbooks.memory, ← attempts_eq_countP hyear, ← hquota]
  exact min_eq_left hfull

/-- A reservation at a full counter is denied, and no count changes. -/
theorem memory_reserve_full {store : MemoryReliabilityStore}
    (hcount : store.count (utcDayKey options.now) options.resource = options.limit) :
    (store.reserveDailyQuota options).2.allowed = false ∧
      (store.reserveDailyQuota options).2.retryAfterSeconds = retryAfterSeconds (msUntilNextUtcDay options.now) ∧
      ∀ key resource, (store.reserveDailyQuota options).1.count key resource = store.count key resource := by
  have hdenied : (store.reserveDailyQuota options).2.allowed = false := by
    rw [(memory_reserve ..).1, hcount]
    simp
  refine ⟨hdenied, ?_, fun key resource => ?_⟩
  · have hused : options.limit ≤ (store.getOrCreateDailyCounters (utcDayKey options.now)).2 options.resource := by
      rw [getOrCreateDailyCounters_snd, hcount]
    unfold MemoryReliabilityStore.reserveDailyQuota
    dsimp only
    rw [if_pos hused]
  · rw [memory_reserve_count, hdenied]
    simp

theorem retryAfterSeconds_midnight_iff (hyear : FourDigitYear (utcDay options.now)) :
    retryAfterSeconds (msUntilNextUtcDay options.now) =
      retryAfterSeconds ((utcDay options.now + 1) * msPerDay - options.now) ↔ 100 ≤ yearFromDay (utcDay options.now) := by
  constructor
  · intro heq
    by_contra hearly
    have hlonger := retryAfterSeconds_lt (sub_pos.mpr (lt_midnight options.now))
      (lt_msUntilNextUtcDay ⟨hyear.1, by omega⟩).le
    omega
  · intro hcentury
    rw [msUntilNextUtcDay_eq hcentury]

theorem memory_quota_exact_iff (hyear : FourDigitYear (utcDay options.now))
    (hpast : ∀ call ∈ past, call.Configured windowOf quotaOf) (hlimit : 1 ≤ options.limit)
    (hquota : options.limit = quotaOf options.resource) (htimes : ∀ call ∈ past, call.now ≤ options.now)
    (hfull : options.limit ≤ attempts (quotaCalls past) options.resource (utcDayKey options.now)) :
    Exact memoryAnswer (memoryStoreAfter past) (.quota options) ↔ 100 ≤ yearFromDay (utcDay options.now) := by
  have hcount := memory_count_full hyear hpast hquota hfull
  obtain ⟨hdenied, hretry, hcounts⟩ := memory_reserve_full hcount
  rw [exact_quota_iff]
  · show ((memoryStoreAfter past).2.reserveDailyQuota options).2.retryAfterSeconds = _ ↔ _
    rw [memoryStoreAfter_snd, hretry]
    exact retryAfterSeconds_midnight_iff hyear
  · show ((memoryStoreAfter past).2.reserveDailyQuota options).2.allowed = false
    rw [memoryStoreAfter_snd]
    exact hdenied
  · intro later hresource hsame hday _
    show (((memoryStoreAfter past).2.reserveDailyQuota options).1.reserveDailyQuota later).2.allowed = false
    rw [memoryStoreAfter_snd, (memory_reserve ..).1, hresource, utcDayKey, hday, hcounts, hsame]
    rw [utcDayKey] at hcount
    rw [hcount]
    simp
  · intro later hresource hsame hday
    show (((memoryStoreAfter past).2.reserveDailyQuota options).1.reserveDailyQuota later).2.allowed = true
    have hnone : (memoryAfter (quotaCalls past)).count (dayKey (utcDay options.now + 1)) options.resource = 0 := by
      have hle := count_le_attempts (quotaCalls past) options.resource (dayKey (utcDay options.now + 1))
      rw [attempts_next_day hyear] at hle
      · omega
      · exact fun call hm => Int.ediv_le_ediv (by decide) (htimes call hm)
    rw [memoryStoreAfter_snd, (memory_reserve ..).1, hresource, utcDayKey, hday, hcounts, hnone, hsame]
    exact decide_eq_true hlimit

/-! ### In Redis -/

theorem redis_quota_allowed
    (hroom : attempts (quotaCalls past) options.resource (utcDayKey options.now) < options.limit) :
    (RedisReliabilityStore.reserveDailyQuota keyPrefix (keyspaceAfter keyPrefix past) options options.now).2.allowed =
      true := by
  have hle : (keyspaceAfter keyPrefix past).value options.now _ ≤ _ :=
    daily_value_le past options.resource (utcDayKey options.now) options.now
  rw [(redis_reserve ..).1]
  exact decide_eq_true (lt_of_le_of_lt hle hroom)

/-- What Redis counts for the day of a call, as long as the day's key lives. -/
theorem daily_value_eq {day clock : ℤ} (hyear : FourDigitYear day)
    (hpast : ∀ call ∈ past, call.Configured windowOf quotaOf) (resource : DailyQuotaResource)
    (hclock : clock < (day + 2) * msPerDay) :
    (keyspaceAfter keyPrefix past).value clock (RedisReliabilityStore.dailyQuotaKey keyPrefix resource (dayKey day)) =
      attempts (quotaCalls past) resource (dayKey day) := by
  have hbooks : QuotaBooks keyPrefix resource day (quotaOf resource) (quotaCalls past) :=
    quotaBooks_after hyear hpast resource
  refine (value_of_alive ?_ (alive_of_fits hyear hbooks.fits hclock)).2
  rw [keyspaceAfter_daily, hbooks.redis]

theorem redis_quota_denied (hyear : FourDigitYear (utcDay options.now))
    (hpast : ∀ call ∈ past, call.Configured windowOf quotaOf)
    (hfull : options.limit ≤ attempts (quotaCalls past) options.resource (utcDayKey options.now)) :
    (RedisReliabilityStore.reserveDailyQuota keyPrefix (keyspaceAfter keyPrefix past) options options.now).2.allowed =
      false := by
  have hclock : options.now < (utcDay options.now + 2) * msPerDay := by
    have hmidnight := lt_midnight options.now
    unfold msPerDay at hmidnight ⊢
    omega
  rw [(redis_reserve ..).1, utcDayKey, daily_value_eq hyear hpast _ hclock]
  exact decide_eq_false (not_lt.mpr hfull)

/-- A day's key lives to the end of the next day. -/
theorem exists_daily_key {day : ℤ} (hyear : FourDigitYear day)
    (hpast : ∀ call ∈ past, call.Configured windowOf quotaOf)
    (hattempts : attempts (quotaCalls past) resource (dayKey day) ≠ 0) :
    ∃ expireAt, (day + 2) * msPerDay - 1 ≤ expireAt ∧
      keyspaceAfter keyPrefix past (RedisReliabilityStore.dailyQuotaKey keyPrefix resource (dayKey day)) =
        some ⟨attempts (quotaCalls past) resource (dayKey day), some expireAt⟩ := by
  have hbooks : QuotaBooks keyPrefix resource day (quotaOf resource) (quotaCalls past) :=
    quotaBooks_after hyear hpast resource
  obtain ⟨expireAt, hexpiry⟩ : ∃ expireAt, expiry (quotaCalls past) resource (dayKey day) = some expireAt := by
    rw [← Option.isSome_iff_exists, Option.isSome_iff_ne_none]
    exact fun hnone => hattempts (expiry_eq_none.mp hnone)
  refine ⟨expireAt, alive_of_fits hyear hbooks.fits (by omega) expireAt hexpiry, ?_⟩
  rw [keyspaceAfter_daily, hbooks.redis, redisEntry, hexpiry]
  rfl

theorem keyspaceAfter_reserve (past : List StoreCall) (options : DailyQuotaOptions) :
    (RedisReliabilityStore.reserveDailyQuota keyPrefix (keyspaceAfter keyPrefix past) options options.now).1 =
      keyspaceAfter keyPrefix (past ++ [.quota options]) := by
  unfold keyspaceAfter
  rw [Services.after_concat]
  rfl

theorem attempts_reserve (past : List StoreCall) (options : DailyQuotaOptions) :
    attempts (quotaCalls (past ++ [.quota options])) options.resource (utcDayKey options.now) =
      attempts (quotaCalls past) options.resource (utcDayKey options.now) + 1 := by
  unfold quotaCalls
  rw [List.filterMap_append]
  refine attempts_concat.trans ?_
  simp [QuotaCall.uses]

/-- Redis tells a reservation that it denies to wait for a day too long. -/
theorem redis_quota_not_exact (hyear : FourDigitYear (utcDay options.now))
    (hpast : ∀ call ∈ past, call.Configured windowOf quotaOf)
    (hcall : (StoreCall.quota options).Configured windowOf quotaOf) (htimes : ∀ call ∈ past, call.now ≤ options.now)
    (hfull : options.limit ≤ attempts (quotaCalls past) options.resource (utcDayKey options.now)) :
    ¬ Exact (redisAnswer keyPrefix) (keyspaceAfter keyPrefix past) (.quota options) := by
  have hpast' : ∀ call ∈ past ++ [.quota options], call.Configured windowOf quotaOf :=
    List.forall_mem_append.mpr ⟨hpast, List.forall_mem_singleton.mpr hcall⟩
  have hattempts := attempts_reserve past options
  have hdenied : (RedisReliabilityStore.reserveDailyQuota keyPrefix (keyspaceAfter keyPrefix past) options
      options.now).2.allowed = false := redis_quota_denied hyear hpast hfull
  rw [exact_quota_iff hdenied]
  · show (RedisReliabilityStore.reserveDailyQuota keyPrefix (keyspaceAfter keyPrefix past) options
      options.now).2.retryAfterSeconds ≠ _
    have hmidnight := lt_midnight options.now
    have hday : (utcDay options.now + 2) * msPerDay = (utcDay options.now + 1) * msPerDay + 86400000 := by
      unfold msPerDay
      omega
    obtain ⟨expireAt, hlives, hkey⟩ := exists_daily_key hyear hpast'
      (hattempts.trans_ne (Nat.succ_ne_zero _))
    rw [← keyspaceAfter_reserve] at hkey
    have hretry : (RedisReliabilityStore.reserveDailyQuota keyPrefix (keyspaceAfter keyPrefix past) options
        options.now).2.retryAfterSeconds = retryAfterSeconds (expireAt - options.now) := by
      rw [← reserve_ttlMs hkey (by omega)]
      exact if_neg (by rw [Bool.not_eq_true]; exact hdenied)
    rw [hretry]
    have hlonger : retryAfterSeconds ((utcDay options.now + 1) * msPerDay - options.now) <
        retryAfterSeconds (expireAt - options.now) := retryAfterSeconds_lt (sub_pos.mpr hmidnight) (by omega)
    omega
  · intro later hresource hsame hlaterDay _
    show (RedisReliabilityStore.reserveDailyQuota keyPrefix (RedisReliabilityStore.reserveDailyQuota keyPrefix
      (keyspaceAfter keyPrefix past) options options.now).1 later later.now).2.allowed = false
    rw [keyspaceAfter_reserve]
    apply redis_quota_denied (hlaterDay ▸ hyear) hpast'
    rw [hresource, hsame, utcDayKey, hlaterDay]
    exact hfull.trans ((Nat.le_succ _).trans_eq hattempts.symm)
  · intro later hresource hsame hlaterDay
    show (RedisReliabilityStore.reserveDailyQuota keyPrefix (RedisReliabilityStore.reserveDailyQuota keyPrefix
      (keyspaceAfter keyPrefix past) options options.now).1 later later.now).2.allowed = true
    rw [keyspaceAfter_reserve]
    apply redis_quota_allowed
    have hnone : attempts (quotaCalls (past ++ [.quota options])) options.resource
        (dayKey (utcDay options.now + 1)) = 0 := by
      refine attempts_next_day hyear fun call hm => ?_
      rcases List.mem_append.mp hm with hm | hm
      · exact Int.ediv_le_ediv (by decide) (htimes call hm)
      · rw [List.mem_singleton.mp hm]
        exact le_refl _
    rw [hresource, hsame, utcDayKey, hlaterDay, hnone]
    exact hcall.1

/-! ## Calls in a row -/

/-- A reservation within its limit is allowed. -/
theorem quota_allowed (kind : ReliabilityStoreKind)
    (hroom : attempts (quotaCalls past) options.resource (utcDayKey options.now) < options.limit) :
    RetryExact kind keyPrefix past (.quota options) := by
  cases kind with
  | memory =>
    intro hdenied
    have hallowed := memory_quota_allowed hroom
    rw [← memoryStoreAfter_snd] at hallowed
    exact absurd (hallowed.symm.trans hdenied) (by decide)
  | redis => exact fun hdenied => absurd ((redis_quota_allowed hroom).symm.trans hdenied) (by decide)

/-- In the years 0 to 9999, a reservation is exact when it is within its limit, or in memory from the year 100 on. -/
theorem quota_exact_iff (kind : ReliabilityStoreKind) (hyear : FourDigitYear (utcDay options.now))
    (hpast : ∀ call ∈ past, call.Configured windowOf quotaOf)
    (hcall : (StoreCall.quota options).Configured windowOf quotaOf) (htimes : ∀ call ∈ past, call.now ≤ options.now) :
    RetryExact kind keyPrefix past (.quota options) ↔ TimedWell kind keyPrefix past (.quota options) := by
  by_cases hroom : attempts (quotaCalls past) options.resource (utcDayKey options.now) < options.limit
  · exact iff_of_true (quota_allowed kind hroom) (.inl hroom)
  · unfold TimedWell
    dsimp only
    rw [or_iff_right hroom]
    cases kind with
    | memory =>
      refine (memory_quota_exact_iff hyear hpast hcall.1 hcall.2 htimes (not_lt.mp hroom)).trans ?_
      exact ⟨fun hcentury => ⟨rfl, hcentury, hyear.2⟩, fun h => h.2.1⟩
    | redis =>
      exact iff_of_false (redis_quota_not_exact hyear hpast hcall htimes (not_lt.mp hroom)) (nofun)

end

/-- **Retry-After is exact** for every call that is timed well, and in the years 0 to 9999 for no other reservation:
a denied call is told the least number of seconds after which it would be allowed. -/
theorem retry_after_exact (kind : ReliabilityStoreKind) (keyPrefix : JsString) {windowOf : JsString → ℤ}
    {quotaOf : DailyQuotaResource → ℕ} {calls : List StoreCall} (htimes : calls.Pairwise fun a b => a.now ≤ b.now)
    (hcalls : ∀ call ∈ calls, call.Configured windowOf quotaOf) :
    AtEachPrefix (fun past call =>
      (TimedWell kind keyPrefix past call → RetryExact kind keyPrefix past call) ∧
        ∀ options, call = .quota options → FourDigitYear (utcDay options.now) →
          (RetryExact kind keyPrefix past call ↔ TimedWell kind keyPrefix past call)) calls := by
  rintro past call later rfl
  obtain ⟨hpast, hrest⟩ := List.forall_mem_append.mp hcalls
  have hcall := hrest call List.mem_cons_self
  have htimes' : ∀ earlier ∈ past, earlier.now ≤ call.now := fun earlier hm =>
    (List.pairwise_append.mp htimes).2.2 earlier hm call List.mem_cons_self
  constructor
  · intro htimed
    cases call with
    | window options =>
      cases kind with
      | memory => exact memory_window_exact _ options
      | redis =>
        exact redis_window_exact (windowBooks_after hpast) hpast htimes' hcall.1 hcall.2.2 (htimed rfl)
    | quota options =>
      rcases htimed with hroom | ⟨hkind, hcentury, hlast⟩
      · exact quota_allowed kind hroom
      · exact (quota_exact_iff kind ⟨by omega, hlast⟩ hpast hcall htimes').mpr (.inr ⟨hkind, hcentury, hlast⟩)
  · rintro options rfl hyear
    exact quota_exact_iff kind hyear hpast hcall htimes'

/-- An execution in the first second of 2026, and a request that opens a minute's window. -/
def exampleReservation : StoreCall := .quota ⟨.judge0, 1, 1767225600000⟩

def exampleWindow : StoreCall := .window ⟨js "import", js "10.0.0.1", 1, 60000, 1767225600000⟩

def exampleCalls : List StoreCall :=
  [exampleReservation, exampleWindow, exampleWindow.later 1000, exampleReservation.later 2000]

theorem retry_after_exact_example :
    RetryExact .redis (js "codeshare") [exampleReservation, exampleWindow] (exampleWindow.later 1000) ∧
      ¬ RetryExact .redis (js "codeshare") [exampleReservation, exampleWindow, exampleWindow.later 1000]
        (exampleReservation.later 2000) := by
  have hcalls : ∀ call ∈ exampleCalls, call.Configured (fun _ => 60000) (fun _ => 1) := by
    simp [exampleCalls, exampleReservation, exampleWindow, StoreCall.later, StoreCall.Configured]
  have hexact := retry_after_exact .redis (js "codeshare")
    (show exampleCalls.Pairwise fun a b => a.now ≤ b.now by decide) hcalls
  constructor
  · refine (hexact [exampleReservation, exampleWindow] _ [exampleReservation.later 2000] rfl).1 fun _ => ?_
    have hplain : ∀ other, .window other ∈ exampleCalls → 58 ∉ other.bucket := by
      simp [exampleCalls, exampleReservation, exampleWindow, StoreCall.later, js]
    exact sameLength_of_plain_buckets
      (fun call hm => hcalls call (List.mem_append_left [exampleReservation.later 2000] hm))
      (fun other hm => hplain other (List.mem_append_left [exampleReservation.later 2000] hm))
  · intro h
    have htimed := ((hexact [exampleReservation, exampleWindow, exampleWindow.later 1000] _ [] rfl).2
      ⟨.judge0, 1, 1767225602000⟩ rfl (by decide)).mp h
    have hused : 1 ≤ attempts (quotaCalls [exampleReservation, exampleWindow, exampleWindow.later 1000])
      .judge0 (utcDayKey 1767225602000) := by decide
    rcases htimed with hroom | ⟨hmemory, -⟩
    · exact absurd hroom (not_lt.mpr hused)
    · cases hmemory

/-- A second reservation in Redis is told to wait for two days, and would be allowed on the next one. -/
theorem redis_reservation_waits_too_long :
    (redisAnswer (js "codeshare") (keyspaceAfter (js "codeshare") [exampleReservation])
      (exampleReservation.later 1000)).2 = ⟨false, 172799⟩ ∧
    (redisAnswer (js "codeshare") (redisAnswer (js "codeshare") (keyspaceAfter (js "codeshare") [exampleReservation])
      (exampleReservation.later 1000)).1 (exampleReservation.later 86400000)).2.allowed = true ∧
    ¬ RetryExact .redis (js "codeshare") [exampleReservation] (exampleReservation.later 1000) := by
  have hanswer : (redisAnswer (js "codeshare") (keyspaceAfter (js "codeshare") [exampleReservation])
      (exampleReservation.later 1000)).2 = ⟨false, 172799⟩ := by decide
  have hnext : (redisAnswer (js "codeshare") (redisAnswer (js "codeshare")
      (keyspaceAfter (js "codeshare") [exampleReservation]) (exampleReservation.later 1000)).1
      (exampleReservation.later 86400000)).2.allowed = true := by decide
  refine ⟨hanswer, hnext, fun hexact => ?_⟩
  have hleast := (hexact (by rw [hanswer])).2 (show (86399 : ℤ) ∈ _ from ⟨by decide, hnext⟩)
  rw [hanswer] at hleast
  exact absurd hleast (by decide)

end CodeShare.ReliabilityStore
