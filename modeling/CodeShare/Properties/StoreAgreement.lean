import CodeShare.Properties.DailyQuota

/-! # The two stores

The memory store counts the reservations it allows, Redis all that are asked for. The stores give the
same answers exactly as long as nobody comes back to a quota that was used up.
-/

namespace CodeShare.ReliabilityStore
set_option autoImplicit false

/-- No reservation has found its limit used up. -/
def WithinLimits (past : List QuotaCall) (resource : DailyQuotaResource) (key : JsString) : Prop :=
  AtEachPrefix (fun before call => ∀ options ranAt, call = .reserve options ranAt →
    options.resource = resource → utcDayKey options.now = key →
      attempts before resource key < options.limit) past

/-- The key was never used up, and has not run out. -/
structure Fresh (past : List QuotaCall) (resource : DailyQuotaResource) (key : JsString) (ranAt : ℤ) :
    Prop where
  within : WithinLimits past resource key
  alive : Alive past resource key ranAt

/-- A reservation comes to a fresh key; a snapshot finds fresh keys, used on its own day only. -/
def Undisturbed (past : List QuotaCall) : QuotaCall → Prop
  | .reserve options ranAt => Fresh past options.resource (utcDayKey options.now) ranAt
  | .snapshot now ranAt => ∀ resource, Fresh past resource (utcDayKey now) ranAt ∧
    ∀ call ∈ past, call.uses resource (utcDayKey now) = true → call.on resource (utcDay now) = true

/-- The reservations of a resource that were allowed on a day. -/
def granted (answers : List (QuotaCall × QuotaAnswer)) (resource : DailyQuotaResource) (day : ℤ) : ℕ :=
  answers.countP fun
    | (call, .reserved reservation) => call.on resource day && reservation.allowed
    | (_, .usage _) => false

/-- Both stores answer alike, and a snapshot counts the allowed reservations of its day. -/
def Agrees (keyPrefix : JsString) (past : List QuotaCall) : QuotaCall → Prop
  | .reserve options ranAt =>
    let memory := ((memoryAfter past).reserveDailyQuota options).2
    let redis := (RedisReliabilityStore.reserveDailyQuota keyPrefix (redisAfter keyPrefix past)
      options ranAt).2
    memory.allowed = redis.allowed ∧ memory.used = redis.used
  | .snapshot now ranAt => ∀ resource,
    let memory := ((memoryAfter past).getUsageSnapshot now).2 resource
    let redis := RedisReliabilityStore.getUsageSnapshot keyPrefix (redisAfter keyPrefix past)
      now ranAt resource
    memory = redis ∧
      memory = granted (Services.answers MemoryReliabilityStore.handle .empty past) resource
        (utcDay now) ∧
      redis = granted (Services.answers (RedisReliabilityStore.handle keyPrefix) (fun _ => none) past)
        resource (utcDay now)

/-- What the stores hold for a resource and a key as long as no call has been disturbed. -/
structure KeyBooks (keyPrefix : JsString) (past : List QuotaCall) (resource : DailyQuotaResource)
    (key : JsString) : Prop where
  redis : redisAfter keyPrefix past (RedisReliabilityStore.dailyQuotaKey keyPrefix resource key) =
    redisEntry past resource key
  positive : attempts past resource key ≠ 0 → 1 ≤ (memoryAfter past).count key resource
  exhausted : ¬ WithinLimits past resource key →
    (memoryAfter past).count key resource < attempts past resource key
  within : WithinLimits past resource key →
    (memoryAfter past).count key resource = attempts past resource key
  memoryGranted : WithinLimits past resource key → ∀ day, dayKey day = key →
    granted (Services.answers MemoryReliabilityStore.handle .empty past) resource day =
      past.countP (QuotaCall.on resource day)
  redisGranted : WithinLimits past resource key → ∀ day, dayKey day = key →
    granted (Services.answers (RedisReliabilityStore.handle keyPrefix) (fun _ => none) past)
      resource day = past.countP (QuotaCall.on resource day)

def StoreBooks (keyPrefix : JsString) (past : List QuotaCall) : Prop :=
  ∀ resource key, KeyBooks keyPrefix past resource key

theorem storeBooks_nil (keyPrefix : JsString) : StoreBooks keyPrefix [] := fun _ _ => {
  redis := rfl
  positive := fun h => absurd rfl h
  exhausted := fun h => absurd AtEachPrefix.nil h
  within := fun _ => rfl
  memoryGranted := fun _ _ _ => rfl
  redisGranted := fun _ _ _ => rfl }

/-! ## Answers -/

section
variable {keyPrefix : JsString} {past : List QuotaCall} {resource : DailyQuotaResource}
  {key : JsString} {ranAt : ℤ}

/-- The value of a key that has run out is lost. -/
theorem value_of_expired {db : Keyspace} {e : ℤ}
    (hbooks : db (RedisReliabilityStore.dailyQuotaKey keyPrefix resource key) =
      redisEntry past resource key) (he : expiry past resource key = some e) (hlate : e < ranAt) :
    db.value ranAt (RedisReliabilityStore.dailyQuotaKey keyPrefix resource key) = 0 := by
  unfold Keyspace.value Keyspace.lookup
  rw [hbooks]
  unfold redisEntry
  rw [he, Option.map_some, Option.filter_some_neg (by simpa using hlate)]
  rfl

/-- Both stores count the same exactly for a fresh key. -/
theorem count_eq_value_iff (h : KeyBooks keyPrefix past resource key) :
    (memoryAfter past).count key resource =
        (redisAfter keyPrefix past).value ranAt
          (RedisReliabilityStore.dailyQuotaKey keyPrefix resource key) ↔
      Fresh past resource key ranAt := by
  constructor
  · intro heq
    have halive : Alive past resource key ranAt := by
      intro e he
      by_contra hlate
      rw [value_of_expired h.redis he (not_le.mp hlate)] at heq
      have hpositive := h.positive fun hzero => by
        rw [expiry_eq_none.mpr hzero] at he
        cases he
      omega
    refine ⟨?_, halive⟩
    rw [(value_of_alive h.redis halive).2] at heq
    by_contra hexhausted
    exact absurd heq (h.exhausted hexhausted).ne
  · intro hfresh
    rw [(value_of_alive h.redis hfresh.alive).2]
    exact h.within hfresh.within

theorem countP_eq_iff_of_imp {α : Type} {p q : α → Bool} {l : List α} (h : ∀ a ∈ l, p a → q a) :
    l.countP q = l.countP p ↔ ∀ a ∈ l, q a → p a := by
  induction l with
  | nil => exact iff_of_true rfl nofun
  | cons a l ih =>
    have hle : l.countP p ≤ l.countP q :=
      List.countP_mono_left fun b hb => h b (List.mem_cons_of_mem _ hb)
    have hl := ih fun b hb => h b (List.mem_cons_of_mem _ hb)
    have ha := h a List.mem_cons_self
    rw [List.forall_mem_cons, ← hl, List.countP_cons, List.countP_cons]
    cases hp : p a <;> cases hq : q a <;> simp_all
    omega

theorem undisturbed_iff_agrees (h : StoreBooks keyPrefix past) (call : QuotaCall) :
    Undisturbed past call ↔ Agrees keyPrefix past call := by
  cases call with
  | reserve options ranAt =>
    unfold Undisturbed Agrees
    dsimp only
    rw [← count_eq_value_iff (h _ _), (memory_reserve ..).2, (redis_reserve ..).2, (memory_reserve ..).1,
      (redis_reserve ..).1]
    constructor
    · intro heq
      rw [heq]
      exact ⟨rfl, rfl⟩
    · rintro ⟨hallowed, hused⟩
      rw [hallowed] at hused
      omega
  | snapshot now ranAt =>
    unfold Undisturbed Agrees
    refine forall_congr' fun resource => ?_
    have hmemory : ((memoryAfter past).getUsageSnapshot now).2 resource =
        (memoryAfter past).count (utcDayKey now) resource := getOrCreateDailyCounters_snd ..
    have hredis : RedisReliabilityStore.getUsageSnapshot keyPrefix (redisAfter keyPrefix past) now
        ranAt resource = (redisAfter keyPrefix past).value ranAt
          (RedisReliabilityStore.dailyQuotaKey keyPrefix resource (utcDayKey now)) := rfl
    have hday : ∀ call ∈ past, call.on resource (utcDay now) = true →
        call.uses resource (utcDayKey now) = true := fun call _ => QuotaCall.uses_of_on
    dsimp only
    have hbooks := h resource (utcDayKey now)
    rw [hmemory, hredis, count_eq_value_iff hbooks]
    refine and_congr_right fun hfresh => ?_
    rw [← (count_eq_value_iff hbooks).mpr hfresh, hbooks.within hfresh.within,
      hbooks.memoryGranted hfresh.within _ rfl, hbooks.redisGranted hfresh.within _ rfl, and_self]
    exact (countP_eq_iff_of_imp hday).symm

/-! ## One call -/

theorem withinLimits_concat {call : QuotaCall} :
    WithinLimits (past ++ [call]) resource key ↔ WithinLimits past resource key ∧
      ∀ options ranAt, call = .reserve options ranAt → options.resource = resource →
        utcDayKey options.now = key → attempts past resource key < options.limit :=
  AtEachPrefix.concat_iff

theorem granted_concat {answers : List (QuotaCall × QuotaAnswer)} {answer : QuotaCall × QuotaAnswer}
    {day : ℤ} : granted (answers ++ [answer]) resource day =
      granted answers resource day + granted [answer] resource day :=
  List.countP_append

theorem granted_singleton {call : QuotaCall} {answer : QuotaAnswer} {day : ℤ}
    (h : call.uses resource (dayKey day) = false) : granted [(call, answer)] resource day = 0 := by
  have hon : call.on resource day = false := by
    by_contra hon
    rw [QuotaCall.uses_of_on (by simpa using hon)] at h
    cases h
  cases answer <;> simp [granted, hon]

theorem count_of_other {call : QuotaCall} (h : call.uses resource key = false) :
    (memoryAfter (past ++ [call])).count key resource = (memoryAfter past).count key resource := by
  unfold memoryAfter
  rw [Services.after_concat]
  cases call with
  | snapshot now ranAt => exact getOrCreateDailyCounters_count ..
  | reserve options ranAt =>
    simp only [QuotaCall.uses, Bool.and_eq_false_iff, decide_eq_false_iff_not] at h
    refine (memory_reserve_count ..).trans ?_
    rw [if_neg (by tauto), Nat.add_zero]

/-- A call leaves the books of other keys alone. -/
theorem keyBooks_of_other {call : QuotaCall} (h : KeyBooks keyPrefix past resource key)
    (hother : call.uses resource key = false) :
    KeyBooks keyPrefix (past ++ [call]) resource key := by
  have hattempts : attempts (past ++ [call]) resource key = attempts past resource key := by
    rw [attempts_concat, hother]
    rfl
  have hwithin : WithinLimits (past ++ [call]) resource key ↔ WithinLimits past resource key := by
    rw [withinLimits_concat]
    refine and_iff_left ?_
    rintro options ranAt rfl rfl rfl
    simp [QuotaCall.uses] at hother
  have hon : ∀ day, dayKey day = key →
      (past ++ [call]).countP (QuotaCall.on resource day) = past.countP (QuotaCall.on resource day) := by
    rintro day rfl
    rw [List.countP_append, Nat.add_eq_left, List.countP_eq_zero, List.forall_mem_singleton]
    intro hday
    rw [QuotaCall.uses_of_on hday] at hother
    cases hother
  refine ⟨redis_books_concat h.redis ?_, ?_, ?_, ?_, ?_, ?_⟩
  · intro options ranAt _ huses
    rw [huses] at hother
    cases hother
  · rw [hattempts, count_of_other hother]
    exact h.positive
  · rw [hwithin, hattempts, count_of_other hother]
    exact h.exhausted
  · rw [hwithin, hattempts, count_of_other hother]
    exact h.within
  · intro hlimits day hday
    rw [Services.answers_concat, granted_concat, granted_singleton (hday ▸ hother), hon day hday]
    exact h.memoryGranted (hwithin.mp hlimits) day hday
  · intro hlimits day hday
    rw [Services.answers_concat, granted_concat, granted_singleton (hday ▸ hother), hon day hday]
    exact h.redisGranted (hwithin.mp hlimits) day hday

theorem granted_reserved {options : DailyQuotaOptions} {day : ℤ} {reservation : DailyQuotaReservation} :
    granted [(.reserve options ranAt, .reserved reservation)] options.resource day =
      if utcDay options.now = day then reservation.allowed.toNat else 0 := by
  unfold granted
  rw [List.countP_singleton]
  by_cases hday : utcDay options.now = day <;> cases hallowed : reservation.allowed <;>
    simp [QuotaCall.on, hday, hallowed]

/-- A reservation of a fresh key is entered in its books. -/
theorem keyBooks_of_reserve {options : DailyQuotaOptions}
    (h : KeyBooks keyPrefix past options.resource (utcDayKey options.now)) (hlimit : 1 ≤ options.limit)
    (hfresh : Fresh past options.resource (utcDayKey options.now) ranAt) :
    KeyBooks keyPrefix (past ++ [.reserve options ranAt]) options.resource (utcDayKey options.now) := by
  have hused : attempts (past ++ [.reserve options ranAt]) options.resource (utcDayKey options.now) =
      attempts past options.resource (utcDayKey options.now) + 1 := by
    rw [attempts_concat]
    simp [QuotaCall.uses]
  have hwithin : WithinLimits (past ++ [.reserve options ranAt]) options.resource
      (utcDayKey options.now) ↔ attempts past options.resource (utcDayKey options.now) < options.limit := by
    rw [withinLimits_concat, and_iff_right hfresh.within]
    constructor
    · intro hall
      exact hall options ranAt rfl rfl rfl
    · rintro hlt _ _ ⟨⟩ - -
      exact hlt
  have hmemory : ((memoryAfter past).reserveDailyQuota options).2.allowed =
      decide (attempts past options.resource (utcDayKey options.now) < options.limit) := by
    rw [(memory_reserve ..).1, h.within hfresh.within]
  have hredis : (RedisReliabilityStore.reserveDailyQuota keyPrefix (redisAfter keyPrefix past) options
      ranAt).2.allowed =
        decide (attempts past options.resource (utcDayKey options.now) < options.limit) := by
    rw [(redis_reserve ..).1, (value_of_alive h.redis hfresh.alive).2]
  have hcount : (memoryAfter (past ++ [.reserve options ranAt])).count (utcDayKey options.now)
      options.resource = attempts past options.resource (utcDayKey options.now) +
        ((memoryAfter past).reserveDailyQuota options).2.allowed.toNat := by
    rw [← h.within hfresh.within]
    unfold memoryAfter
    rw [Services.after_concat]
    refine (memory_reserve_count ..).trans ?_
    rw [if_pos ⟨rfl, rfl⟩]
  rw [hmemory] at hcount
  have hon (day : ℤ) : (past ++ [QuotaCall.reserve options ranAt]).countP (QuotaCall.on options.resource day) =
      past.countP (QuotaCall.on options.resource day) + if utcDay options.now = day then 1 else 0 := by
    rw [List.countP_append, List.countP_singleton]
    simp [QuotaCall.on]
  refine ⟨redis_books_concat h.redis ?_, fun _ => ?_, fun hexhausted => ?_, fun hlt => ?_,
    fun hlt day hday => ?_, fun hlt day hday => ?_⟩
  · rintro _ _ ⟨⟩ -
    exact hfresh.alive
  · by_cases hlt : attempts past options.resource (utcDayKey options.now) < options.limit
    · rw [hcount, decide_eq_true hlt, Bool.toNat_true]
      omega
    · rw [hcount]
      omega
  · rw [hwithin] at hexhausted
    rw [hcount, hused, decide_eq_false hexhausted, Bool.toNat_false]
    omega
  · rw [hwithin] at hlt
    rw [hcount, hused, decide_eq_true hlt, Bool.toNat_true]
  · rw [hwithin] at hlt
    have hanswer : (MemoryReliabilityStore.handle (Services.after MemoryReliabilityStore.handle .empty
        past) (.reserve options ranAt)).2 = .reserved ((memoryAfter past).reserveDailyQuota options).2 :=
      rfl
    rw [Services.answers_concat, granted_concat, hanswer, granted_reserved, hmemory, decide_eq_true hlt,
      h.memoryGranted hfresh.within day hday, hon]
    rfl
  · rw [hwithin] at hlt
    have hanswer : (RedisReliabilityStore.handle keyPrefix (Services.after
        (RedisReliabilityStore.handle keyPrefix) (fun _ => none) past) (.reserve options ranAt)).2 =
        .reserved (RedisReliabilityStore.reserveDailyQuota keyPrefix (redisAfter keyPrefix past) options
          ranAt).2 := rfl
    rw [Services.answers_concat, granted_concat, hanswer, granted_reserved, hredis, decide_eq_true hlt,
      h.redisGranted hfresh.within day hday, hon]
    rfl

theorem storeBooks_concat {call : QuotaCall} (h : StoreBooks keyPrefix past)
    (hlimit : ∀ options ranAt, call = .reserve options ranAt → 1 ≤ options.limit)
    (hcall : Undisturbed past call) : StoreBooks keyPrefix (past ++ [call]) := by
  intro resource key
  cases huses : call.uses resource key with
  | false => exact keyBooks_of_other (h resource key) huses
  | true =>
    cases call with
    | snapshot now ranAt => cases huses
    | reserve options ranAt =>
      simp only [QuotaCall.uses, Bool.and_eq_true, decide_eq_true_eq] at huses
      obtain ⟨rfl, rfl⟩ := huses
      exact keyBooks_of_reserve (h _ _) (hlimit options ranAt rfl) hcall

end

/-! ## Runs -/

/-- The stores agree in every answer exactly when every call is undisturbed. -/
theorem stores_agree_iff (keyPrefix : JsString) {calls : List QuotaCall}
    (hlimits : ∀ options ranAt, .reserve options ranAt ∈ calls → 1 ≤ options.limit) :
    AtEachPrefix (Agrees keyPrefix) calls ↔ AtEachPrefix Undisturbed calls := by
  have hpositive : AtEachPrefix (fun _ call => ∀ options ranAt, call = .reserve options ranAt →
      1 ≤ options.limit) calls :=
    AtEachPrefix.of_forall_mem fun call hm options ranAt hreserve => hlimits options ranAt (hreserve ▸ hm)
  exact (AtEachPrefix.congr_of_invariant (storeBooks_nil keyPrefix)
    (fun _ _ h hlimit hcall => storeBooks_concat h hlimit hcall)
    (fun _ call h => undisturbed_iff_agrees h call) hpositive).symm

/-- In the years 0 to 9999, with commands that run in time, only used up quotas disturb. -/
theorem undisturbed_reserve_iff {past : List QuotaCall} {options : DailyQuotaOptions} {ranAt : ℤ}
    (hyear : FourDigitYear (utcDay options.now))
    (hstarted : ∀ options ranAt, .reserve options ranAt ∈ past → options.now ≤ ranAt)
    (hran : ranAt < (utcDay options.now + 2) * msPerDay) :
    Undisturbed past (.reserve options ranAt) ↔
      WithinLimits past options.resource (utcDayKey options.now) :=
  ⟨fun h => h.within, fun h => ⟨h, alive_of_started hyear (fun _ _ hm _ _ => hstarted _ _ hm) hran⟩⟩

theorem undisturbed_snapshot_iff {past : List QuotaCall} {now ranAt : ℤ}
    (hyear : FourDigitYear (utcDay now))
    (hstarted : ∀ options ranAt, .reserve options ranAt ∈ past → options.now ≤ ranAt)
    (hran : ranAt < (utcDay now + 2) * msPerDay) :
    Undisturbed past (.snapshot now ranAt) ↔
      ∀ resource, WithinLimits past resource (utcDayKey now) := by
  refine forall_congr' fun resource => ⟨fun h => h.1.within, fun h => ⟨⟨h, ?_⟩, fun call _ huses => ?_⟩⟩
  · exact alive_of_started hyear (fun _ _ hm _ _ => hstarted _ _ hm) hran
  · rwa [utcDayKey, uses_dayKey hyear] at huses

theorem stores_agree_iff_example :
    (memoryAfter exampleQuotaCalls).count (js "2026-01-01") .judge0 = 1 ∧
    (AtEachPrefix (Agrees (js "codeshare")) exampleQuotaCalls ↔
      AtEachPrefix Undisturbed exampleQuotaCalls) := by
  refine ⟨by decide, stores_agree_iff (js "codeshare") fun options ranAt hm => ?_⟩
  have hlimit : ∀ call ∈ exampleQuotaCalls, ∀ options ranAt, call = .reserve options ranAt →
      options.limit = 1 := by
    simp [exampleQuotaCalls]
  exact (hlimit _ hm options ranAt rfl).ge

/-- One allowed reservation and one that is denied, and then a third and a snapshot. -/
theorem denied_attempts_counted :
    let past : List QuotaCall := [.reserve ⟨.judge0, 1, 1767225600000⟩ 1767225600000,
      .reserve ⟨.judge0, 1, 1767225601000⟩ 1767225601000]
    ((memoryAfter past).reserveDailyQuota ⟨.judge0, 1, 1767225602000⟩).2.used = 1 ∧
    (RedisReliabilityStore.reserveDailyQuota (js "codeshare") (redisAfter (js "codeshare") past)
      ⟨.judge0, 1, 1767225602000⟩ 1767225602000).2.used = 2 ∧
    ((memoryAfter past).getUsageSnapshot 1767225602000).2 .judge0 = 1 ∧
    RedisReliabilityStore.getUsageSnapshot (js "codeshare") (redisAfter (js "codeshare") past)
      1767225602000 1767225602000 .judge0 = 2 := by
  decide

end CodeShare.ReliabilityStore
