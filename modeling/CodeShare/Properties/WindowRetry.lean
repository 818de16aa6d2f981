import CodeShare.Lib.StoreCalls
import CodeShare.Properties.FixedWindows
import Mathlib.Order.Bounds.Defs

/-! # Retry-After of windows

A call that finds its window full is told when the window ends. In Redis that is the end of the life of its key, which
the first call of the window has set.
-/

namespace CodeShare.ReliabilityStore
set_option autoImplicit false

/-- A call that is denied is told the least number of seconds after which it would be allowed. -/
def Exact {σ : Type} (answer : σ → StoreCall → σ × RateLimitCheckResult) (store : σ) (call : StoreCall) : Prop :=
  (answer store call).2.allowed = false →
    IsLeast {k : ℤ | 1 ≤ k ∧ (answer (answer store call).1 (call.later (1000 * k))).2.allowed = true}
      (answer store call).2.retryAfterSeconds

/-! ## Seconds -/

/-- Rounded up, a time is the least number of seconds that reaches its end. -/
theorem isLeast_retryAfterSeconds {ms : ℤ} {allowed : ℤ → Prop} (hms : 0 < ms)
    (hbefore : ∀ k, 1 ≤ k → 1000 * k < ms → ¬ allowed k)
    (hbehind : ∀ k, 1 ≤ k → ms ≤ 1000 * k → 1000 * k < ms + 1000 → allowed k) :
    IsLeast {k : ℤ | 1 ≤ k ∧ allowed k} (retryAfterSeconds ms) := by
  have hpositive : 1 ≤ retryAfterSeconds ms := by
    unfold retryAfterSeconds
    omega
  refine ⟨⟨hpositive, hbehind _ hpositive ?_ ?_⟩, ?_⟩
  · unfold retryAfterSeconds
    omega
  · unfold retryAfterSeconds
    omega
  · rintro k ⟨hk, hallowed⟩
    by_contra hlt
    refine hbefore k hk ?_ hallowed
    unfold retryAfterSeconds at hlt
    omega

/-! ## Windows in memory -/

theorem memory_window_exact (store : MemoryStore) (options : FixedWindowLimitOptions) :
    Exact memoryAnswer store (.window options) := by
  intro hdenied
  change (MemoryReliabilityStore.consumeFixedWindow store.1 options).2.allowed = false at hdenied
  obtain ⟨-, heq⟩ | ⟨existing, hexisting, hopen, ⟨hfull, heq⟩ | ⟨-, heq⟩⟩ :=
    memory_consume_cases store.1 options
  · rw [heq] at hdenied
    cases hdenied
  · show IsLeast {k : ℤ | 1 ≤ k ∧ (MemoryReliabilityStore.consumeFixedWindow
        (MemoryReliabilityStore.consumeFixedWindow store.1 options).1
        { options with now := options.now + 1000 * k }).2.allowed = true}
      (MemoryReliabilityStore.consumeFixedWindow store.1 options).2.retryAfterSeconds
    rw [heq]
    dsimp only
    apply isLeast_retryAfterSeconds
    · omega
    · intro k _ hearly
      obtain ⟨hreset, -⟩ | ⟨found, hfound, -, ⟨-, heq⟩ | ⟨hroom, -⟩⟩ :=
        memory_consume_cases store.1 { options with now := options.now + 1000 * k }
      · have hover := hreset existing hexisting
        dsimp only at hover
        omega
      · rw [heq]
        exact Bool.false_ne_true
      · obtain rfl := Option.some.inj (hexisting.symm.trans hfound)
        dsimp only at hroom
        omega
    · intro k _ hlate _
      obtain ⟨-, heq⟩ | ⟨found, hfound, hstill, -⟩ :=
        memory_consume_cases store.1 { options with now := options.now + 1000 * k }
      · rw [heq]
      · obtain rfl := Option.some.inj (hexisting.symm.trans hfound)
        dsimp only at hstill
        omega
  · rw [heq] at hdenied
    cases hdenied

/-! ## Windows in Redis -/

/-- The key in which Redis counts a window. -/
def windowKey (keyPrefix : JsString) (options : FixedWindowLimitOptions) : JsString :=
  RedisReliabilityStore.fixedWindowKey keyPrefix options.bucket options.key (RedisReliabilityStore.windowStart options)

section
variable {keyPrefix : JsString} {past : List StoreCall} {db : Keyspace} {options other : FixedWindowLimitOptions}

/-- The key says when its window starts. -/
theorem windowStart_of_windowKey (h : windowKey keyPrefix other = windowKey keyPrefix options) :
    RedisReliabilityStore.windowStart other = RedisReliabilityStore.windowStart options := by
  have htail := List.append_cancel_left
    (show keyPrefix ++ (js ":fixed:" ++ ((other.bucket ++ 58 :: other.key) ++
        58 :: intUnits (RedisReliabilityStore.windowStart other))) =
      keyPrefix ++ (js ":fixed:" ++ ((options.bucket ++ 58 :: options.key) ++
        58 :: intUnits (RedisReliabilityStore.windowStart options))) by
        simpa [windowKey, RedisReliabilityStore.fixedWindowKey, RedisReliabilityStore.redisKey, joinTexts, js] using h)
  obtain ⟨-, hstart⟩ :=
    split_last (intUnits_no_colon _) (intUnits_no_colon _) (List.append_cancel_left htail)
  exact intUnits_inj hstart

theorem dailyQuotaKey_ne_windowKey (resource : DailyQuotaResource) (day : JsString) :
    RedisReliabilityStore.dailyQuotaKey keyPrefix resource day ≠ windowKey keyPrefix options := by
  intro h
  simp [windowKey, RedisReliabilityStore.dailyQuotaKey, RedisReliabilityStore.fixedWindowKey,
    RedisReliabilityStore.redisKey, joinTexts, js] at h

theorem pttl_eq {key : JsString} {clock expireAt : ℤ} {value : ℕ} (hkey : db key = some ⟨value, some expireAt⟩)
    (halive : clock ≤ expireAt) : db.pttl clock key = expireAt - clock := by
  have hlookup : db.lookup clock key = some ⟨value, some expireAt⟩ := by
    unfold Keyspace.lookup
    rw [hkey, Option.filter_some_pos (by simpa using halive)]
  unfold Keyspace.pttl
  rw [hlookup]

theorem value_eq {key : JsString} {clock expireAt : ℤ} {value : ℕ} (hkey : db key = some ⟨value, some expireAt⟩)
    (halive : clock ≤ expireAt) : db.value clock key = value := by
  unfold Keyspace.value Keyspace.lookup
  rw [hkey, Option.filter_some_pos (by simpa using halive)]
  rfl

theorem value_of_none {key : JsString} (hkey : db key = none) (clock : ℤ) : db.value clock key = 0 := by
  unfold Keyspace.value Keyspace.lookup
  rw [hkey]
  rfl

theorem exists_of_value {key : JsString} {clock : ℤ} (h : 0 < db.value clock key) :
    ∃ v, db key = some v ∧ db.lookup clock key = some v ∧ v.value = db.value clock key := by
  unfold Keyspace.value at h ⊢
  cases hlookup : db.lookup clock key with
  | none =>
    rw [hlookup] at h
    cases h
  | some v => exact ⟨v, (Option.filter_eq_some_iff.mp hlookup).1, rfl, rfl⟩

theorem reserveScript_ttl (db : Keyspace) (clock : ℤ) (key : JsString) (limit : ℕ) (ttlMs : ℤ) :
    (db.reserveScript clock key limit ttlMs).2.2.2 = (db.reserveScript clock key limit ttlMs).1.pttl clock key := by
  unfold Keyspace.reserveScript
  dsimp only
  split_ifs <;> rfl

theorem consume_fst (db : Keyspace) (options : FixedWindowLimitOptions) :
    (RedisReliabilityStore.consumeFixedWindow keyPrefix db options options.now).1 =
      (db.reserveScript options.now (windowKey keyPrefix options) options.limit
        (max 1 (RedisReliabilityStore.windowStart options + options.windowMs - options.now))).1 := rfl

theorem consume_allowed (db : Keyspace) (options : FixedWindowLimitOptions) :
    (RedisReliabilityStore.consumeFixedWindow keyPrefix db options options.now).2.allowed =
      decide (db.value options.now (windowKey keyPrefix options) < options.limit) :=
  (redis_consume db options options.now).2

/-- The reply of the script has the time that the key has left. -/
theorem reserve_ttlMs {key : JsString} {clock ttlMs expireAt : ℤ} {limit value : ℕ}
    (hkey : (RedisReliabilityStore.reserve db clock key limit ttlMs).1 key = some ⟨value, some expireAt⟩)
    (halive : clock < expireAt) :
    (RedisReliabilityStore.reserve db clock key limit ttlMs).2.ttlMs = expireAt - clock := by
  have httl : (db.reserveScript clock key limit (max 1 ttlMs)).2.2.2 = expireAt - clock :=
    (reserveScript_ttl db clock key limit (max 1 ttlMs)).trans (pttl_eq hkey halive.le)
  show (if 0 < (db.reserveScript clock key limit (max 1 ttlMs)).2.2.2 then
    (db.reserveScript clock key limit (max 1 ttlMs)).2.2.2 else 1) = _
  rw [httl, if_pos (by omega)]

/-- A denied call is told when its key runs out. -/
theorem consume_retryAfter {expireAt : ℤ} {value : ℕ}
    (hdenied : (RedisReliabilityStore.consumeFixedWindow keyPrefix db options options.now).2.allowed = false)
    (hkey : (RedisReliabilityStore.consumeFixedWindow keyPrefix db options options.now).1
      (windowKey keyPrefix options) = some ⟨value, some expireAt⟩) (halive : options.now < expireAt) :
    (RedisReliabilityStore.consumeFixedWindow keyPrefix db options options.now).2.retryAfterSeconds =
      retryAfterSeconds (expireAt - options.now) := by
  rw [← reserve_ttlMs hkey halive]
  exact if_neg (by rw [Bool.not_eq_true]; exact hdenied)

/-- Earlier calls in the window of the call have windows of the same length. -/
def SameLength (keyPrefix : JsString) (past : List StoreCall) (options : FixedWindowLimitOptions) : Prop :=
  ∀ other, .window other ∈ past → windowKey keyPrefix other = windowKey keyPrefix options →
    other.windowMs = options.windowMs

/-- Buckets without a colon in their names do not share windows. -/
theorem sameLength_of_plain_buckets {windowOf : JsString → ℤ} {quotaOf : DailyQuotaResource → ℕ}
    (hpast : ∀ call ∈ past ++ [.window options], call.Configured windowOf quotaOf)
    (hplain : ∀ other, .window other ∈ past ++ [.window options] → 58 ∉ other.bucket) :
    SameLength keyPrefix past options := by
  intro other hm hkey
  have hother := List.mem_append_left [.window options] hm
  have hcall : .window options ∈ past ++ [.window options] := List.mem_append_right _ (List.mem_singleton_self _)
  have htail : other.bucket ++ 58 :: (other.key ++ 58 :: intUnits (RedisReliabilityStore.windowStart other)) =
      options.bucket ++ 58 :: (options.key ++ 58 :: intUnits (RedisReliabilityStore.windowStart options)) := by
    simpa [windowKey, RedisReliabilityStore.fixedWindowKey, RedisReliabilityStore.redisKey, joinTexts, js] using hkey
  have hbucket := (split_first (hplain _ hother) (hplain _ hcall) htail).1
  rw [(hpast _ hother).2.1, (hpast _ hcall).2.1, hbucket]

/-- A window that Redis counts has been opened, and its key lives to its end. -/
def WindowBooks (keyPrefix : JsString) (past : List StoreCall) (db : Keyspace) : Prop :=
  ∀ options, SameLength keyPrefix past options → ∀ v, db (windowKey keyPrefix options) = some v →
    1 ≤ v.value ∧ v.expireAt = some (RedisReliabilityStore.windowStart options + options.windowMs) ∧
      ∃ other, .window other ∈ past ∧ windowKey keyPrefix other = windowKey keyPrefix options

theorem SameLength.of_concat {call : StoreCall} (h : SameLength keyPrefix (past ++ [call]) options) :
    SameLength keyPrefix past options := fun other hm => h other (List.mem_append_left _ hm)

theorem windowBooks_concat {call : StoreCall} {windowOf : JsString → ℤ} {quotaOf : DailyQuotaResource → ℕ}
    (h : WindowBooks keyPrefix past db) (hcall : call.Configured windowOf quotaOf) :
    WindowBooks keyPrefix (past ++ [call]) (redisAnswer keyPrefix db call).1 := by
  intro options hsame v hv
  have hearlier : ∀ {v}, db (windowKey keyPrefix options) = some v → 1 ≤ v.value ∧
      v.expireAt = some (RedisReliabilityStore.windowStart options + options.windowMs) ∧
      ∃ other, .window other ∈ past ++ [call] ∧ windowKey keyPrefix other = windowKey keyPrefix options := by
    intro v hv
    obtain ⟨hvalue, hexpire, other, hm, hother⟩ := h options hsame.of_concat v hv
    exact ⟨hvalue, hexpire, other, List.mem_append_left _ hm, hother⟩
  cases call with
  | quota quota =>
    apply hearlier
    rw [← hv]
    exact (reserveScript_other _ _ _ (dailyQuotaKey_ne_windowKey _ _).symm _ _).symm
  | window opening =>
    change (RedisReliabilityStore.consumeFixedWindow keyPrefix db opening opening.now).1 _ = _ at hv
    rw [consume_fst] at hv
    by_cases hkey : windowKey keyPrefix opening = windowKey keyPrefix options
    · have hlength : opening.windowMs = options.windowMs := hsame opening (by simp) hkey
      have hstart := windowStart_of_windowKey hkey
      have hnow := windowStart_lt hcall.2.2
      rw [hkey, reserveScript_self _ _ _ _ _ fun v hv => (hearlier (Option.filter_eq_some_iff.mp hv).1).1] at hv
      obtain rfl := Option.some.inj hv
      refine ⟨Nat.le_add_left 1 _, ?_, opening, by simp, hkey⟩
      dsimp only
      cases hlookup : db.lookup opening.now (windowKey keyPrefix options) with
      | none =>
        dsimp only
        rw [max_eq_right (by omega), ← hstart, ← hlength]
        congr 1
        omega
      | some v => exact (hearlier (Option.filter_eq_some_iff.mp hlookup).1).2.1
    · apply hearlier
      rw [← hv]
      exact (reserveScript_other _ _ _ (Ne.symm hkey) _ _).symm

theorem windowStart_le (hwindow : 0 < options.windowMs) : RedisReliabilityStore.windowStart options ≤ options.now :=
  Int.ediv_mul_le _ hwindow.ne'

/-- A later call is in the same window, or in one behind its end. -/
theorem windowStart_later (hwindow : 0 < options.windowMs) {ms : ℤ} (hms : 0 ≤ ms) :
    RedisReliabilityStore.windowStart options =
        RedisReliabilityStore.windowStart { options with now := options.now + ms } ∨
      RedisReliabilityStore.windowStart options + options.windowMs ≤
        RedisReliabilityStore.windowStart { options with now := options.now + ms } :=
  aligned_apart hwindow (Int.le_add_of_nonneg_right hms)

/-- Up to the end of the window a later call is in the same one. -/
theorem windowKey_later (hwindow : 0 < options.windowMs) {ms : ℤ} (hms : 0 ≤ ms)
    (hearly : options.now + ms < RedisReliabilityStore.windowStart options + options.windowMs) :
    windowKey keyPrefix { options with now := options.now + ms } = windowKey keyPrefix options := by
  have hle : RedisReliabilityStore.windowStart { options with now := options.now + ms } ≤ options.now + ms :=
    Int.ediv_mul_le _ hwindow.ne'
  have hstart : RedisReliabilityStore.windowStart { options with now := options.now + ms } =
      RedisReliabilityStore.windowStart options := by
    rcases windowStart_later hwindow hms with heq | hbehind
    · exact heq.symm
    · omega
  rw [windowKey, hstart]
  rfl

/-- From its end on, it is in one that begins there or later. -/
theorem windowStart_behind (hwindow : 0 < options.windowMs) {ms : ℤ} (hms : 0 ≤ ms)
    (hlate : RedisReliabilityStore.windowStart options + options.windowMs ≤ options.now + ms) :
    RedisReliabilityStore.windowStart options + options.windowMs ≤
      RedisReliabilityStore.windowStart { options with now := options.now + ms } := by
  have hlt : options.now + ms <
      RedisReliabilityStore.windowStart { options with now := options.now + ms } + options.windowMs :=
    windowStart_lt hwindow
  rcases windowStart_later hwindow hms with heq | hbehind
  · omega
  · exact hbehind

theorem consume_later_allowed (db : Keyspace) (options : FixedWindowLimitOptions) (ms : ℤ) :
    (RedisReliabilityStore.consumeFixedWindow keyPrefix db { options with now := options.now + ms }
        (options.now + ms)).2.allowed =
      decide (db.value (options.now + ms) (windowKey keyPrefix { options with now := options.now + ms }) <
        options.limit) :=
  consume_allowed db { options with now := options.now + ms }

/-- No call has been counted in a window that begins later. -/
theorem unopened_of_later {windowOf : JsString → ℤ} {quotaOf : DailyQuotaResource → ℕ} {now : ℤ}
    (h : WindowBooks keyPrefix past db) (hpast : ∀ call ∈ past, call.Configured windowOf quotaOf)
    (htimes : ∀ call ∈ past, call.now ≤ now) (hlater : now < RedisReliabilityStore.windowStart options) :
    db (windowKey keyPrefix options) = none := by
  have hunused : ∀ other, .window other ∈ past → windowKey keyPrefix other ≠ windowKey keyPrefix options := by
    intro other hm hkey
    have hstart := windowStart_of_windowKey hkey
    have hle := windowStart_le (hpast _ hm).2.2
    have htime : other.now ≤ now := htimes _ hm
    omega
  cases hv : db (windowKey keyPrefix options) with
  | none => rfl
  | some v =>
    obtain ⟨-, -, other, hm, hkey⟩ := h options (fun other hm hkey => absurd hkey (hunused other hm)) v hv
    exact absurd hkey (hunused other hm)

theorem redis_window_exact {windowOf : JsString → ℤ} {quotaOf : DailyQuotaResource → ℕ}
    (h : WindowBooks keyPrefix past db) (hpast : ∀ call ∈ past, call.Configured windowOf quotaOf)
    (htimes : ∀ call ∈ past, call.now ≤ options.now) (hlimit : 1 ≤ options.limit) (hwindow : 0 < options.windowMs)
    (hsame : SameLength keyPrefix past options) : Exact (redisAnswer keyPrefix) db (.window options) := by
  intro hdenied
  have hnow := windowStart_lt hwindow
  change (RedisReliabilityStore.consumeFixedWindow keyPrefix db options options.now).2.allowed = false at hdenied
  have hfull := hdenied
  rw [consume_allowed, decide_eq_false_iff_not, not_lt] at hfull
  obtain ⟨v, hv, hlookup, hvalue⟩ := exists_of_value (lt_of_lt_of_le hlimit hfull)
  obtain ⟨-, hexpire, -⟩ := h options hsame v hv
  -- the key counts the denied call, too, and keeps its end
  have hself : (RedisReliabilityStore.consumeFixedWindow keyPrefix db options options.now).1
      (windowKey keyPrefix options) = some ⟨db.value options.now (windowKey keyPrefix options) + 1,
        some (RedisReliabilityStore.windowStart options + options.windowMs)⟩ := by
    rw [consume_fst,
      reserveScript_self _ _ _ _ _ fun v hv => (h options hsame v (Option.filter_eq_some_iff.mp hv).1).1, hlookup]
    dsimp only
    rw [hexpire]
  show IsLeast {k : ℤ | 1 ≤ k ∧ (RedisReliabilityStore.consumeFixedWindow keyPrefix
      (RedisReliabilityStore.consumeFixedWindow keyPrefix db options options.now).1
      { options with now := options.now + 1000 * k } (options.now + 1000 * k)).2.allowed = true}
    (RedisReliabilityStore.consumeFixedWindow keyPrefix db options options.now).2.retryAfterSeconds
  rw [consume_retryAfter hdenied hself hnow]
  apply isLeast_retryAfterSeconds
  · omega
  · intro k hk hearly
    rw [consume_later_allowed, windowKey_later hwindow (by omega) (by omega), value_eq hself (by omega),
      decide_eq_true_iff]
    omega
  · intro k hk hlate _
    have hbehind := windowStart_behind hwindow (show 0 ≤ 1000 * k by omega) (by omega)
    have hother : windowKey keyPrefix { options with now := options.now + 1000 * k } ≠ windowKey keyPrefix options := by
      intro hkey
      have hsameStart := windowStart_of_windowKey hkey
      omega
    have hnone : (RedisReliabilityStore.consumeFixedWindow keyPrefix db options options.now).1
        (windowKey keyPrefix { options with now := options.now + 1000 * k }) = none := by
      rw [consume_fst, reserveScript_other _ _ _ hother]
      exact unopened_of_later h hpast htimes (by omega)
    rw [consume_later_allowed, value_of_none hnone, decide_eq_true_iff]
    exact hlimit

end

end CodeShare.ReliabilityStore
