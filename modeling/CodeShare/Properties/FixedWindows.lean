import CodeShare.Foundations.Windows
import CodeShare.Lib.FixedWindows
import CodeShare.Properties.DailyQuota
import CodeShare.Text.Occurrence

/-! # Rate limits

Both stores count the calls of a bucket and a key in windows of their own: the memory store in windows
that the calls open, Redis in windows that start at the multiples of their length. The texts that
the stores use for keys keep the buckets and the keys apart, for a bucket has no colon.
-/

namespace CodeShare.ReliabilityStore
set_option autoImplicit false

namespace FixedWindowLimitOptions

/-- A call of a bucket and a key. -/
def isOf (bucket key : JsString) (options : FixedWindowLimitOptions) : Bool :=
  options.bucket = bucket && options.key = key

theorem isOf_iff {bucket key : JsString} {options : FixedWindowLimitOptions} :
    options.isOf bucket key = true ↔ options.bucket = bucket ∧ options.key = key := by
  simp [isOf]

/-- The bucket of the call has no colon, and a limit and a window length of its own. -/
structure Configured (limitOf : JsString → ℕ) (windowOf : JsString → ℤ)
    (options : FixedWindowLimitOptions) : Prop where
  bucket : 58 ∉ options.bucket
  limit : options.limit = limitOf options.bucket
  limited : 1 ≤ options.limit
  windowMs : options.windowMs = windowOf options.bucket
  positive : 0 < options.windowMs

end FixedWindowLimitOptions

/-- When the calls of a bucket and a key were allowed. -/
def pairTimes (bucket key : JsString)
    (answers : List (FixedWindowLimitOptions × RateLimitCheckResult)) : List ℤ :=
  allowedTimes FixedWindowLimitOptions.now RateLimitCheckResult.allowed
    (answers.filter fun a => a.1.isOf bucket key)

/-! ## Keys -/

/-- The first colon ends the first part of a text. -/
theorem split_first {a a' rest rest' : JsString} {c : ℕ} (ha : c ∉ a) (ha' : c ∉ a')
    (h : a ++ c :: rest = a' ++ c :: rest') : a = a' ∧ rest = rest' := by
  induction a generalizing a' with
  | nil =>
    cases a' with
    | nil => exact ⟨rfl, (List.cons.inj h).2⟩
    | cons x a' =>
      obtain rfl := (List.cons.inj h).1
      exact absurd List.mem_cons_self ha'
  | cons x a ih =>
    cases a' with
    | nil =>
      obtain rfl := (List.cons.inj h).1
      exact absurd List.mem_cons_self ha
    | cons x' a' =>
      obtain ⟨rfl, htail⟩ := List.cons.inj h
      obtain ⟨rfl, hrest⟩ := ih (fun hc => ha (List.mem_cons_of_mem _ hc))
        (fun hc => ha' (List.mem_cons_of_mem _ hc)) htail
      exact ⟨rfl, hrest⟩

/-- The last colon starts the last part of a text. -/
theorem split_last {a a' rest rest' : JsString} {c : ℕ} (hrest : c ∉ rest) (hrest' : c ∉ rest')
    (h : a ++ c :: rest = a' ++ c :: rest') : a = a' ∧ rest = rest' := by
  have hreverse : rest.reverse ++ c :: a.reverse = rest'.reverse ++ c :: a'.reverse := by
    simpa using congrArg List.reverse h
  obtain ⟨hlast, hfirst⟩ := split_first (fun hc => hrest (List.mem_reverse.mp hc))
    (fun hc => hrest' (List.mem_reverse.mp hc)) hreverse
  exact ⟨List.reverse_injective hfirst, List.reverse_injective hlast⟩

theorem decimalUnits_range {n c : ℕ} (h : c ∈ decimalUnits n) : 48 ≤ c ∧ c ≤ 57 := by
  unfold decimalUnits at h
  split_ifs at h
  · rw [List.mem_singleton.mp h]
    omega
  · exact digitUnits_range h

/-- A number can be read back from its text. -/
theorem ofDigits_decimalUnits (n : ℕ) :
    Nat.ofDigits 10 ((decimalUnits n).reverse.map fun c => c - 48) = n := by
  unfold decimalUnits
  split_ifs with h
  · rw [h]
    rfl
  · unfold digitUnits
    rw [← List.map_reverse, List.reverse_reverse, List.map_map]
    have hid : (fun c => c - 48) ∘ (fun d => 48 + d) = id := by
      funext d
      simp
    rw [hid, List.map_id, Nat.ofDigits_digits]

theorem decimalUnits_inj {n m : ℕ} (h : decimalUnits n = decimalUnits m) : n = m := by
  rw [← ofDigits_decimalUnits n, h, ofDigits_decimalUnits]

theorem intUnits_inj {n m : ℤ} (h : intUnits n = intUnits m) : n = m := by
  have hminus : ∀ {a b : ℕ}, 45 :: decimalUnits a ≠ decimalUnits b := by
    intro a b heq
    have hrange := decimalUnits_range (n := b) (c := 45) (heq ▸ List.mem_cons_self)
    omega
  unfold intUnits at h
  split_ifs at h with hn hm hm
  · have habs := decimalUnits_inj (List.cons.inj h).2
    omega
  · exact absurd h hminus
  · exact absurd h.symm hminus
  · have habs := decimalUnits_inj h
    omega

theorem intUnits_no_colon (n : ℤ) : 58 ∉ intUnits n := by
  have hdigits : 58 ∉ decimalUnits n.natAbs := by
    intro h
    have hrange := decimalUnits_range h
    omega
  unfold intUnits
  split_ifs
  · simpa using hdigits
  · exact hdigits

section
variable {bucket bucket' key key' : JsString}

theorem memory_fixedWindowKey_inj (hbucket : 58 ∉ bucket) (hbucket' : 58 ∉ bucket')
    (h : MemoryReliabilityStore.fixedWindowKey bucket key =
      MemoryReliabilityStore.fixedWindowKey bucket' key') : bucket = bucket' ∧ key = key' := by
  unfold MemoryReliabilityStore.fixedWindowKey at h
  rw [List.append_assoc, List.append_assoc] at h
  exact split_first hbucket hbucket' h

theorem redis_fixedWindowKey_inj {keyPrefix : JsString} {start start' : ℤ} (hbucket : 58 ∉ bucket)
    (hbucket' : 58 ∉ bucket')
    (h : RedisReliabilityStore.fixedWindowKey keyPrefix bucket key start =
      RedisReliabilityStore.fixedWindowKey keyPrefix bucket' key' start') :
    bucket = bucket' ∧ key = key' ∧ start = start' := by
  have htail := List.append_cancel_left
    (show keyPrefix ++ (js ":fixed:" ++ (bucket ++ 58 :: (key ++ 58 :: intUnits start))) =
      keyPrefix ++ (js ":fixed:" ++ (bucket' ++ 58 :: (key' ++ 58 :: intUnits start'))) by
        simpa [RedisReliabilityStore.fixedWindowKey, RedisReliabilityStore.redisKey, joinTexts, js] using h)
  obtain ⟨hb, hrest⟩ := split_first hbucket hbucket' (List.append_cancel_left htail)
  obtain ⟨hk, hstart⟩ := split_last (intUnits_no_colon start) (intUnits_no_colon start') hrest
  exact ⟨hb, hk, intUnits_inj hstart⟩

end

/-! ## In memory -/

/-- The calls of a bucket and a key with their limit and the length of their windows. -/
structure CallOf (bucket key : JsString) (limit : ℕ) (windowMs : ℤ)
    (options : FixedWindowLimitOptions) : Prop where
  bucket : options.bucket = bucket
  key : options.key = key
  limit : options.limit = limit
  windowMs : options.windowMs = windowMs

section
variable {bucket key : JsString} {limit : ℕ} {windowMs : ℤ}

/-- A call opens a window, finds the last one full, or is counted in it. -/
theorem memory_consume_cases (fixedWindows : FixedWindows) (options : FixedWindowLimitOptions) :
    let key := MemoryReliabilityStore.fixedWindowKey options.bucket options.key
    ((∀ existing, fixedWindows key = some existing → existing.resetAt ≤ options.now) ∧
      MemoryReliabilityStore.consumeFixedWindow fixedWindows options =
        (Function.update fixedWindows key (some ⟨1, options.now + options.windowMs⟩), ⟨true, 0⟩)) ∨
    ∃ existing, fixedWindows key = some existing ∧ options.now < existing.resetAt ∧
      (options.limit ≤ existing.count ∧
        MemoryReliabilityStore.consumeFixedWindow fixedWindows options =
          (fixedWindows, ⟨false, retryAfterSeconds (existing.resetAt - options.now)⟩) ∨
      existing.count < options.limit ∧
        MemoryReliabilityStore.consumeFixedWindow fixedWindows options =
          (Function.update fixedWindows key (some { existing with count := existing.count + 1 }),
            ⟨true, 0⟩)) := by
  unfold MemoryReliabilityStore.consumeFixedWindow
  dsimp only
  cases hexisting : fixedWindows (MemoryReliabilityStore.fixedWindowKey options.bucket options.key) with
  | none => exact .inl ⟨nofun, rfl⟩
  | some existing =>
    dsimp only
    split_ifs with hreset hcount
    · refine .inl ⟨fun found hfound => ?_, rfl⟩
      rw [← Option.some.inj hfound]
      exact hreset
    · exact .inr ⟨existing, rfl, not_le.mp hreset, .inl ⟨hcount, rfl⟩⟩
    · exact .inr ⟨existing, rfl, not_le.mp hreset, .inr ⟨not_le.mp hcount, rfl⟩⟩

/-- The memory store holds the last window. -/
def MemoryTracks (bucket key : JsString) (windowMs : ℤ) (fixedWindows : FixedWindows)
    (entries : List (ℤ × ℤ)) : Prop :=
  match fixedWindows (MemoryReliabilityStore.fixedWindowKey bucket key) with
  | none => entries = []
  | some existing =>
    1 ≤ existing.count ∧ existing.count = entries.countP (·.2 = existing.resetAt - windowMs) ∧
      ∀ e ∈ entries, e.2 = existing.resetAt - windowMs ∨ e.2 + windowMs ≤ existing.resetAt - windowMs

theorem memoryTracks_some {fixedWindows : FixedWindows} {entries : List (ℤ × ℤ)}
    {existing : FixedWindowEntry}
    (hexisting : fixedWindows (MemoryReliabilityStore.fixedWindowKey bucket key) = some existing) :
    MemoryTracks bucket key windowMs fixedWindows entries ↔
      1 ≤ existing.count ∧ existing.count = entries.countP (·.2 = existing.resetAt - windowMs) ∧
        ∀ e ∈ entries,
          e.2 = existing.resetAt - windowMs ∨ e.2 + windowMs ≤ existing.resetAt - windowMs := by
  unfold MemoryTracks
  rw [hexisting]

/-- Every entry is over by the end of the window that the store holds. -/
theorem MemoryTracks.over (hwindow : 0 < windowMs) {fixedWindows : FixedWindows}
    {entries : List (ℤ × ℤ)} {now : ℤ} (h : MemoryTracks bucket key windowMs fixedWindows entries)
    (hreset : ∀ existing, fixedWindows (MemoryReliabilityStore.fixedWindowKey bucket key) = some existing →
      existing.resetAt ≤ now) : ∀ e ∈ entries, e.2 + windowMs ≤ now := by
  intro e he
  cases hexisting : fixedWindows (MemoryReliabilityStore.fixedWindowKey bucket key) with
  | none =>
    unfold MemoryTracks at h
    rw [hexisting] at h
    rw [h] at he
    cases he
  | some existing =>
    obtain ⟨-, -, hlast⟩ := (memoryTracks_some hexisting).mp h
    have hover := hreset existing hexisting
    rcases hlast e he with heq | hle <;> omega

theorem memory_countsWindows (bucket key : JsString) (hlimit : 1 ≤ limit) (hwindow : 0 < windowMs) :
    CountsWindows limit windowMs MemoryReliabilityStore.consumeFixedWindow
      (CallOf bucket key limit windowMs) FixedWindowLimitOptions.now RateLimitCheckResult.allowed
      (MemoryTracks bucket key windowMs) := by
  rintro fixedWindows entries options htracks hwindowed hbefore ⟨rfl, rfl, rfl, rfl⟩
  rcases memory_consume_cases fixedWindows options with
    ⟨hreset, heq⟩ | ⟨existing, hexisting, hnow, hfound⟩
  · have hover := htracks.over hwindow hreset
    have hnone : entries.countP (·.2 = options.now) = 0 := by
      apply List.countP_eq_zero.mpr
      intro e he hstart
      have hend := hover e he
      have hstart := of_decide_eq_true hstart
      omega
    refine ⟨options.now, le_refl _, by omega, ?_⟩
    rw [heq, if_pos rfl]
    refine ⟨fun e he => .inr (hover e he), by omega, ?_⟩
    refine (memoryTracks_some (Function.update_self ..)).mpr ⟨le_refl 1, ?_, fun e he => ?_⟩ <;>
      dsimp only <;> rw [Int.add_sub_cancel]
    · rw [List.countP_append, hnone, List.countP_singleton, if_pos (decide_eq_true rfl)]
    · rcases List.mem_append.mp he with he | he
      · exact .inr (hover e he)
      · rw [List.mem_singleton.mp he]
        exact .inl rfl
  · obtain ⟨hpositive, hcount, hlast⟩ := (memoryTracks_some hexisting).mp htracks
    have hstart : existing.resetAt - options.windowMs ≤ options.now := by
      rw [hcount] at hpositive
      obtain ⟨e, he, hstart⟩ := List.countP_pos_iff.mp hpositive
      have hinside := (hwindowed.inside e he).1
      have htime := hbefore e he
      have hstart := of_decide_eq_true hstart
      omega
    refine ⟨existing.resetAt - options.windowMs, hstart, by omega, ?_⟩
    rcases hfound with ⟨hfull, heq⟩ | ⟨hroom, heq⟩ <;> rw [heq]
    · rw [if_neg Bool.false_ne_true, ← hcount]
      exact ⟨hfull, htracks⟩
    · rw [if_pos rfl, ← hcount]
      refine ⟨hlast, hroom, (memoryTracks_some (Function.update_self ..)).mpr
        ⟨Nat.le_add_left 1 _, ?_, fun e he => ?_⟩⟩
      · rw [List.countP_append, ← hcount, List.countP_singleton, if_pos (decide_eq_true rfl)]
      · rcases List.mem_append.mp he with he | he
        · exact hlast e he
        · rw [List.mem_singleton.mp he]
          exact .inl rfl

/-- Calls of other buckets and keys do not change the answers of the memory store to these. -/
theorem memory_answers_filter {keyPrefix : JsString} {calls : List FixedWindowLimitOptions}
    (hbucket : 58 ∉ bucket) (hcalls : ∀ call ∈ calls, 58 ∉ call.bucket) :
    (fixedWindowAnswers .memory keyPrefix calls).filter (fun a => a.1.isOf bucket key) =
      fixedWindowAnswers .memory keyPrefix
        (calls.filter (FixedWindowLimitOptions.isOf bucket key)) := by
  refine Services.answers_filter (fun store store' =>
    store (MemoryReliabilityStore.fixedWindowKey bucket key) =
      store' (MemoryReliabilityStore.fixedWindowKey bucket key)) ?_ ?_ rfl
  · intro store store' call hcall halike
    obtain ⟨rfl, rfl⟩ := FixedWindowLimitOptions.isOf_iff.mp hcall
    unfold MemoryReliabilityStore.consumeFixedWindow
    dsimp only
    rw [← halike]
    split
    · exact ⟨rfl, by simp⟩
    · split_ifs
      · exact ⟨rfl, by simp⟩
      · exact ⟨rfl, halike⟩
      · exact ⟨rfl, by simp⟩
  · intro store store' call hm hcall halike
    have hkey : MemoryReliabilityStore.fixedWindowKey bucket key ≠
        MemoryReliabilityStore.fixedWindowKey call.bucket call.key := by
      intro heq
      obtain ⟨rfl, rfl⟩ := memory_fixedWindowKey_inj hbucket (hcalls call hm) heq
      rw [FixedWindowLimitOptions.isOf_iff.mpr ⟨rfl, rfl⟩] at hcall
      cases hcall
    rw [← halike]
    obtain ⟨-, heq⟩ | ⟨existing, -, -, ⟨-, heq⟩ | ⟨-, heq⟩⟩ := memory_consume_cases store call <;> rw [heq]
    · exact Function.update_of_ne hkey ..
    · exact Function.update_of_ne hkey ..

end

/-! ## Redis -/

section
variable {keyPrefix bucket key : JsString} {limit : ℕ} {windowMs : ℤ}

/-- Redis counts the calls of each window, with those that it denied. -/
structure RedisTracks (keyPrefix bucket key : JsString) (limit : ℕ) (windowMs : ℤ) (db : Keyspace)
    (entries : List (ℤ × ℤ)) : Prop where
  aligned : ∀ e ∈ entries, e.2 = e.1 / windowMs * windowMs
  counted : ∀ start, match db (RedisReliabilityStore.fixedWindowKey keyPrefix bucket key start) with
    | none => entries.countP (·.2 = start) = 0
    | some v => 1 ≤ v.value ∧ v.expireAt = some (start + windowMs) ∧
      entries.countP (·.2 = start) = min v.value limit

/-- The calls counted in a window, and the end of the life of its key. -/
theorem RedisTracks.value {db : Keyspace} {entries : List (ℤ × ℤ)} {start now : ℤ}
    (h : RedisTracks keyPrefix bucket key limit windowMs db entries) (hnow : now < start + windowMs) :
    let windowKey := RedisReliabilityStore.fixedWindowKey keyPrefix bucket key start
    entries.countP (·.2 = start) = min (db.value now windowKey) limit ∧
      (∀ v, db.lookup now windowKey = some v → 1 ≤ v.value ∧ v.expireAt = some (start + windowMs)) := by
  have hcounted := h.counted start
  unfold Keyspace.value Keyspace.lookup
  dsimp only
  cases hv : db (RedisReliabilityStore.fixedWindowKey keyPrefix bucket key start) with
  | none =>
    rw [hv] at hcounted
    rw [hcounted]
    exact ⟨(Nat.zero_min limit).symm, nofun⟩
  | some v =>
    rw [hv] at hcounted
    obtain ⟨hpositive, hexpire, hcount⟩ := hcounted
    have halive : (v.expireAt.all fun e => decide (now ≤ e)) = true := by
      rw [hexpire]
      exact decide_eq_true hnow.le
    rw [Option.filter_some, if_pos halive]
    refine ⟨hcount, fun found hfound => ?_⟩
    rw [← Option.some.inj hfound]
    exact ⟨hpositive, hexpire⟩

theorem windowStart_lt {options : FixedWindowLimitOptions} (hwindow : 0 < options.windowMs) :
    options.now < RedisReliabilityStore.windowStart options + options.windowMs := by
  have hend := Int.lt_ediv_add_one_mul_self options.now hwindow
  rw [Int.add_mul, Int.one_mul] at hend
  exact hend

theorem redis_consume (db : Keyspace) (options : FixedWindowLimitOptions) (ranAt : ℤ) :
    let windowKey := RedisReliabilityStore.fixedWindowKey keyPrefix options.bucket options.key
      (RedisReliabilityStore.windowStart options)
    (RedisReliabilityStore.consumeFixedWindow keyPrefix db options ranAt).1 =
        (db.reserveScript ranAt windowKey options.limit
          (max 1 (RedisReliabilityStore.windowStart options + options.windowMs - options.now))).1 ∧
      (RedisReliabilityStore.consumeFixedWindow keyPrefix db options ranAt).2.allowed =
        decide (db.value ranAt windowKey < options.limit) := by
  refine ⟨rfl, ?_⟩
  unfold RedisReliabilityStore.consumeFixedWindow RedisReliabilityStore.reserve
  dsimp only
  rw [(reserveScript_snd ..).1]
  split_ifs with hroom
  · exact (decide_eq_true hroom).symm
  · exact (decide_eq_false hroom).symm

/-- The answer to a call is a reading of what the script returns. -/
theorem redis_answer (db : Keyspace) (options : FixedWindowLimitOptions) (ranAt : ℤ) :
    (RedisReliabilityStore.consumeFixedWindow keyPrefix db options ranAt).2 =
      (fun reply : ℕ × ℕ × ℤ => ⟨decide (reply.1 = 1), if decide (reply.1 = 1) then 0 else
        retryAfterSeconds (if 0 < reply.2.2 then reply.2.2 else 1)⟩)
      (db.reserveScript ranAt (RedisReliabilityStore.fixedWindowKey keyPrefix options.bucket options.key
        (RedisReliabilityStore.windowStart options)) options.limit
          (max 1 (RedisReliabilityStore.windowStart options + options.windowMs - options.now))).2 :=
  rfl

/-- Windows that start at multiples of their length overlap only if they are the same. -/
theorem aligned_apart (hwindow : 0 < windowMs) {before now : ℤ} (hle : before ≤ now) :
    before / windowMs * windowMs = now / windowMs * windowMs ∨
      before / windowMs * windowMs + windowMs ≤ now / windowMs * windowMs := by
  rcases (Int.ediv_le_ediv hwindow hle).eq_or_lt with heq | hlt
  · rw [heq]
    exact .inl rfl
  · refine .inr ?_
    calc before / windowMs * windowMs + windowMs = (before / windowMs + 1) * windowMs := by ring
      _ ≤ now / windowMs * windowMs := Int.mul_le_mul_of_nonneg_right hlt hwindow.le

/-- The script counts a call in its window, as an entry if it was allowed. -/
theorem RedisTracks.consume {db : Keyspace} {entries : List (ℤ × ℤ)} {options : FixedWindowLimitOptions}
    (h : RedisTracks keyPrefix options.bucket options.key options.limit options.windowMs db entries)
    (hbucket : 58 ∉ options.bucket) (hwindow : 0 < options.windowMs) :
    let start := RedisReliabilityStore.windowStart options
    RedisTracks keyPrefix options.bucket options.key options.limit options.windowMs
      (RedisReliabilityStore.consumeFixedWindow keyPrefix db options options.now).1
      (entries ++ if entries.countP (·.2 = start) < options.limit then [(options.now, start)] else []) := by
  have hnow : options.now < RedisReliabilityStore.windowStart options + options.windowMs :=
    windowStart_lt hwindow
  obtain ⟨hcount, hlookup⟩ := h.value hnow
  refine ⟨fun e he => ?_, fun start => ?_⟩
  · rcases List.mem_append.mp he with he | he
    · exact h.aligned e he
    · split_ifs at he
      · rw [List.mem_singleton.mp he]
        rfl
      · cases he
  · rw [(redis_consume db options options.now).1]
    by_cases hstart : start = RedisReliabilityStore.windowStart options
    · rw [hstart, reserveScript_self _ _ _ _ _ fun v hv => (hlookup v hv).1, List.countP_append, hcount]
      refine ⟨Nat.le_add_left 1 _, ?_, ?_⟩
      · dsimp only
        split
        · rw [max_eq_right (by omega)]
          congr 1
          omega
        · rename_i v hv
          exact (hlookup v hv).2
      · dsimp only
        split_ifs with hroom
        · rw [List.countP_singleton, if_pos (decide_eq_true rfl)]
          omega
        · rw [List.countP_nil]
          omega
    · have hkey : RedisReliabilityStore.fixedWindowKey keyPrefix options.bucket options.key start ≠
          RedisReliabilityStore.fixedWindowKey keyPrefix options.bucket options.key
            (RedisReliabilityStore.windowStart options) :=
        fun heq => hstart (redis_fixedWindowKey_inj hbucket hbucket heq).2.2
      have hnone : (if entries.countP (·.2 = RedisReliabilityStore.windowStart options) < options.limit then
          [(options.now, RedisReliabilityStore.windowStart options)] else []).countP
            (fun e => decide (e.2 = start)) = 0 := by
        split_ifs
        · rw [List.countP_singleton, if_neg (by simpa using Ne.symm hstart)]
        · rfl
      rw [reserveScript_other _ _ _ hkey, List.countP_append, hnone, Nat.add_zero]
      exact h.counted start

theorem redis_countsWindows (keyPrefix key : JsString) (limit : ℕ) (hbucket : 58 ∉ bucket) (hwindow : 0 < windowMs) :
    CountsWindows limit windowMs
      (fun db options => RedisReliabilityStore.consumeFixedWindow keyPrefix db options options.now)
      (CallOf bucket key limit windowMs) FixedWindowLimitOptions.now RateLimitCheckResult.allowed
      (RedisTracks keyPrefix bucket key limit windowMs) := by
  rintro db entries options htracks hwindowed hbefore ⟨rfl, rfl, rfl, rfl⟩
  have hnow : options.now < RedisReliabilityStore.windowStart options + options.windowMs :=
    windowStart_lt hwindow
  have hconsume := htracks.consume hbucket hwindow
  refine ⟨RedisReliabilityStore.windowStart options, Int.ediv_mul_le _ hwindow.ne', hnow, ?_⟩
  have hcount := (htracks.value hnow).1
  rw [(redis_consume db options options.now).2]
  split_ifs with hallowed
  · have hallowed := of_decide_eq_true hallowed
    have hroom : entries.countP (·.2 = RedisReliabilityStore.windowStart options) < options.limit := by
      omega
    dsimp only at hconsume
    rw [if_pos hroom] at hconsume
    refine ⟨fun e he => ?_, hroom, hconsume⟩
    rw [htracks.aligned e he]
    exact aligned_apart hwindow (hbefore e he)
  · have hdenied := of_decide_eq_false (Bool.not_eq_true _ ▸ hallowed)
    have hfull : ¬entries.countP (·.2 = RedisReliabilityStore.windowStart options) < options.limit := by
      omega
    dsimp only at hconsume
    rw [if_neg hfull, List.append_nil] at hconsume
    exact ⟨not_lt.mp hfull, hconsume⟩

/-- What the script answers and leaves under a key depends on what was there. -/
theorem reserveScript_congr {db db' : Keyspace} {key : JsString} (h : db key = db' key) (clock : ℤ)
    (limit : ℕ) (ttlMs : ℤ) :
    (db.reserveScript clock key limit ttlMs).2 = (db'.reserveScript clock key limit ttlMs).2 ∧
      (db.reserveScript clock key limit ttlMs).1 key = (db'.reserveScript clock key limit ttlMs).1 key := by
  have hlookup : ∀ {db db' : Keyspace}, db key = db' key → db.lookup clock key = db'.lookup clock key := by
    intro db db' h
    unfold Keyspace.lookup
    rw [h]
  have hincr : (db.incr clock key).2 = (db'.incr clock key).2 ∧
      (db.incr clock key).1 key = (db'.incr clock key).1 key := by
    unfold Keyspace.incr
    rw [hlookup h]
    split <;> exact ⟨rfl, by simp⟩
  have hpexpire : ∀ {db db' : Keyspace}, db key = db' key →
      db.pexpire clock key ttlMs key = db'.pexpire clock key ttlMs key := by
    intro db db' h
    unfold Keyspace.pexpire
    rw [hlookup h]
    cases db'.lookup clock key with
    | none => exact h
    | some v => simp
  have hpttl : ∀ {db db' : Keyspace}, db key = db' key → db.pttl clock key = db'.pttl clock key := by
    intro db db' h
    unfold Keyspace.pttl
    rw [hlookup h]
  unfold Keyspace.reserveScript
  dsimp only
  rw [← hincr.1]
  split_ifs
  · exact ⟨by rw [hpttl (hpexpire hincr.2)], hpexpire hincr.2⟩
  · exact ⟨by rw [hpttl hincr.2], hincr.2⟩
  · exact ⟨by rw [hpttl (hpexpire hincr.2)], hpexpire hincr.2⟩
  · exact ⟨by rw [hpttl hincr.2], hincr.2⟩

/-- Calls of other buckets and keys do not change the answers of Redis to these. -/
theorem redis_answers_filter {calls : List FixedWindowLimitOptions} (hbucket : 58 ∉ bucket)
    (hcalls : ∀ call ∈ calls, 58 ∉ call.bucket) :
    (fixedWindowAnswers .redis keyPrefix calls).filter (fun a => a.1.isOf bucket key) =
      fixedWindowAnswers .redis keyPrefix
        (calls.filter (FixedWindowLimitOptions.isOf bucket key)) := by
  refine Services.answers_filter (fun db db' => ∀ start,
    db (RedisReliabilityStore.fixedWindowKey keyPrefix bucket key start) =
      db' (RedisReliabilityStore.fixedWindowKey keyPrefix bucket key start)) ?_ ?_ fun _ => rfl
  · intro db db' call hcall halike
    obtain ⟨rfl, rfl⟩ := FixedWindowLimitOptions.isOf_iff.mp hcall
    obtain ⟨hanswer, hkey⟩ := reserveScript_congr (halike (RedisReliabilityStore.windowStart call))
      call.now call.limit
      (max 1 (RedisReliabilityStore.windowStart call + call.windowMs - call.now))
    refine ⟨?_, fun start => ?_⟩
    · rw [redis_answer, redis_answer, hanswer]
    · rw [(redis_consume db call call.now).1, (redis_consume db' call call.now).1]
      by_cases hstart : start = RedisReliabilityStore.windowStart call
      · rw [hstart]
        exact hkey
      · have hne : RedisReliabilityStore.fixedWindowKey keyPrefix call.bucket call.key start ≠
            RedisReliabilityStore.fixedWindowKey keyPrefix call.bucket call.key
              (RedisReliabilityStore.windowStart call) :=
          fun heq => hstart (redis_fixedWindowKey_inj hbucket hbucket heq).2.2
        rw [reserveScript_other _ _ _ hne, reserveScript_other _ _ _ hne]
        exact halike start
  · intro db db' call hm hcall halike start
    have hne : RedisReliabilityStore.fixedWindowKey keyPrefix bucket key start ≠
        RedisReliabilityStore.fixedWindowKey keyPrefix call.bucket call.key
          (RedisReliabilityStore.windowStart call) := by
      intro heq
      obtain ⟨rfl, rfl, -⟩ := redis_fixedWindowKey_inj hbucket (hcalls call hm) heq
      rw [FixedWindowLimitOptions.isOf_iff.mpr ⟨rfl, rfl⟩] at hcall
      cases hcall
    rw [(redis_consume db call call.now).1, reserveScript_other _ _ _ hne]
    exact halike start

end

/-! ## Both stores -/

section
variable {kind : ReliabilityStoreKind} {keyPrefix bucket key : JsString}
  {calls : List FixedWindowLimitOptions} {limit : ℕ} {windowMs : ℤ}

theorem map_fst_fixedWindowAnswers (kind : ReliabilityStoreKind) (keyPrefix : JsString)
    (calls : List FixedWindowLimitOptions) :
    (fixedWindowAnswers kind keyPrefix calls).map Prod.fst = calls := by
  cases kind <;> exact Services.map_fst_answers calls

theorem fixedWindowAnswers_filter (hcalls : ∀ call ∈ calls, 58 ∉ call.bucket) :
    (fixedWindowAnswers kind keyPrefix calls).filter (fun a => a.1.isOf bucket key) =
      fixedWindowAnswers kind keyPrefix (calls.filter (FixedWindowLimitOptions.isOf bucket key)) := by
  by_cases hbucket : 58 ∈ bucket
  · have hnone : ∀ call ∈ calls, ¬call.isOf bucket key = true := by
      intro call hm hcall
      rw [← (FixedWindowLimitOptions.isOf_iff.mp hcall).1] at hbucket
      exact hcalls call hm hbucket
    rw [List.filter_eq_nil_iff.mpr hnone]
    have hempty : ∀ a ∈ fixedWindowAnswers kind keyPrefix calls, ¬a.1.isOf bucket key = true := by
      intro a ha
      apply hnone
      rw [← map_fst_fixedWindowAnswers kind keyPrefix calls]
      exact List.mem_map_of_mem ha
    rw [List.filter_eq_nil_iff.mpr hempty]
    cases kind <;> rfl
  · cases kind with
    | memory => exact memory_answers_filter hbucket hcalls
    | redis => exact redis_answers_filter hbucket hcalls

/-- The calls of one bucket and key, with one limit and one length of their windows. -/
theorem fixedWindowAnswers_bounded (hcalls : ∀ call ∈ calls, CallOf bucket key limit windowMs call)
    (htimes : calls.Pairwise fun a b => a.now ≤ b.now) (hbucket : 58 ∉ bucket) (hlimit : 1 ≤ limit)
    (hwindow : 0 < windowMs) :
    (∀ since, (allowedTimes FixedWindowLimitOptions.now RateLimitCheckResult.allowed
        (fixedWindowAnswers kind keyPrefix calls)).countP
          (fun t => since ≤ t ∧ t < since + windowMs) ≤ 2 * limit) ∧
      AtEachPrefix (fun past a => a.2.allowed = false →
        limit ≤ (allowedTimes FixedWindowLimitOptions.now RateLimitCheckResult.allowed past).countP
          fun t => a.1.now - windowMs < t ∧ t ≤ a.1.now) (fixedWindowAnswers kind keyPrefix calls) := by
  cases kind with
  | memory =>
    have hcounts := memory_countsWindows bucket key hlimit hwindow
    exact ⟨hcounts.sliding rfl hcalls htimes, hcounts.denied rfl hcalls htimes⟩
  | redis =>
    have hcounts := redis_countsWindows keyPrefix key limit hbucket hwindow
    have hinit : RedisTracks keyPrefix bucket key limit windowMs (fun _ => none) [] :=
      ⟨nofun, fun _ => rfl⟩
    exact ⟨hcounts.sliding hinit hcalls htimes, hcounts.denied hinit hcalls htimes⟩

end

/-- In both stores, every interval of the length of a window has at most twice the limit of allowed
calls of a bucket and a key, a call is denied only behind as many allowed calls as the limit says, and
the answers do not depend on the calls of other buckets and keys. -/
theorem fixed_windows_bounded (kind : ReliabilityStoreKind) (keyPrefix : JsString)
    {limitOf : JsString → ℕ} {windowOf : JsString → ℤ} {calls : List FixedWindowLimitOptions}
    (htimes : calls.Pairwise fun a b => a.now ≤ b.now)
    (hcalls : ∀ call ∈ calls, call.Configured limitOf windowOf) (bucket key : JsString) :
    let answers := fixedWindowAnswers kind keyPrefix calls
    (∀ since, (pairTimes bucket key answers).countP
        (fun t => since ≤ t ∧ t < since + windowOf bucket) ≤ 2 * limitOf bucket) ∧
      AtEachPrefix (fun past a => a.1.isOf bucket key = true → a.2.allowed = false →
        limitOf bucket ≤ (pairTimes bucket key past).countP
          fun t => a.1.now - windowOf bucket < t ∧ t ≤ a.1.now) answers ∧
      answers.filter (fun a => a.1.isOf bucket key) =
        fixedWindowAnswers kind keyPrefix (calls.filter (FixedWindowLimitOptions.isOf bucket key)) := by
  intro answers
  have hfilter : answers.filter (fun a => a.1.isOf bucket key) =
      fixedWindowAnswers kind keyPrefix (calls.filter (FixedWindowLimitOptions.isOf bucket key)) :=
    fixedWindowAnswers_filter fun call hm => (hcalls call hm).bucket
  have hof : ∀ call ∈ calls.filter (FixedWindowLimitOptions.isOf bucket key),
      CallOf bucket key (limitOf bucket) (windowOf bucket) call ∧ call.Configured limitOf windowOf := by
    intro call hm
    obtain ⟨hmem, hcall⟩ := List.mem_filter.mp hm
    obtain ⟨rfl, rfl⟩ := FixedWindowLimitOptions.isOf_iff.mp hcall
    have hconfigured := hcalls call hmem
    exact ⟨⟨rfl, rfl, hconfigured.limit, hconfigured.windowMs⟩, hconfigured⟩
  have hbounded : (∀ since, (allowedTimes FixedWindowLimitOptions.now RateLimitCheckResult.allowed
        (answers.filter fun a => a.1.isOf bucket key)).countP
          (fun t => since ≤ t ∧ t < since + windowOf bucket) ≤ 2 * limitOf bucket) ∧
      AtEachPrefix (fun past a => a.2.allowed = false → limitOf bucket ≤
        (allowedTimes FixedWindowLimitOptions.now RateLimitCheckResult.allowed past).countP
          fun t => a.1.now - windowOf bucket < t ∧ t ≤ a.1.now)
        (answers.filter fun a => a.1.isOf bucket key) := by
    rw [hfilter]
    by_cases hnone : calls.filter (FixedWindowLimitOptions.isOf bucket key) = []
    · rw [hnone]
      cases kind <;> exact ⟨fun _ => Nat.zero_le _, .nil⟩
    · obtain ⟨call, hcall⟩ := List.exists_mem_of_ne_nil _ hnone
      obtain ⟨hcallOf, hconfigured⟩ := hof call hcall
      refine fixedWindowAnswers_bounded (fun call hm => (hof call hm).1) (htimes.filter _) ?_ ?_ ?_
      · rw [← hcallOf.bucket]
        exact hconfigured.bucket
      · rw [← hcallOf.limit]
        exact hconfigured.limited
      · rw [← hcallOf.windowMs]
        exact hconfigured.positive
  exact ⟨hbounded.1, AtEachPrefix.of_filter hbounded.2, hfilter⟩

/-! ## An example -/

/-- Two calls of a bucket with a limit of 1, and one of another whose key begins like the first's. -/
def exampleWindowCalls : List FixedWindowLimitOptions :=
  [⟨js "login", js "::1", 1, 1000, 500⟩, ⟨js "join", js "login:::1", 1, 1000, 600⟩,
    ⟨js "login", js "::1", 1, 1000, 700⟩, ⟨js "login", js "::1", 1, 1000, 1500⟩]

theorem fixed_windows_bounded_example :
    (pairTimes (js "login") (js "::1") (fixedWindowAnswers .memory (js "codeshare") exampleWindowCalls)).countP
        (fun t => 500 ≤ t ∧ t < 500 + 1000) ≤ 2 * 1 ∧
      (pairTimes (js "login") (js "::1") (fixedWindowAnswers .redis (js "codeshare") exampleWindowCalls)).countP
        (fun t => 501 ≤ t ∧ t < 501 + 1000) ≤ 2 * 1 := by
  have htimes : exampleWindowCalls.Pairwise fun a b => a.now ≤ b.now := by decide
  have hcalls : ∀ call ∈ exampleWindowCalls, call.Configured (fun _ => 1) (fun _ => 1000) := by
    intro call hm
    simp only [exampleWindowCalls, List.mem_cons, List.not_mem_nil, or_false] at hm
    rcases hm with rfl | rfl | rfl | rfl <;> exact ⟨by decide, rfl, by decide, rfl, by decide⟩
  exact ⟨(fixed_windows_bounded .memory (js "codeshare") htimes hcalls (js "login") (js "::1")).1 500,
    (fixed_windows_bounded .redis (js "codeshare") htimes hcalls (js "login") (js "::1")).1 501⟩

end CodeShare.ReliabilityStore
