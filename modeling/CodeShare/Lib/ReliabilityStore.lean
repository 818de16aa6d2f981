import CodeShare.Foundations.Calendar
import CodeShare.Foundations.Services
import CodeShare.Text.JsString
import Mathlib.Logic.Function.Basic
import Mathlib.Tactic.SplitIfs

/-! # The daily quotas of the reliability store

Reservations and snapshots of `lib/reliabilityStore.ts`, in memory and in Redis. Clocks are
milliseconds since 1970. A call to the Redis store carries its own clock, from which its key is made,
and the clock of Redis when the command runs there.
-/

namespace CodeShare.ReliabilityStore
open Calendar
set_option autoImplicit false

/-! ## Days -/

def msPerDay : ℤ := 86400000

def utcDay (now : ℤ) : ℤ := now / msPerDay

/-- The last digits of a number. -/
def paddedUnits : ℕ → ℕ → JsString
  | 0, _ => []
  | digits + 1, n => paddedUnits digits (n / 10) ++ [48 + n % 10]

/-- The date in `toISOString`. -/
def isoDate (day : ℤ) : JsString :=
  let year := yearFromDay day
  (if 0 ≤ year ∧ year ≤ 9999 then paddedUnits 4 year.toNat
    else (if year < 0 then 45 else 43) :: paddedUnits 6 year.natAbs) ++
    45 :: paddedUnits 2 (monthFromDay day + 1) ++ 45 :: paddedUnits 2 (dateFromDay day).toNat

/-- `toISOString().slice(0, 10)`, of which the time of day is no part. -/
def dayKey (day : ℤ) : JsString := (isoDate day).take 10

def utcDayKey (now : ℤ) : JsString := dayKey (utcDay now)

/-- `Date.UTC` takes the years up to 99 for those of the twentieth century. -/
def dateUTC (year : ℤ) (month : ℕ) (date : ℤ) : ℤ :=
  makeDay (if 0 ≤ year ∧ year ≤ 99 then 1900 + year else year) month date * msPerDay

def msUntilNextUtcDay (now : ℤ) : ℤ :=
  let current := utcDay now
  let nextDay := dateUTC (yearFromDay current) (monthFromDay current) (dateFromDay current + 1)
  max 1 (nextDay - now)

def retryAfterSeconds (ms : ℤ) : ℤ := max 1 ((ms + 999) / 1000)

/-! ## Reservations -/

inductive DailyQuotaResource where
  | judge0
  | imports
  | llm
  deriving DecidableEq, Repr

def DailyQuotaResource.text : DailyQuotaResource → JsString
  | judge0 => js "judge0"
  | imports => js "imports"
  | llm => js "llm"

structure DailyQuotaOptions where
  resource : DailyQuotaResource
  limit : ℕ
  now : ℤ
  deriving DecidableEq

structure DailyQuotaReservation where
  allowed : Bool
  retryAfterSeconds : ℤ
  used : ℕ
  limit : ℕ
  deriving DecidableEq

abbrev DailyCounterMap := DailyQuotaResource → ℕ

def blankDailyCounters : DailyCounterMap := fun _ => 0

/-! ## In memory -/

structure MemoryReliabilityStore where
  dailyCounters : JsString → Option DailyCounterMap

namespace MemoryReliabilityStore
variable (store : MemoryReliabilityStore)

def empty : MemoryReliabilityStore := ⟨fun _ => none⟩

def setDailyCounters (day : JsString) (counters : DailyCounterMap) : MemoryReliabilityStore :=
  ⟨Function.update store.dailyCounters day (some counters)⟩

def getOrCreateDailyCounters (day : JsString) : MemoryReliabilityStore × DailyCounterMap :=
  match store.dailyCounters day with
  | some existing => (store, existing)
  | none => (store.setDailyCounters day blankDailyCounters, blankDailyCounters)

def reserveDailyQuota (options : DailyQuotaOptions) :
    MemoryReliabilityStore × DailyQuotaReservation :=
  let day := utcDayKey options.now
  let (store, counters) := store.getOrCreateDailyCounters day
  let used := counters options.resource
  if options.limit ≤ used then
    (store, ⟨false, retryAfterSeconds (msUntilNextUtcDay options.now), used, options.limit⟩)
  else
    (store.setDailyCounters day (Function.update counters options.resource (used + 1)),
      ⟨true, 0, used + 1, options.limit⟩)

def getUsageSnapshot (now : ℤ) : MemoryReliabilityStore × DailyCounterMap :=
  store.getOrCreateDailyCounters (utcDayKey now)

/-- What the store counts for a day and a resource. -/
def count (day : JsString) (resource : DailyQuotaResource) : ℕ :=
  ((store.dailyCounters day).getD blankDailyCounters) resource

end MemoryReliabilityStore

/-! ## Redis -/

/-- A counter with the time until which it lives. -/
structure RedisValue where
  value : ℕ
  expireAt : Option ℤ

/-- The keys of a Redis server. -/
abbrev Keyspace := JsString → Option RedisValue

namespace Keyspace
variable (db : Keyspace) (clock : ℤ) (key : JsString)

def lookup : Option RedisValue := (db key).filter fun v => v.expireAt.all fun e => clock ≤ e

def incr : Keyspace × ℕ :=
  match db.lookup clock key with
  | none => (Function.update db key (some ⟨1, none⟩), 1)
  | some v => (Function.update db key (some { v with value := v.value + 1 }), v.value + 1)

def pexpire (ms : ℤ) : Keyspace :=
  match db.lookup clock key with
  | none => db
  | some v => Function.update db key (some { v with expireAt := some (clock + ms) })

def pttl : ℤ :=
  match db.lookup clock key with
  | none => -2
  | some v =>
    match v.expireAt with
    | none => -1
    | some expireAt => expireAt - clock

/-- RESERVE_SCRIPT. -/
def reserveScript (limit : ℕ) (ttlMs : ℤ) : Keyspace × ℕ × ℕ × ℤ :=
  let (db, current) := db.incr clock key
  let db := if current = 1 then db.pexpire clock key ttlMs else db
  let ttl := db.pttl clock key
  if limit < current then (db, 0, current - 1, ttl) else (db, 1, current, ttl)

end Keyspace

structure RedisReservation where
  allowed : Bool
  used : ℕ
  ttlMs : ℤ

namespace RedisReliabilityStore
variable (keyPrefix : JsString) (db : Keyspace)

def redisKey (parts : List JsString) : JsString := joinTexts (js ":") (keyPrefix :: parts)

def dailyQuotaKey (resource : DailyQuotaResource) (day : JsString) : JsString :=
  redisKey keyPrefix [js "daily", resource.text, day]

def reserve (clock : ℤ) (key : JsString) (limit : ℕ) (ttlMs : ℤ) : Keyspace × RedisReservation :=
  let (db, allowed, used, ttl) := db.reserveScript clock key limit (max 1 ttlMs)
  (db, ⟨allowed = 1, used, if 0 < ttl then ttl else 1⟩)

def reserveDailyQuota (options : DailyQuotaOptions) (ranAt : ℤ) : Keyspace × DailyQuotaReservation :=
  let key := dailyQuotaKey keyPrefix options.resource (utcDayKey options.now)
  let (db, result) := reserve db ranAt key options.limit (msUntilNextUtcDay options.now + 86400000)
  (db, ⟨result.allowed, if result.allowed then 0 else retryAfterSeconds result.ttlMs, result.used,
    options.limit⟩)

def getUsageSnapshot (now ranAt : ℤ) : DailyCounterMap := fun resource =>
  ((db.lookup ranAt (dailyQuotaKey keyPrefix resource (utcDayKey now))).map (·.value)).getD 0

end RedisReliabilityStore

/-! ## Calls -/

inductive QuotaCall where
  | reserve (options : DailyQuotaOptions) (ranAt : ℤ)
  | snapshot (now ranAt : ℤ)

inductive QuotaAnswer where
  | reserved (reservation : DailyQuotaReservation)
  | usage (snapshot : DailyCounterMap)

def MemoryReliabilityStore.handle (store : MemoryReliabilityStore) :
    QuotaCall → MemoryReliabilityStore × QuotaAnswer
  | .reserve options _ => ((store.reserveDailyQuota options).1, .reserved (store.reserveDailyQuota options).2)
  | .snapshot now _ => ((store.getUsageSnapshot now).1, .usage (store.getUsageSnapshot now).2)

def RedisReliabilityStore.handle (keyPrefix : JsString) (db : Keyspace) :
    QuotaCall → Keyspace × QuotaAnswer
  | .reserve options ranAt =>
    ((reserveDailyQuota keyPrefix db options ranAt).1,
      .reserved (reserveDailyQuota keyPrefix db options ranAt).2)
  | .snapshot now ranAt => (db, .usage (getUsageSnapshot keyPrefix db now ranAt))

/-- The memory store behind some calls. -/
def memoryAfter (past : List QuotaCall) : MemoryReliabilityStore :=
  Services.after MemoryReliabilityStore.handle .empty past

/-- Redis behind some calls. -/
def redisAfter (keyPrefix : JsString) (past : List QuotaCall) : Keyspace :=
  Services.after (RedisReliabilityStore.handle keyPrefix) (fun _ => none) past

end CodeShare.ReliabilityStore
