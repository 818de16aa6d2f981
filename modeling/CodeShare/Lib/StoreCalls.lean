import CodeShare.Lib.FixedWindows

/-! # Calls to a reliability store

Windows and quotas of one store, in any order.
-/

namespace CodeShare.ReliabilityStore
set_option autoImplicit false

inductive StoreCall where
  | window (options : FixedWindowLimitOptions)
  | quota (options : DailyQuotaOptions)

namespace StoreCall

def now : StoreCall → ℤ
  | window options => options.now
  | quota options => options.now

/-- The same call, some milliseconds later. -/
def later (ms : ℤ) : StoreCall → StoreCall
  | window options => window { options with now := options.now + ms }
  | quota options => quota { options with now := options.now + ms }

def quotaCall : StoreCall → Option QuotaCall
  | window _ => none
  | quota options => some (.reserve options options.now)

/-- The limit is at least 1; a bucket has one length of its windows, and a resource one limit. -/
def Configured (windowOf : JsString → ℤ) (quotaOf : DailyQuotaResource → ℕ) : StoreCall → Prop
  | window options => 1 ≤ options.limit ∧ options.windowMs = windowOf options.bucket ∧ 0 < options.windowMs
  | quota options => 1 ≤ options.limit ∧ options.limit = quotaOf options.resource

end StoreCall

abbrev MemoryStore := FixedWindows × MemoryReliabilityStore

def memoryAnswer (store : MemoryStore) : StoreCall → MemoryStore × RateLimitCheckResult
  | .window options =>
    let (fixedWindows, result) := MemoryReliabilityStore.consumeFixedWindow store.1 options
    ((fixedWindows, store.2), result)
  | .quota options =>
    let (counters, reservation) := store.2.reserveDailyQuota options
    ((store.1, counters), ⟨reservation.allowed, reservation.retryAfterSeconds⟩)

/-- The clock of Redis is that of the server. -/
def redisAnswer (keyPrefix : JsString) (db : Keyspace) : StoreCall → Keyspace × RateLimitCheckResult
  | .window options => RedisReliabilityStore.consumeFixedWindow keyPrefix db options options.now
  | .quota options =>
    let (db, reservation) := RedisReliabilityStore.reserveDailyQuota keyPrefix db options options.now
    (db, ⟨reservation.allowed, reservation.retryAfterSeconds⟩)

def memoryStoreAfter (past : List StoreCall) : MemoryStore := Services.after memoryAnswer (fun _ => none, .empty) past

def keyspaceAfter (keyPrefix : JsString) (past : List StoreCall) : Keyspace :=
  Services.after (redisAnswer keyPrefix) (fun _ => none) past

end CodeShare.ReliabilityStore
