import CodeShare.Lib.ReliabilityStore
import CodeShare.Text.Json

/-! # Fixed windows of the reliability store

`consumeFixedWindow` of `lib/reliabilityStore.ts`. The memory store opens a window with the first call
and keeps it under the bucket and the key; the windows of Redis start at the multiples of their length
and have a key each. A call to Redis has the clock of Redis besides its own.
-/

namespace CodeShare.ReliabilityStore
set_option autoImplicit false

structure FixedWindowLimitOptions where
  bucket : JsString
  key : JsString
  limit : ℕ
  windowMs : ℤ
  now : ℤ
  deriving DecidableEq

structure RateLimitCheckResult where
  allowed : Bool
  retryAfterSeconds : ℤ
  deriving DecidableEq, Repr

/-- An integer in a text. -/
def intUnits (n : ℤ) : JsString :=
  if n < 0 then 45 :: decimalUnits n.natAbs else decimalUnits n.natAbs

/-! ## In memory -/

structure FixedWindowEntry where
  count : ℕ
  resetAt : ℤ
  deriving DecidableEq, Repr

/-- The windows that the memory store holds. -/
abbrev FixedWindows := JsString → Option FixedWindowEntry

namespace MemoryReliabilityStore

def fixedWindowKey (bucket key : JsString) : JsString := bucket ++ js ":" ++ key

def consumeFixedWindow (fixedWindows : FixedWindows) (options : FixedWindowLimitOptions) :
    FixedWindows × RateLimitCheckResult :=
  let key := fixedWindowKey options.bucket options.key
  let opened := Function.update fixedWindows key (some ⟨1, options.now + options.windowMs⟩)
  match fixedWindows key with
  | none => (opened, ⟨true, 0⟩)
  | some existing =>
    if existing.resetAt ≤ options.now then (opened, ⟨true, 0⟩)
    else if options.limit ≤ existing.count then
      (fixedWindows, ⟨false, retryAfterSeconds (existing.resetAt - options.now)⟩)
    else
      (Function.update fixedWindows key (some { existing with count := existing.count + 1 }), ⟨true, 0⟩)

end MemoryReliabilityStore

/-! ## Redis -/

namespace RedisReliabilityStore
variable (keyPrefix : JsString)

def windowStart (options : FixedWindowLimitOptions) : ℤ :=
  options.now / options.windowMs * options.windowMs

def fixedWindowKey (bucket key : JsString) (start : ℤ) : JsString :=
  redisKey keyPrefix [js "fixed", bucket, key, intUnits start]

def consumeFixedWindow (db : Keyspace) (options : FixedWindowLimitOptions) (ranAt : ℤ) :
    Keyspace × RateLimitCheckResult :=
  let ttlMs := windowStart options + options.windowMs - options.now
  let (db, result) := reserve db ranAt
    (fixedWindowKey keyPrefix options.bucket options.key (windowStart options)) options.limit ttlMs
  (db, ⟨result.allowed, if result.allowed then 0 else retryAfterSeconds result.ttlMs⟩)

end RedisReliabilityStore

/-! ## Calls -/

inductive ReliabilityStoreKind where
  | memory
  | redis
  deriving DecidableEq, Repr

/-- The calls with their answers, from an empty store. The clock of Redis is that of the server. -/
def fixedWindowAnswers (kind : ReliabilityStoreKind) (keyPrefix : JsString)
    (calls : List FixedWindowLimitOptions) : List (FixedWindowLimitOptions × RateLimitCheckResult) :=
  match kind with
  | .memory => Services.answers MemoryReliabilityStore.consumeFixedWindow (fun _ => none) calls
  | .redis =>
    Services.answers (fun db options =>
      RedisReliabilityStore.consumeFixedWindow keyPrefix db options options.now) (fun _ => none) calls

end CodeShare.ReliabilityStore
