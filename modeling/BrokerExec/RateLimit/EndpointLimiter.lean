import BrokerExec.RateLimit.CircuitBreaker
import BrokerExec.RateLimiter

/-!
# The limiter of the endpoint classes (`ratelimit/endpoint_limiter.cpp`)

One token bucket and one circuit breaker for each class of endpoints. An entry meets the breaker
before the bucket; an exit goes straight to the bucket.

* **`acquire_exit_congr`** — what an exit is answered does not depend on any breaker.
* **`breaker_over_runs`** — the breaker over whole runs.
-/

namespace BrokerExec.RateLimit

open BrokerExec.Errors (makeError)

inductive EndpointClass where
  | order
  | quote
  | historical
  | other
  deriving DecidableEq

def EndpointClass.toString : EndpointClass → Bytes
  | .order => ascii "order"
  | .quote => ascii "quote"
  | .historical => ascii "historical"
  | .other => ascii "other"

structure EndpointLimits where
  orderPerSec : Int32
  quotePerSec : Int32
  historicalPerSec : Int32
  otherPerSec : Int32
  reservedExitOrder : Int32
  deriving DecidableEq

/-- The source's defaults. -/
def EndpointLimits.initial : EndpointLimits := ⟨10, 1, 3, 10, 2⟩

/-- In milliseconds: a token every `1000 / N`. -/
def refillPeriodFor (perSec : Int32) : Int := if perSec ≤ 0 then 0 else (1000 / perSec).toInt

/-- The order bucket holds the reserved exits and a token at least. -/
def orderCapacity (l : EndpointLimits) : Int32 :=
  let reservedFloor := if l.reservedExitOrder > 0 then l.reservedExitOrder else 0
  let cap := if l.orderPerSec > reservedFloor then l.orderPerSec else reservedFloor
  if cap > 0 then cap else 1

structure EndpointRateLimiter where
  orderBucket : RateLimiter
  quoteBucket : RateLimiter
  historicalBucket : RateLimiter
  otherBucket : RateLimiter
  orderBreaker : CircuitBreaker
  quoteBreaker : CircuitBreaker
  historicalBreaker : CircuitBreaker
  otherBreaker : CircuitBreaker

/-- A bucket of the token model. -/
def bucketOf (now : Int) (perSec reserved : Int32) : RateLimiter :=
  .create now perSec.toInt (refillPeriodFor perSec) reserved.toInt

namespace EndpointRateLimiter

def create (now : Int) (limits : EndpointLimits) (breaker : BreakerConfig) :
    EndpointRateLimiter where
  orderBucket := bucketOf now (orderCapacity limits) limits.reservedExitOrder
  quoteBucket := bucketOf now limits.quotePerSec 0
  historicalBucket := bucketOf now limits.historicalPerSec 0
  otherBucket := bucketOf now limits.otherPerSec 0
  orderBreaker := .create now breaker
  quoteBreaker := .create now breaker
  historicalBreaker := .create now breaker
  otherBreaker := .create now breaker

variable (l : EndpointRateLimiter)

def bucketFor : EndpointClass → RateLimiter
  | .order => l.orderBucket
  | .quote => l.quoteBucket
  | .historical => l.historicalBucket
  | .other => l.otherBucket

def breakerFor : EndpointClass → CircuitBreaker
  | .order => l.orderBreaker
  | .quote => l.quoteBreaker
  | .historical => l.historicalBreaker
  | .other => l.otherBreaker

/-- What a call through the reference that `bucket_for` hands out leaves behind. -/
def withBucket (bucket : RateLimiter) : EndpointClass → EndpointRateLimiter
  | .order => { l with orderBucket := bucket }
  | .quote => { l with quoteBucket := bucket }
  | .historical => { l with historicalBucket := bucket }
  | .other => { l with otherBucket := bucket }

def withBreaker (breaker : CircuitBreaker) : EndpointClass → EndpointRateLimiter
  | .order => { l with orderBreaker := breaker }
  | .quote => { l with quoteBreaker := breaker }
  | .historical => { l with historicalBreaker := breaker }
  | .other => { l with otherBreaker := breaker }

/-- The breaker reads the clock at `asked`, the bucket at `now`. -/
def acquire (asked now : Int) (ep : EndpointClass) (isExit : Bool) :
    Result Unit × EndpointRateLimiter :=
  if !isExit && (l.breakerFor ep).isOpen asked then
    (.error
      { makeError .riskRejected (ascii "endpoint rate limiter: circuit breaker open for endpoint '"
          ++ ep.toString ++ ascii "' - entry blocked") with
        action := .doNotRetry }, l)
  else
    let answer := (l.bucketFor ep).acquire now isExit
    (answer.1, l.withBucket answer.2 ep)

def record429 (now : Int) (ep : EndpointClass) : EndpointRateLimiter :=
  l.withBreaker ((l.breakerFor ep).record429 now) ep

def recordSuccess (now : Int) (ep : EndpointClass) : EndpointRateLimiter :=
  l.withBreaker ((l.breakerFor ep).recordSuccess now) ep

end EndpointRateLimiter

/-! ## What a call reads and writes -/

section

variable {l l' : EndpointRateLimiter}

@[simp] theorem bucketFor_withBucket (bucket : RateLimiter) (ep ep' : EndpointClass) :
    (l.withBucket bucket ep).bucketFor ep' = if ep' = ep then bucket else l.bucketFor ep' := by
  cases ep <;> cases ep' <;> rfl

@[simp] theorem breakerFor_withBucket (bucket : RateLimiter) (ep : EndpointClass) :
    (l.withBucket bucket ep).breakerFor = l.breakerFor := by
  cases ep <;> rfl

@[simp] theorem bucketFor_withBreaker (breaker : CircuitBreaker) (ep : EndpointClass) :
    (l.withBreaker breaker ep).bucketFor = l.bucketFor := by
  cases ep <;> rfl

@[simp] theorem breakerFor_withBreaker (breaker : CircuitBreaker) (ep ep' : EndpointClass) :
    (l.withBreaker breaker ep).breakerFor ep' = if ep' = ep then breaker else l.breakerFor ep' := by
  cases ep <;> cases ep' <;> rfl

/-- **An acquire opens and closes no breaker.** -/
theorem breakerFor_acquire (asked now : Int) (ep : EndpointClass) (isExit : Bool) :
    (l.acquire asked now ep isExit).2.breakerFor = l.breakerFor := by
  unfold EndpointRateLimiter.acquire
  split_ifs
  · rfl
  · exact breakerFor_withBucket _ ep

/-- An exit goes to its bucket. -/
theorem acquire_exit (asked now : Int) (ep : EndpointClass) :
    l.acquire asked now ep true
      = (((l.bucketFor ep).acquire now true).1,
        l.withBucket ((l.bucketFor ep).acquire now true).2 ep) := rfl

/-- **An exit does not depend on a breaker**: with the same buckets it is answered the same, and
leaves the same buckets. -/
theorem acquire_exit_congr (h : l.bucketFor = l'.bucketFor) (asked asked' now : Int)
    (ep : EndpointClass) :
    (l.acquire asked now ep true).1 = (l'.acquire asked' now ep true).1
      ∧ (l.acquire asked now ep true).2.bucketFor
        = (l'.acquire asked' now ep true).2.bucketFor := by
  rw [acquire_exit, acquire_exit, h]
  refine ⟨rfl, funext fun ep' => ?_⟩
  rw [bucketFor_withBucket, bucketFor_withBucket, h]

end

/-- **The circuit breaker over whole runs**: it is open exactly while the cooldown since the last
tripping 429 lasts, nothing overflows, and an exit does not depend on it. -/
theorem breaker_over_runs (cfg : BreakerConfig) (start : Int) (events : List BreakerEvent) :
    ((run BreakerUse.step (.create start cfg) events).breaker.isOpen
          (run BreakerUse.step (.create start cfg) events).clock = true
        ↔ (run History.step ⟨start, []⟩ events).IsOpen cfg)
      ∧ NothingOverflows (run BreakerUse.step (.create start cfg) events).breaker
      ∧ ∀ (l l' : EndpointRateLimiter), l.bucketFor = l'.bucketFor →
        ∀ (asked asked' now : Int) (ep : EndpointClass),
          (l.acquire asked now ep true).1 = (l'.acquire asked' now ep true).1
            ∧ (l.acquire asked now ep true).2.bucketFor
              = (l'.acquire asked' now ep true).2.bucketFor :=
  ⟨isOpen_iff (follows_run cfg start events), nothingOverflows _,
    fun _ _ h asked asked' now ep => acquire_exit_congr h asked asked' now ep⟩

end BrokerExec.RateLimit
