import OpenFlight.Core.Prim
import OpenFlight.Lib.Overlay

/-!
# Rate Limits and Retries

How often a client may ask, and how long it waits before it tries to connect again.

A bucket of tokens for each client. A request takes as many tokens as it costs or is
turned away, and tokens are added with the time that has passed.

Tokens and rates are exact. A bucket is made at the first request of its client and the
clock is read for that; then it is read again to add tokens. The minimum interval of a
configuration is used nowhere.

A `Duration` of the source has an upper bound, and `saturating_mul` stops there. The two
delays of a retry policy are within the bound, which the policy carries here. The number
that the base delay is multiplied by is a one that is shifted by the number of the
attempt, and a shift of 32 bits uses the lowest five bits of its amount. Each attempt is
a call of a function that may fail. What the calls return is given by a function from
the number of the attempt. The loop is modelled by what it returns and how long it
slept, in order.

## Main definitions

* `RateLimitConfig`, `RateLimitResult`: The configuration and the answers.
* `RetryPolicy`, `RetryPolicy.delayFor`: The policy.
-/

namespace OpenFlight.Ipc

/-- The limit of a client. -/
structure RateLimitConfig where
  maxTokens : UInt32
  refillRate : ℚ
  refillInterval : Duration

/-- What a request is told. -/
inductive RateLimitResult
  | allowed
  | limited (retryAfterMs : ℕ)
deriving DecidableEq

/-- `Duration::as_secs_f64`. -/
def asSecs (d : Duration) : ℚ :=
  d / 1000000000

/-- A number that is not negative `as u64`, which saturates. -/
def saturateU64 (q : ℚ) : ℕ :=
  min ⌊q⌋₊ (2 ^ 64 - 1)

/-- The bucket of a client. -/
structure TokenBucket where
  tokens : ℚ
  maxTokens : UInt32
  refillRate : ℚ
  lastRefill : Instant

namespace TokenBucket

/-- `TokenBucket::new`. -/
def new (config : RateLimitConfig) (now : Instant) : TokenBucket where
  tokens := config.maxTokens.toNat
  maxTokens := config.maxTokens
  refillRate := config.refillRate
  lastRefill := now

/-- The tokens for the time that has passed. -/
def refill (self : TokenBucket) (now : Instant) : TokenBucket :=
  let elapsed := durationSince now self.lastRefill
  let added := asSecs elapsed * self.refillRate
  if added > 0 then
    { self with
      tokens := min (self.tokens + added) self.maxTokens.toNat
      lastRefill := now }
  else self

/-- What a request is told to wait. Without any inflow this is as long as it gets. -/
def retryAfterMs (self : TokenBucket) (cost : UInt32) : ℕ :=
  let deficit := cost.toNat - self.tokens
  let waitSecs := if self.refillRate > 0 then deficit / self.refillRate else 2 ^ 32 - 1
  saturateU64 ⌈waitSecs * 1000⌉

/-- A request is allowed, or told how long to wait. -/
def tryConsume (self : TokenBucket) (cost : UInt32) (now : Instant) :
    TokenBucket × RateLimitResult :=
  let self := self.refill now
  if self.tokens ≥ cost.toNat then
    ({ self with tokens := self.tokens - cost.toNat }, .allowed)
  else (self, .limited (self.retryAfterMs cost))

/-- `remaining`, which saturates as a 32-bit number. -/
def remaining (self : TokenBucket) : ℕ :=
  min ⌊self.tokens⌋₊ (2 ^ 32 - 1)

end TokenBucket

/-- The buckets of all clients. -/
structure RateLimiter where
  buckets : HashMap String TokenBucket
  defaultConfig : RateLimitConfig

namespace RateLimiter

/-- `RateLimiter::new`. -/
def new (defaultConfig : RateLimitConfig) : RateLimiter :=
  { buckets := ∅, defaultConfig }

/-- `check_with_cost`; `created` is when the clock is read for a new bucket. -/
def checkWithCost (self : RateLimiter) (clientId : String) (cost : UInt32)
    (created now : Instant) : RateLimiter × RateLimitResult :=
  let bucket := (self.buckets.lookup clientId).getD (TokenBucket.new self.defaultConfig created)
  let result := bucket.tryConsume cost now
  ({ self with buckets := self.buckets.insert clientId result.1 }, result.2)

/-- A client gets a full bucket of another size. -/
def configureClient (self : RateLimiter) (clientId : String) (config : RateLimitConfig)
    (now : Instant) : RateLimiter :=
  { self with buckets := self.buckets.insert clientId (TokenBucket.new config now) }

/-- Forget a client. -/
def removeClient (self : RateLimiter) (clientId : String) : RateLimiter :=
  { self with buckets := self.buckets.erase clientId }

/-- What a client has left. -/
def remainingTokens (self : RateLimiter) (clientId : String) : Option ℕ :=
  (self.buckets.lookup clientId).map TokenBucket.remaining

/-- Forget all clients. -/
def reset (self : RateLimiter) : RateLimiter :=
  { self with buckets := ∅ }

end RateLimiter

/-- `Duration::MAX`: all seconds of 64 bits, and all nanoseconds below one more. -/
def durationMax : Duration :=
  (2 ^ 64 - 1) * 1000000000 + 999999999

/-- `Duration::saturating_mul`. -/
def saturatingMul (d : Duration) (rhs : UInt32) : Duration :=
  min (d * rhs.toNat) durationMax

/-- `u32::wrapping_shl`. -/
def wrappingShl (a rhs : UInt32) : UInt32 :=
  a <<< (rhs % 32)

/-- How long to wait, and how often to try. -/
structure RetryPolicy where
  maxRetries : UInt32
  baseDelay : Duration
  maxDelay : Duration
  baseDelay_le : baseDelay ≤ durationMax
  maxDelay_le : maxDelay ≤ durationMax

namespace RetryPolicy

/-- The delay before an attempt. -/
def delayFor (self : RetryPolicy) (attempt : UInt32) : Duration :=
  min (saturatingMul self.baseDelay (wrappingShl 1 attempt)) self.maxDelay

/-- The attempts that are left after one, and the times slept on the way. -/
def retryFrom {ε α : Type} (self : RetryPolicy) (f : Nat → Except ε α) :
    Nat → Nat → Except ε α × List Duration
  | attempt, 0 => (f attempt, [])
  | attempt, left + 1 =>
      match f attempt with
      | .ok value => (.ok value, [])
      | .error _ =>
          let rest := self.retryFrom f (attempt + 1) left
          (rest.1, self.delayFor (UInt32.ofNat attempt) :: rest.2)

/-- `retry`: what it returns, and how long it slept before each further attempt. -/
def retry {ε α : Type} (self : RetryPolicy) (f : Nat → Except ε α) : Except ε α × List Duration :=
  self.retryFrom f 0 self.maxRetries.toNat

end RetryPolicy

end OpenFlight.Ipc
