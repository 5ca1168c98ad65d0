import OpenFlight.Core.Ipc.RateLimiter
import OpenFlight.Lib.Reservoir

/-!
# The Token Budget of a Client

What a client is allowed in an interval, and when it is allowed something again.

The bucket of a client is a reservoir: it is as full as the reservoir at every time from
the last request on. A client without a bucket has a full one. Requests of other clients
leave its bucket alone, and a refill that adds nothing leaves the time of the last refill
behind, but nothing flows in between.

A request that is turned away is told to wait until the tokens it lacks have flown in.
That is not so without any inflow, nor where the wait is longer than the number can tell.

The buckets are apart, whatever is done with them: a client can be given a bucket of its
own, or lose it, and what it is told later depends on the calls that name it and on the
resets.

## Main definitions

* `RateCall`, `checked`: Requests, and what they are answered.
* `InOrder`: Requests at times that do not decrease.

## Theorems

* `retried_allowed`, `not_retriesAllowed`: Waits that are enough, and those that are not.
* `token_budget`: The budget, and waits.
-/

namespace OpenFlight.Ipc

/-- A request and the two readings of the clock. -/
structure RateCall where
  clientId : String
  cost : UInt32
  created : Instant
  now : Instant
deriving DecidableEq

def RateLimiter.handle (limiter : RateLimiter) (call : RateCall) : RateLimiter × RateLimitResult :=
  limiter.checkWithCost call.clientId call.cost call.created call.now

/-- Requests and what they are answered. -/
def checked : RateLimiter → List RateCall → List (RateCall × RateLimitResult)
  | _, [] => []
  | limiter, call :: rest =>
      (call, (limiter.handle call).2) :: checked (limiter.handle call).1 rest

/-- The times do not decrease, and none is before the first. -/
def InOrder : Instant → List RateCall → Prop
  | _, [] => True
  | start, call :: rest => start ≤ call.now ∧ call.created ≤ call.now ∧ InOrder call.now rest

instance decidableInOrder : (start : Instant) → (calls : List RateCall) →
    Decidable (InOrder start calls)
  | _, [] => isTrue trivial
  | start, call :: rest =>
      have := decidableInOrder call.now rest
      inferInstanceAs (Decidable (start ≤ call.now ∧ call.created ≤ call.now ∧
        InOrder call.now rest))

/-- The cost of what a client was allowed from one time to another. -/
def allowedCost (client : String) (first last : Instant)
    (log : List (RateCall × RateLimitResult)) : ℕ :=
  ((log.filter fun entry => entry.2 = .allowed ∧ entry.1.clientId = client ∧
    first ≤ entry.1.now ∧ entry.1.now ≤ last).map fun entry => entry.1.cost.toNat).sum

theorem asSecs_le {a b : ℕ} (h : a ≤ b) : asSecs a ≤ asSecs b :=
  div_le_div_of_nonneg_right (Nat.cast_le.mpr h) (by norm_num)

theorem asSecs_le_iff {a b : ℕ} : asSecs a ≤ asSecs b ↔ a ≤ b := by
  refine ⟨fun h => ?_, asSecs_le⟩
  by_contra hlt
  have hcast : (b : ℚ) < a := Nat.cast_lt.mpr (not_le.mp hlt)
  exact absurd h (not_le.mpr (div_lt_div_of_pos_right hcast (by norm_num)))

theorem asSecs_durationSince {earlier later : Instant} (h : earlier ≤ later) :
    asSecs (durationSince later earlier) = asSecs later - asSecs earlier := by
  unfold asSecs durationSince
  rw [Nat.cast_sub h, sub_div]

theorem asSecs_add_fromMillis (now : Instant) (ms : ℕ) :
    asSecs (now + fromMillis ms) = asSecs now + ms / 1000 := by
  unfold asSecs fromMillis
  push_cast
  ring

section

variable {config : RateLimitConfig}

/-- The tokens of a bucket, as a reservoir. -/
def TokenBucket.reservoir (bucket : TokenBucket) : Reservoir ℚ :=
  ⟨bucket.tokens, asSecs bucket.lastRefill⟩

/-- The level that a reservoir for this configuration has. -/
def RateLimitConfig.level (config : RateLimitConfig) (r : Reservoir ℚ) (now : Instant) : ℚ :=
  r.levelAt config.maxTokens.toNat config.refillRate (asSecs now)

/-- A bucket of this configuration, not refilled later than at the time. -/
structure Kept (config : RateLimitConfig) (bucket : TokenBucket) (now : Instant) : Prop where
  maxTokens : bucket.maxTokens = config.maxTokens
  refillRate : bucket.refillRate = config.refillRate
  lastRefill : bucket.lastRefill ≤ now
  tokens : bucket.tokens ≤ config.maxTokens.toNat

/-- Between two times with no inflow it does not matter when the level was read. -/
theorem level_idle {level since since' : ℚ} (h : config.refillRate * (since' - since) = 0)
    (t : Instant) : config.level ⟨level, since⟩ t = config.level ⟨level, since'⟩ t := by
  have heq : config.refillRate * (asSecs t - since) = config.refillRate * (asSecs t - since') := by
    linarith
  simp only [RateLimitConfig.level, Reservoir.levelAt, heq]

variable {bucket : TokenBucket}

/-- A refill reads the level; where it adds nothing, nothing has flown in since. -/
theorem refill_spec (hrate : 0 ≤ config.refillRate) {now : Instant} (h : Kept config bucket now) :
    Kept config (bucket.refill now) now ∧
      (bucket.refill now).tokens = config.level bucket.reservoir now ∧
      config.refillRate * (asSecs now - asSecs (bucket.refill now).lastRefill) = 0 := by
  have helapsed := asSecs_durationSince h.lastRefill
  have hnonneg : 0 ≤ asSecs now - asSecs bucket.lastRefill :=
    sub_nonneg.mpr (asSecs_le h.lastRefill)
  dsimp only [TokenBucket.refill]
  rw [helapsed, h.refillRate, h.maxTokens]
  by_cases hadded : (asSecs now - asSecs bucket.lastRefill) * config.refillRate > 0
  · rw [if_pos hadded]
    refine ⟨⟨rfl, rfl, le_refl now, min_le_right _ _⟩, ?_, ?_⟩
    · simp only [RateLimitConfig.level, Reservoir.levelAt, TokenBucket.reservoir]
      rw [min_comm, mul_comm]
    · rw [sub_self, mul_zero]
  · -- The time of the last refill stays, but from then until now nothing flows in.
    rw [if_neg hadded]
    have hzero : config.refillRate * (asSecs now - asSecs bucket.lastRefill) = 0 := by
      rw [mul_comm]
      exact le_antisymm (not_lt.mp hadded) (mul_nonneg hnonneg hrate)
    refine ⟨h, ?_, hzero⟩
    simp only [RateLimitConfig.level, Reservoir.levelAt, TokenBucket.reservoir]
    rw [hzero, add_zero, min_eq_right h.tokens]

section

variable (hrate : 0 ≤ config.refillRate) {cost : UInt32} {now : Instant}
  (h : Kept config bucket now)

include hrate cost now h

/-- What a bucket has left after a request that is allowed. -/
theorem tryConsume_allowed (hcost : (cost.toNat : ℚ) ≤ config.level bucket.reservoir now) :
    (bucket.tryConsume cost now).2 = .allowed ∧ Kept config (bucket.tryConsume cost now).1 now ∧
      ∀ t, config.level (bucket.tryConsume cost now).1.reservoir t =
        config.level (bucket.reservoir.draw config.maxTokens.toNat config.refillRate
          (asSecs now) cost.toNat) t := by
  rcases refill_spec hrate h with ⟨hkept, htokens, hidle⟩
  unfold TokenBucket.tryConsume
  have hle : (bucket.refill now).tokens ≥ cost.toNat := by
    rw [htokens]
    exact hcost
  have hnonneg : (0 : ℚ) ≤ cost.toNat := Nat.cast_nonneg _
  rw [if_pos hle]
  refine ⟨rfl, ⟨hkept.maxTokens, hkept.refillRate, hkept.lastRefill, ?_⟩, fun t => ?_⟩
  · exact (sub_le_self _ hnonneg).trans hkept.tokens
  · simp only [TokenBucket.reservoir, Reservoir.draw]
    rw [level_idle hidle, htokens]
    rfl

/-- A request that is not allowed only reads the level. -/
theorem tryConsume_limited (hcost : ¬(cost.toNat : ℚ) ≤ config.level bucket.reservoir now) :
    (bucket.tryConsume cost now).2 = .limited (saturateU64 ⌈(if config.refillRate > 0 then
        (cost.toNat - config.level bucket.reservoir now) / config.refillRate else 2 ^ 32 - 1) *
          1000⌉) ∧
      Kept config (bucket.tryConsume cost now).1 now ∧
      ∀ t, now ≤ t → config.level (bucket.tryConsume cost now).1.reservoir t =
        config.level bucket.reservoir t := by
  rcases refill_spec hrate h with ⟨hkept, htokens, hidle⟩
  unfold TokenBucket.tryConsume
  have hnot : ¬(bucket.refill now).tokens ≥ cost.toNat := by
    rw [htokens]
    exact hcost
  rw [if_neg hnot]
  refine ⟨?_, hkept, fun t ht => ?_⟩
  · simp only [TokenBucket.retryAfterMs, htokens, hkept.refillRate]
  · rw [TokenBucket.reservoir, level_idle hidle, htokens]
    exact levelAt_settle hrate bucket.reservoir (asSecs_le ht)

end

end

section

variable {config : RateLimitConfig} {limiter : RateLimiter} {client : String} {r : Reservoir ℚ}
  {now : Instant}

/-- The bucket of a client, also before there is one. -/
def RateLimiter.bucketOf (limiter : RateLimiter) (client : String) (created : Instant) :
    TokenBucket :=
  (limiter.buckets.lookup client).getD (TokenBucket.new limiter.defaultConfig created)

/-- From now on the bucket of the client is as full as the reservoir. -/
structure Fills (config : RateLimitConfig) (limiter : RateLimiter) (client : String)
    (r : Reservoir ℚ) (now : Instant) : Prop where
  default : limiter.defaultConfig = config
  since : r.since ≤ asSecs now
  kept : ∀ later created, now ≤ later → created ≤ later →
    Kept config (limiter.bucketOf client created) later
  level : ∀ later created, now ≤ later → created ≤ later →
    config.level (limiter.bucketOf client created).reservoir later = config.level r later

theorem TokenBucket.kept_new {created : Instant} (h : created ≤ now) :
    Kept config (TokenBucket.new config created) now :=
  ⟨rfl, rfl, h, le_refl _⟩

theorem Kept.later {bucket : TokenBucket} {later : Instant} (h : Kept config bucket now)
    (hle : now ≤ later) : Kept config bucket later :=
  { h with lastRefill := h.lastRefill.trans hle }

/-- A reservoir that starts full is full until something is drawn. -/
theorem level_full (hrate : 0 ≤ config.refillRate) {start : Instant} (h : start ≤ now) :
    config.level ⟨config.maxTokens.toNat, asSecs start⟩ now = config.maxTokens.toNat := by
  have hinflow := mul_nonneg hrate (sub_nonneg.mpr (asSecs_le h))
  exact min_eq_left (le_add_of_nonneg_right hinflow)

theorem fills_new (hrate : 0 ≤ config.refillRate) (client : String) :
    Fills config (RateLimiter.new config) client ⟨config.maxTokens.toNat, asSecs 0⟩ 0 where
  default := rfl
  since := le_refl _
  kept := fun _ _ _ hcreated => TokenBucket.kept_new hcreated
  level := fun later _ _ hcreated =>
    (level_full hrate hcreated).trans (level_full hrate (Nat.zero_le later)).symm

/-- A client with a bucket fills as that bucket does. -/
theorem fills_of_lookup {bucket : TokenBucket} (hconfig : limiter.defaultConfig = config)
    (hlookup : limiter.buckets.lookup client = some bucket) (hkept : Kept config bucket now)
    (hsince : r.since ≤ asSecs now)
    (hlevel : ∀ later, now ≤ later → config.level bucket.reservoir later = config.level r later) :
    Fills config limiter client r now := by
  have hbucket : ∀ created, limiter.bucketOf client created = bucket := by
    intro created
    rw [RateLimiter.bucketOf, hlookup, Option.getD_some]
  refine ⟨hconfig, hsince, fun later created hle _ => ?_, fun later created hle _ => ?_⟩
  · rw [hbucket]
    exact hkept.later hle
  · rw [hbucket]
    exact hlevel later hle

/-- A request of another client leaves the bucket alone. -/
theorem fills_checkWithCost_ne {call : RateCall} (h : Fills config limiter client r now)
    (hne : call.clientId ≠ client) (hle : now ≤ call.now) :
    Fills config (limiter.handle call).1 client r call.now := by
  have hbucket : ∀ created,
      (limiter.handle call).1.bucketOf client created = limiter.bucketOf client created := by
    intro created
    simp only [RateLimiter.bucketOf, RateLimiter.handle, RateLimiter.checkWithCost,
      Finmap.lookup_insert_of_ne _ hne.symm]
  refine ⟨h.default, h.since.trans (asSecs_le hle), fun later created hlater hcreated => ?_,
    fun later created hlater hcreated => ?_⟩
  · rw [hbucket]
    exact h.kept later created (hle.trans hlater) hcreated
  · rw [hbucket]
    exact h.level later created (hle.trans hlater) hcreated

/-- What the answer to a request says. -/
def WaitFor (config : RateLimitConfig) (r : Reservoir ℚ) (call : RateCall) (ms : ℕ) : Prop :=
  ms = saturateU64 ⌈(if config.refillRate > 0 then
    (call.cost.toNat - config.level r call.now) / config.refillRate else 2 ^ 32 - 1) * 1000⌉

/-- A request of the client is allowed if the reservoir has so much, and it is drawn then. -/
theorem fills_checkWithCost_self (hrate : 0 ≤ config.refillRate) {call : RateCall}
    (h : Fills config limiter client r now) (hclient : call.clientId = client)
    (hle : now ≤ call.now) (hcreated : call.created ≤ call.now) :
    ((limiter.handle call).2 = .allowed ∧ (call.cost.toNat : ℚ) ≤ config.level r call.now ∧
      Fills config (limiter.handle call).1 client
        (r.draw config.maxTokens.toNat config.refillRate (asSecs call.now) call.cost.toNat)
        call.now) ∨
    (∃ ms, (limiter.handle call).2 = .limited ms ∧ WaitFor config r call ms ∧
      config.level r call.now < call.cost.toNat ∧
      Fills config (limiter.handle call).1 client r call.now) := by
  subst hclient
  have hkept := h.kept call.now call.created hle hcreated
  have hlevel := h.level call.now call.created hle hcreated
  have hlookup : (limiter.handle call).1.buckets.lookup call.clientId =
      some ((limiter.bucketOf call.clientId call.created).tryConsume call.cost call.now).1 :=
    Finmap.lookup_insert _
  -- The bucket may be a new one, and then it is as full as the reservoir as well.
  by_cases hcost : (call.cost.toNat : ℚ) ≤ config.level r call.now
  · left
    rcases tryConsume_allowed hrate hkept (hlevel ▸ hcost) with ⟨hallowed, hkept', hlevel'⟩
    refine ⟨hallowed, hcost, fills_of_lookup h.default hlookup hkept' (le_refl _) fun later _ => ?_⟩
    have hread : (limiter.bucketOf call.clientId call.created).reservoir.levelAt
        (config.maxTokens.toNat : ℚ) config.refillRate (asSecs call.now) =
          r.levelAt (config.maxTokens.toNat : ℚ) config.refillRate (asSecs call.now) := hlevel
    rw [hlevel' later, Reservoir.draw, Reservoir.draw, hread]
  · right
    have hcost' : ¬(call.cost.toNat : ℚ) ≤
        config.level (limiter.bucketOf call.clientId call.created).reservoir call.now := by
      rw [hlevel]
      exact hcost
    rcases tryConsume_limited hrate hkept hcost' with ⟨hlimited, hkept', hlevel'⟩
    rw [hlevel] at hlimited
    refine ⟨_, hlimited, rfl, not_le.mp hcost, fills_of_lookup h.default hlookup hkept'
      (h.since.trans (asSecs_le hle)) fun later hlater => ?_⟩
    have hcreated' : call.created ≤ later := hcreated.trans hlater
    rw [hlevel' later hlater, h.level later call.created (hle.trans hlater) hcreated']

/-- What the client was allowed, as draws. -/
def drawsOf (client : String) (log : List (RateCall × RateLimitResult)) : List (ℚ × ℚ) :=
  (log.filter fun entry => entry.2 = .allowed ∧ entry.1.clientId = client).map fun entry =>
    (asSecs entry.1.now, (entry.1.cost.toNat : ℚ))

theorem drawsOf_cons_allowed {call : RateCall} (h : call.clientId = client)
    (log : List (RateCall × RateLimitResult)) :
    drawsOf client ((call, .allowed) :: log) =
      (asSecs call.now, (call.cost.toNat : ℚ)) :: drawsOf client log := by
  rw [drawsOf, List.filter_cons, if_pos (decide_eq_true ⟨rfl, h⟩)]
  rfl

theorem drawsOf_cons_of_not {entry : RateCall × RateLimitResult}
    (h : ¬(entry.2 = .allowed ∧ entry.1.clientId = client))
    (log : List (RateCall × RateLimitResult)) :
    drawsOf client (entry :: log) = drawsOf client log := by
  rw [drawsOf, List.filter_cons, if_neg fun hd => h (of_decide_eq_true hd)]
  rfl

theorem allowedCost_cons (first last : Instant) (entry : RateCall × RateLimitResult)
    (log : List (RateCall × RateLimitResult)) :
    allowedCost client first last (entry :: log) =
      (if entry.2 = .allowed ∧ entry.1.clientId = client ∧ first ≤ entry.1.now ∧
        entry.1.now ≤ last then entry.1.cost.toNat else 0) + allowedCost client first last log := by
  unfold allowedCost
  rw [List.filter_cons]
  simp only [decide_eq_true_eq]
  split_ifs
  · rw [List.map_cons, List.sum_cons]
  · rw [zero_add]

theorem cast_allowedCost (first last : Instant) (log : List (RateCall × RateLimitResult)) :
    (allowedCost client first last log : ℚ) =
      drawnIn (asSecs first) (asSecs last) (drawsOf client log) := by
  induction log with
  | nil => rfl
  | cons entry rest ih =>
      rw [allowedCost_cons, Nat.cast_add, ih]
      rcases entry with ⟨call, result⟩
      by_cases hdrawn : result = .allowed ∧ call.clientId = client
      · rcases hdrawn with ⟨rfl, hclient⟩
        rw [drawsOf_cons_allowed hclient, drawnIn_cons]
        simp only [hclient, asSecs_le_iff, true_and, Nat.cast_ite, Nat.cast_zero]
      · have hnone : ¬(result = .allowed ∧ call.clientId = client ∧ first ≤ call.now ∧
            call.now ≤ last) := fun h => hdrawn ⟨h.1, h.2.1⟩
        rw [drawsOf_cons_of_not hdrawn, if_neg hnone, Nat.cast_zero, zero_add]

/-- Requests draw from the reservoir what they are allowed. -/
theorem draws_checked (hrate : 0 ≤ config.refillRate) (calls : List RateCall)
    (h : Fills config limiter client r now) (horder : InOrder now calls) :
    r.Draws (config.maxTokens.toNat : ℚ) config.refillRate
      (drawsOf client (checked limiter calls)) := by
  -- By induction on the requests; the reservoir changes where the client is allowed one.
  induction calls generalizing limiter r now with
  | nil => trivial
  | cons call rest ih =>
      rcases horder with ⟨hle, hcreated, hrest⟩
      rw [checked]
      by_cases hclient : call.clientId = client
      · rcases fills_checkWithCost_self hrate h hclient hle hcreated with
          ⟨hallowed, hcost, hfills⟩ | ⟨ms, hlimited, _, _, hfills⟩
        · rw [hallowed, drawsOf_cons_allowed hclient]
          exact ⟨h.since.trans (asSecs_le hle), Nat.cast_nonneg _, hcost, ih hfills hrest⟩
        · have hnot : ¬((limiter.handle call).2 = .allowed ∧ call.clientId = client) := by
            rw [hlimited]
            exact fun hboth => RateLimitResult.noConfusion hboth.1
          rw [drawsOf_cons_of_not hnot]
          exact ih hfills hrest
      · rw [drawsOf_cons_of_not fun hboth => hclient hboth.2]
        exact ih (fills_checkWithCost_ne h hclient hle) hrest

/-- The state between two parts of a run. Where the client was allowed nothing in the first
    part, the reservoir is the same. -/
theorem fills_checked (hrate : 0 ≤ config.refillRate) (calls : List RateCall)
    {earlier later : List (RateCall × RateLimitResult)} (h : Fills config limiter client r now)
    (horder : InOrder now calls) (hlog : checked limiter calls = earlier ++ later) :
    ∃ limiter' r' now' calls', Fills config limiter' client r' now' ∧ InOrder now' calls' ∧
      checked limiter' calls' = later ∧
      ((∀ entry ∈ earlier, entry.1.clientId = client → entry.2 ≠ .allowed) → r' = r) := by
  induction earlier generalizing limiter r now calls with
  | nil => exact ⟨limiter, r, now, calls, h, horder, hlog, fun _ => rfl⟩
  | cons entry earlier ih =>
      cases calls with
      | nil => cases hlog
      | cons call rest =>
          rcases horder with ⟨hle, hcreated, hrest⟩
          rw [checked, List.cons_append, List.cons.injEq] at hlog
          rcases hlog with ⟨rfl, hlog⟩
          by_cases hclient : call.clientId = client
          · rcases fills_checkWithCost_self hrate h hclient hle hcreated with
              ⟨hallowed, _, hfills⟩ | ⟨_, _, _, _, hfills⟩
            · rcases ih rest hfills hrest hlog with ⟨limiter', r', now', calls', hf, ho, hl, _⟩
              refine ⟨limiter', r', now', calls', hf, ho, hl, fun hnone => ?_⟩
              exact absurd hallowed (hnone _ List.mem_cons_self hclient)
            · rcases ih rest hfills hrest hlog with ⟨limiter', r', now', calls', hf, ho, hl, hsame⟩
              exact ⟨limiter', r', now', calls', hf, ho, hl,
                fun hnone => hsame fun e he => hnone e (List.mem_cons_of_mem _ he)⟩
          · rcases ih rest (fills_checkWithCost_ne h hclient hle) hrest hlog with
              ⟨limiter', r', now', calls', hf, ho, hl, hsame⟩
            exact ⟨limiter', r', now', calls', hf, ho, hl,
              fun hnone => hsame fun e he => hnone e (List.mem_cons_of_mem _ he)⟩

theorem checked_eq_cons {calls : List RateCall} {call : RateCall} {result : RateLimitResult}
    {log : List (RateCall × RateLimitResult)} (h : checked limiter calls = (call, result) :: log) :
    ∃ rest, calls = call :: rest ∧ (limiter.handle call).2 = result ∧
      checked (limiter.handle call).1 rest = log := by
  cases calls with
  | nil => cases h
  | cons first rest =>
      rw [checked, List.cons.injEq, Prod.mk.injEq] at h
      rcases h with ⟨⟨rfl, hresult⟩, hlog⟩
      exact ⟨rest, rfl, hresult, hlog⟩

/-- Where tokens flow in and the number can tell the wait, the tokens that a request lacks are
    there when it has waited. -/
theorem level_after_wait (hrate : 0 < config.refillRate) {call : RateCall} {ms : ℕ}
    (hcost : call.cost ≤ config.maxTokens) (hlack : config.level r call.now < call.cost.toNat)
    (hwait : WaitFor config r call ms) (hms : ms < 2 ^ 64 - 1) :
    (call.cost.toNat : ℚ) ≤ config.level r (call.now + fromMillis ms) := by
  have hcap : (call.cost.toNat : ℚ) ≤ config.maxTokens.toNat :=
    Nat.cast_le.mpr (UInt32.le_iff_toNat_le.mp hcost)
  -- The request lacks tokens, so the bucket was not full and its level was not capped.
  have hread : config.level r call.now =
      r.level + config.refillRate * (asSecs call.now - r.since) := by
    refine min_eq_right (le_of_not_ge fun hge => ?_)
    have hfull : config.level r call.now = config.maxTokens.toNat := min_eq_left hge
    linarith
  rw [WaitFor, if_pos hrate, saturateU64] at hwait
  have hfloor : ms = ⌊((⌈(call.cost.toNat - config.level r call.now) / config.refillRate * 1000⌉ :
      ℤ) : ℚ)⌋₊ := by
    omega
  -- The wait was rounded up.
  have hlong : (call.cost.toNat - config.level r call.now) / config.refillRate * 1000 ≤ ms := by
    have hceil := Int.le_ceil
      ((call.cost.toNat - config.level r call.now) / config.refillRate * 1000)
    rw [hfloor, ← Int.floor_toNat, Int.floor_intCast]
    refine hceil.trans ?_
    exact_mod_cast Int.self_le_toNat _
  have hflow : call.cost.toNat - config.level r call.now ≤ config.refillRate * (ms / 1000) := by
    have hdiv : (call.cost.toNat - config.level r call.now) / config.refillRate ≤ ms / 1000 := by
      linarith
    rw [div_le_iff₀ hrate] at hdiv
    linarith
  refine le_min hcap ?_
  rw [asSecs_add_fromMillis]
  linarith

/-- A request was told to wait and was repeated after that, and the client was allowed nothing
    in between. -/
def Retried (config : RateLimitConfig) (client : String)
    (log : List (RateCall × RateLimitResult)) (ms : ℕ) (result : RateLimitResult) : Prop :=
  ∃ earlier request between again later,
    log = earlier ++ (request, .limited ms) :: (between ++ (again, result) :: later) ∧
    request.clientId = client ∧ request.cost ≤ config.maxTokens ∧
    again.clientId = client ∧ again.cost = request.cost ∧
    again.now = request.now + fromMillis ms ∧
    ∀ entry ∈ between, entry.1.clientId = client → entry.2 ≠ .allowed

theorem retried_allowed (hrate : 0 < config.refillRate) (calls : List RateCall)
    (h : Fills config limiter client r now) (horder : InOrder now calls) {ms : ℕ}
    {result : RateLimitResult} (hms : ms < 2 ^ 64 - 1)
    (hretried : Retried config client (checked limiter calls) ms result) : result = .allowed := by
  rcases hretried with ⟨earlier, request, between, again, later, hlog, hclient, hcost, hclient',
    hcost', hnow, hnone⟩
  rcases fills_checked hrate.le calls h horder hlog with
    ⟨limiter₁, r₁, now₁, calls₁, h₁, ho₁, hl₁, _⟩
  rcases checked_eq_cons hl₁ with ⟨rest₁, rfl, hresult, hl₂⟩
  rcases ho₁ with ⟨hle, hcreated, ho₂⟩
  rcases fills_checkWithCost_self hrate.le h₁ hclient hle hcreated with
    ⟨hallowed, _, _⟩ | ⟨ms', hlimited, hwait, hlack, h₂⟩
  · rw [hallowed] at hresult
    cases hresult
  · rw [hlimited, RateLimitResult.limited.injEq] at hresult
    subst hresult
    -- Nothing was drawn in between, so it is the same reservoir that is asked again.
    rcases fills_checked hrate.le rest₁ h₂ ho₂ hl₂ with
      ⟨limiter₃, r₃, now₃, calls₃, h₃, ho₃, hl₃, hsame⟩
    rw [hsame hnone] at h₃
    rcases checked_eq_cons hl₃ with ⟨rest₃, rfl, hresult', _⟩
    rcases fills_checkWithCost_self hrate.le h₃ hclient' ho₃.1 ho₃.2.1 with
      ⟨hallowed, _, _⟩ | ⟨_, _, _, hlack', _⟩
    · rw [← hresult', hallowed]
    · have henough := level_after_wait hrate hcost hlack hwait hms
      rw [hnow, hcost'] at hlack'
      exact absurd henough (not_le.mpr hlack')

/-- Requests that were told to wait are allowed afterwards, in every run. -/
def RetriesAllowed (config : RateLimitConfig) : Prop :=
  ∀ calls client, InOrder 0 calls → ∀ ms result,
    Retried config client (checked (RateLimiter.new config) calls) ms result → result = .allowed

/-- Without inflow a wait is never enough, and with very little it is longer than can be told. -/
theorem not_retriesAllowed : ¬RetriesAllowed ⟨1, 0, 0⟩ ∧ ¬RetriesAllowed ⟨1, 1 / 10 ^ 30, 0⟩ := by
  have hone : (1 : UInt32) ≤ 1 := by decide
  refine ⟨fun h => ?_, fun h => ?_⟩
  · let call : RateCall := ⟨"sim", 1, 0, 0⟩
    let again : RateCall := ⟨"sim", 1, 0, fromMillis 4294967295000⟩
    have hlog : checked (RateLimiter.new ⟨1, 0, 0⟩) [call, call, again] =
        [(call, .allowed), (call, .limited 4294967295000), (again, .limited 4294967295000)] := by
      decide +kernel
    have hallowed := h [call, call, again] "sim" (by decide) 4294967295000 (.limited 4294967295000)
      (hlog ▸ ⟨[(call, .allowed)], call, [], again, [], rfl, rfl, hone, rfl, rfl, by decide,
        fun _ hmem => by cases hmem⟩)
    cases hallowed
  · let call : RateCall := ⟨"sim", 1, 0, 0⟩
    let again : RateCall := ⟨"sim", 1, 0, fromMillis (2 ^ 64 - 1)⟩
    have hlog : checked (RateLimiter.new ⟨1, 1 / 10 ^ 30, 0⟩) [call, call, again] =
        [(call, .allowed), (call, .limited (2 ^ 64 - 1)), (again, .limited (2 ^ 64 - 1))] := by
      decide +kernel
    have hallowed := h [call, call, again] "sim" (by decide) (2 ^ 64 - 1) (.limited (2 ^ 64 - 1))
      (hlog ▸ ⟨[(call, .allowed)], call, [], again, [], rfl, rfl, hone, rfl, rfl, by decide,
        fun _ hmem => by cases hmem⟩)
    cases hallowed

/-- In every interval a client is allowed no more than a full bucket and what flows in. A
    request that was told to wait is allowed afterwards, where tokens flow in and the wait was
    not too long to tell. -/
theorem token_budget (config : RateLimitConfig) (hrate : 0 ≤ config.refillRate)
    (calls : List RateCall) (horder : InOrder 0 calls) (client : String) :
    (∀ first last, first ≤ last →
      (allowedCost client first last (checked (RateLimiter.new config) calls) : ℚ) ≤
        config.maxTokens.toNat + config.refillRate * asSecs (last - first)) ∧
    (0 < config.refillRate → ∀ ms result, ms < 2 ^ 64 - 1 →
      Retried config client (checked (RateLimiter.new config) calls) ms result →
        result = .allowed) := by
  have hfills := fills_new hrate client
  refine ⟨fun first last hle => ?_, fun hpos ms result hms hretried => ?_⟩
  · have hbound := drawnIn_le (Nat.cast_nonneg _) hrate (asSecs_le hle) _ _
      (draws_checked hrate calls hfills horder)
    have hlength : asSecs (last - first) = asSecs last - asSecs first := asSecs_durationSince hle
    rw [cast_allowedCost, hlength]
    exact hbound
  · exact retried_allowed hpos calls hfills horder hms hretried

/-- Ten tokens and ten a second: eleven at once are too many, and after the wait there is one. -/
theorem token_budget_burst :
    let config : RateLimitConfig := ⟨10, 10, fromMillis 100⟩
    let burst : RateCall := ⟨"sim", 10, 0, 5⟩
    let more : RateCall := ⟨"sim", 1, 5, 5⟩
    let again : RateCall := ⟨"sim", 1, 5, 5 + fromMillis 100⟩
    checked (RateLimiter.new config) [burst, more, again] =
        [(burst, .allowed), (more, .limited 100), (again, .allowed)] ∧
      (allowedCost "sim" 5 5 (checked (RateLimiter.new config) [burst, more, again]) : ℚ) ≤ 10 ∧
      ∀ result, Retried config "sim" (checked (RateLimiter.new config) [burst, more, again]) 100
        result → result = .allowed := by
  intro config burst more again
  have hbudget := token_budget config (by norm_num [config]) [burst, more, again] (by decide) "sim"
  refine ⟨by decide +kernel, ?_, fun result hretried => ?_⟩
  · have hbound := hbudget.1 5 5 (le_refl _)
    have hnow : asSecs (5 - 5) = 0 := by norm_num [asSecs]
    rw [hnow, mul_zero, add_zero] at hbound
    exact hbound
  · exact hbudget.2 (by norm_num [config]) 100 result (by norm_num) hretried

end

section

inductive LimiterCall
  | checkWithCost (call : RateCall)
  | configureClient (clientId : String) (config : RateLimitConfig) (now : Instant)
  | removeClient (clientId : String)
  | remainingTokens (clientId : String)
  | reset

/-- What a call returns, if anything. -/
inductive LimiterAnswer
  | none
  | result (result : RateLimitResult)
  | tokens (tokens : Option ℕ)

/-- A call that names the client, or all of them. -/
def LimiterCall.concerns (client : String) : LimiterCall → Bool
  | .checkWithCost call => call.clientId == client
  | .configureClient clientId _ _ => clientId == client
  | .removeClient clientId => clientId == client
  | .remainingTokens clientId => clientId == client
  | .reset => true

def RateLimiter.perform (limiter : RateLimiter) : LimiterCall → RateLimiter × LimiterAnswer
  | .checkWithCost call => ((limiter.handle call).1, .result (limiter.handle call).2)
  | .configureClient clientId config now => (limiter.configureClient clientId config now, .none)
  | .removeClient clientId => (limiter.removeClient clientId, .none)
  | .remainingTokens clientId => (limiter, .tokens (limiter.remainingTokens clientId))
  | .reset => (limiter.reset, .none)

/-- Calls and what they return. -/
def performed : RateLimiter → List LimiterCall → List (LimiterCall × LimiterAnswer)
  | _, [] => []
  | limiter, call :: rest =>
      (call, (limiter.perform call).2) :: performed (limiter.perform call).1 rest

/-- A client cannot tell two limiters apart. -/
def AgreeFor (client : String) (limiter alone : RateLimiter) : Prop :=
  limiter.defaultConfig = alone.defaultConfig ∧
    limiter.buckets.lookup client = alone.buckets.lookup client

variable {client : String} {limiter alone : RateLimiter} {call : LimiterCall}

section

variable (h : AgreeFor client limiter alone)

include h

/-- A call that concerns the client does the same to both. -/
theorem agreeFor_perform (hcall : call.concerns client) :
    AgreeFor client (limiter.perform call).1 (alone.perform call).1 ∧
      (limiter.perform call).2 = (alone.perform call).2 := by
  rcases h with ⟨hconfig, hbucket⟩
  cases call with
  | reset => exact ⟨⟨hconfig, rfl⟩, rfl⟩
  | checkWithCost call =>
      cases beq_iff_eq.mp hcall
      simp only [AgreeFor, RateLimiter.perform, RateLimiter.handle, RateLimiter.checkWithCost,
        hconfig, hbucket, Finmap.lookup_insert, and_self]
  | configureClient clientId config now =>
      cases beq_iff_eq.mp hcall
      simp only [AgreeFor, RateLimiter.perform, RateLimiter.configureClient, hconfig,
        Finmap.lookup_insert, and_self]
  | removeClient clientId =>
      cases beq_iff_eq.mp hcall
      simp only [AgreeFor, RateLimiter.perform, RateLimiter.removeClient, hconfig,
        Finmap.lookup_erase, and_self]
  | remainingTokens clientId =>
      cases beq_iff_eq.mp hcall
      simp only [AgreeFor, RateLimiter.perform, RateLimiter.remainingTokens, hconfig, hbucket,
        and_self]

/-- Any other call leaves the client's bucket alone. -/
theorem agreeFor_perform_left (hcall : ¬ call.concerns client) :
    AgreeFor client (limiter.perform call).1 alone := by
  rcases h with ⟨hconfig, hbucket⟩
  cases call with
  | checkWithCost call =>
      have hne : client ≠ call.clientId := fun heq => hcall (beq_iff_eq.mpr heq.symm)
      exact ⟨hconfig, (Finmap.lookup_insert_of_ne _ hne).trans hbucket⟩
  | configureClient clientId config now =>
      have hne : client ≠ clientId := fun heq => hcall (beq_iff_eq.mpr heq.symm)
      exact ⟨hconfig, (Finmap.lookup_insert_of_ne _ hne).trans hbucket⟩
  | removeClient clientId =>
      have hne : client ≠ clientId := fun heq => hcall (beq_iff_eq.mpr heq.symm)
      exact ⟨hconfig, (Finmap.lookup_erase_ne hne).trans hbucket⟩
  | remainingTokens clientId => exact ⟨hconfig, hbucket⟩
  | reset => exact absurd rfl hcall

theorem filter_performed (calls : List LimiterCall) :
    (performed limiter calls).filter (fun entry => entry.1.concerns client) =
      performed alone (calls.filter fun call => call.concerns client) := by
  induction calls generalizing limiter alone with
  | nil => rfl
  | cons call rest ih =>
      rw [performed]
      by_cases hcall : call.concerns client
      · rcases agreeFor_perform h hcall with ⟨hagree, hanswer⟩
        simp only [List.filter_cons, hcall, if_true, performed, hanswer, ih hagree]
      · simp [hcall, ih (agreeFor_perform_left h hcall)]

end

/-- In every run a client is told what it would be told without the calls about others. -/
theorem clients_apart (config : RateLimitConfig) (calls : List LimiterCall) (client : String) :
    (performed (RateLimiter.new config) calls).filter (fun entry => entry.1.concerns client) =
      performed (RateLimiter.new config) (calls.filter fun call => call.concerns client) :=
  filter_performed ⟨rfl, rfl⟩ calls

end

end OpenFlight.Ipc
