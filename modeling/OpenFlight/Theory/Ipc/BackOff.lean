import OpenFlight.Core.Ipc.RateLimiter

/-!
# Exponential Back-off

The delay of an attempt is the base delay doubled as often as the attempt says,
up to the largest delay, and the delays of a loop grow. Both hold as long as the
number of the attempt fits in the five bits that the shift looks at.

From the thirty-third attempt on the factor starts over from one. That makes no
difference when there is nothing to double, or when the largest delay is reached
with the bits that are left.

## Main definitions

* `Doubles`, `Grows`: What the policy and its loop should do.

## Theorems

* `backOff_iff`: Both laws, with the exact conditions.
-/

namespace OpenFlight.Ipc

variable {ε α : Type}

/-- The base delay times a power of two, within the bounds. -/
def RetryPolicy.doubled (self : RetryPolicy) (attempt : Nat) : Duration :=
  min (min (self.baseDelay * 2 ^ attempt) durationMax) self.maxDelay

section

/-- The factor of an attempt. -/
theorem toNat_wrappingShl (attempt : UInt32) :
    (wrappingShl 1 attempt).toNat = 2 ^ (attempt.toNat % 32) := by
  have hmod : (attempt % 32).toNat = attempt.toNat % 32 := UInt32.toNat_mod attempt 32
  have hlt : attempt.toNat % 32 < 32 := Nat.mod_lt _ (by decide)
  have hpow : 2 ^ (attempt.toNat % 32) < 2 ^ 32 := Nat.pow_lt_pow_right (by decide) hlt
  rw [wrappingShl, UInt32.toNat_shiftLeft, hmod, Nat.mod_eq_of_lt hlt, UInt32.toNat_one,
    Nat.one_shiftLeft, Nat.mod_eq_of_lt hpow]

variable (self : RetryPolicy)

/-- The bound of `Duration` is above every largest delay, and drops out. -/
theorem min_durationMax (d : Duration) :
    min (min d durationMax) self.maxDelay = min d self.maxDelay := by
  rw [min_assoc, min_eq_right self.maxDelay_le]

theorem delayFor_eq (attempt : UInt32) :
    self.delayFor attempt = self.doubled (attempt.toNat % 32) := by
  rw [RetryPolicy.delayFor, saturatingMul, toNat_wrappingShl, RetryPolicy.doubled]

theorem doubled_mono {n m : Nat} (h : n ≤ m) : self.doubled n ≤ self.doubled m := by
  have hpow : 2 ^ n ≤ 2 ^ m := Nat.pow_le_pow_right (by decide) h
  rw [RetryPolicy.doubled, RetryPolicy.doubled, min_durationMax, min_durationMax]
  exact min_le_min_right _ (Nat.mul_le_mul_left _ hpow)

/-- Two delays are the same when the same number is doubled, when there is nothing
    to double, or when the smaller one is at the limit. -/
theorem doubled_eq_iff {n m : Nat} (h : n < m) : self.doubled n = self.doubled m ↔
      self.baseDelay = 0 ∨ self.maxDelay ≤ self.baseDelay * 2 ^ n := by
  rw [RetryPolicy.doubled, RetryPolicy.doubled, min_durationMax, min_durationMax]
  have hpow : 2 ^ n < 2 ^ m := Nat.pow_lt_pow_right (by decide) h
  have hle : self.baseDelay * 2 ^ n ≤ self.baseDelay * 2 ^ m := Nat.mul_le_mul_left _ hpow.le
  constructor
  · intro heq
    by_contra hnot
    rw [not_or, not_le] at hnot
    have hlt : self.baseDelay * 2 ^ n < self.baseDelay * 2 ^ m :=
      Nat.mul_lt_mul_of_pos_left hpow (Nat.pos_of_ne_zero hnot.1)
    rw [min_eq_left hnot.2.le] at heq
    exact absurd heq (Nat.ne_of_lt (lt_min hlt hnot.2))
  · rintro (hzero | hlimit)
    · rw [hzero, Nat.zero_mul, Nat.zero_mul]
    · rw [min_eq_right hlimit, min_eq_right (hlimit.trans hle)]

/-- When the delay is the doubled one. -/
theorem delayFor_eq_doubled_iff (attempt : UInt32) :
    self.delayFor attempt = self.doubled attempt.toNat ↔
      attempt < 32 ∨ self.baseDelay = 0 ∨
        self.maxDelay ≤ self.baseDelay * 2 ^ (attempt.toNat % 32) := by
  rw [delayFor_eq]
  by_cases hsmall : attempt.toNat < 32
  · rw [Nat.mod_eq_of_lt hsmall]
    exact iff_of_true rfl (Or.inl (UInt32.lt_iff_toNat_lt.mpr hsmall))
  · have hlt : attempt.toNat % 32 < attempt.toNat := by omega
    have hnot : ¬ attempt < 32 := fun h => hsmall (UInt32.lt_iff_toNat_lt.mp h)
    rw [doubled_eq_iff self hlt, or_iff_right hnot]

end

section

/-- The delays before the attempts that follow the first ones. -/
def RetryPolicy.delays (self : RetryPolicy) (attempt n : Nat) : List Duration :=
  (List.range' attempt n).map fun i => self.delayFor (UInt32.ofNat i)

variable (self : RetryPolicy)

/-- A loop sleeps the delays of its attempts in turn, until one succeeds. -/
theorem slept_retryFrom (f : Nat → Except ε α) (attempt left : Nat) :
    (self.retryFrom f attempt left).2 <+: self.delays attempt left := by
  induction left generalizing attempt with
  | zero => exact List.nil_prefix
  | succ left ih =>
      rw [RetryPolicy.retryFrom]
      cases f attempt with
      | ok value => exact List.nil_prefix
      | error e =>
          rw [RetryPolicy.delays, List.range'_succ, List.map_cons]
          exact List.prefix_cons_iff.mpr (Or.inr ⟨_, rfl, ih (attempt + 1)⟩)

/-- When every attempt fails, it sleeps all of them. -/
theorem slept_retryFrom_error (e : ε) (attempt left : Nat) :
    (self.retryFrom (fun _ => (.error e : Except ε α)) attempt left).2 =
      self.delays attempt left := by
  induction left generalizing attempt with
  | zero => rfl
  | succ left ih =>
      rw [RetryPolicy.retryFrom, RetryPolicy.delays, List.range'_succ, List.map_cons]
      exact congrArg _ (ih (attempt + 1))

/-- What a loop sleeps. -/
theorem slept_retry (f : Nat → Except ε α) :
    (self.retry f).2 <+: self.delays 0 self.maxRetries.toNat :=
  slept_retryFrom self f 0 _

/-- The loop ends with its first success, or with the last attempt it has. -/
theorem retryFrom_stops (f : Nat → Except ε α) (attempt left : Nat) :
    ∃ i ≤ left, (∀ j < i, ∃ e, f (attempt + j) = .error e) ∧
      (i < left → ∃ value, f (attempt + i) = .ok value) ∧
      self.retryFrom f attempt left = (f (attempt + i), self.delays attempt i) := by
  induction left generalizing attempt with
  | zero => exact ⟨0, le_rfl, nofun, nofun, rfl⟩
  | succ left ih =>
      rw [RetryPolicy.retryFrom]
      cases hf : f attempt with
      | ok value => exact ⟨0, Nat.zero_le _, nofun, fun _ => ⟨value, hf⟩, Prod.ext hf.symm rfl⟩
      | error e =>
          rcases ih (attempt + 1) with ⟨i, hi, hbefore, hlast, heq⟩
          simp only [Nat.add_right_comm attempt 1] at hbefore hlast heq
          refine ⟨i + 1, Nat.succ_le_succ hi, fun j hj => ?_, fun h => hlast (by omega), ?_⟩
          · cases j with
            | zero => exact ⟨e, hf⟩
            | succ j => exact hbefore j (by omega)
          · rw [heq, RetryPolicy.delays, RetryPolicy.delays, List.range'_succ, List.map_cons]
            rfl

/-- `retry` returns what its first success returns, or its last attempt, and sleeps the delays
    of the attempts before that one and no other. -/
theorem retry_stops (f : Nat → Except ε α) :
    ∃ i ≤ self.maxRetries.toNat, (∀ j < i, ∃ e, f j = .error e) ∧
      (i < self.maxRetries.toNat → ∃ value, f i = .ok value) ∧
      self.retry f = (f i, self.delays 0 i) := by
  have h := retryFrom_stops self f 0 self.maxRetries.toNat
  simp only [Nat.zero_add] at h
  exact h

/-- The delays of a list of attempts, by their numbers. -/
theorem delays_grow_iff (n : Nat) : (self.delays 0 n).Pairwise (· ≤ ·) ↔ ∀ i j, i < j → j < n →
        self.delayFor (UInt32.ofNat i) ≤ self.delayFor (UInt32.ofNat j) := by
  rw [RetryPolicy.delays, List.pairwise_map, List.pairwise_iff_getElem]
  simp only [List.length_range', List.getElem_range', Nat.zero_add, Nat.one_mul]
  exact ⟨fun h i j hij hj => h i j (hij.trans hj) hj hij, fun h i j _ hj hij => h i j hij hj⟩

end

/-- The delay of every attempt is the doubled one. -/
def Doubles (self : RetryPolicy) (attempt : UInt32) : Prop :=
  self.delayFor attempt = self.doubled attempt.toNat

/-- In every loop the delays do not decrease. -/
def Grows (ε α : Type) (self : RetryPolicy) : Prop :=
  ∀ f : Nat → Except ε α, (self.retry f).2.Pairwise (· ≤ ·)

theorem grows_iff [Inhabited ε] (self : RetryPolicy) : Grows ε α self ↔
      self.maxRetries ≤ 32 ∨ self.baseDelay = 0 ∨ self.maxDelay ≤ self.baseDelay := by
  have hrepresented : ∀ i < self.maxRetries.toNat, (UInt32.ofNat i).toNat = i := by
    intro i hi
    exact UInt32.toNat_ofNat_of_lt' (hi.trans self.maxRetries.toNat_lt)
  constructor
  · intro hgrows
    by_contra hnot
    rw [not_or, not_or, UInt32.le_iff_toNat_le, not_le, not_le] at hnot
    have hmany : 32 < self.maxRetries.toNat := hnot.1
    rcases hnot.2 with ⟨hbase, hlimit⟩
    -- A loop whose attempts all fail starts over with its thirty-third delay.
    have hall := hgrows fun _ => .error default
    rw [RetryPolicy.retry, slept_retryFrom_error, delays_grow_iff] at hall
    have hagain := hall 1 32 (by decide) hmany
    rw [delayFor_eq, delayFor_eq, hrepresented 1 (by omega), hrepresented 32 hmany] at hagain
    have hsame : self.doubled 0 = self.doubled 1 :=
      Nat.le_antisymm (doubled_mono self (Nat.zero_le 1)) hagain
    rcases (doubled_eq_iff self Nat.zero_lt_one).mp hsame with hzero | hle
    · exact hbase hzero
    · rw [pow_zero, Nat.mul_one] at hle
      exact absurd hle (Nat.not_le_of_lt hlimit)
  · intro hcond f
    refine List.Pairwise.sublist (slept_retry self f).sublist ((delays_grow_iff self _).mpr ?_)
    intro i j hij hj
    rw [delayFor_eq, delayFor_eq, hrepresented i (hij.trans hj), hrepresented j hj]
    rcases hcond with hfew | hflat
    · -- No attempt of the loop is beyond the bits of the shift.
      have hfew' : self.maxRetries.toNat ≤ 32 := UInt32.le_iff_toNat_le.mp hfew
      rw [Nat.mod_eq_of_lt (show i < 32 by omega), Nat.mod_eq_of_lt (show j < 32 by omega)]
      exact doubled_mono self hij.le
    · -- All delays are the first one.
      have hconst : ∀ k, self.doubled k = self.doubled 0 := by
        intro k
        rcases Nat.eq_zero_or_pos k with rfl | hpos
        · rfl
        · refine ((doubled_eq_iff self hpos).mpr ?_).symm
          rwa [pow_zero, Nat.mul_one]
      rw [hconst (i % 32), hconst (j % 32)]

/-- Delays double exactly up to the bits of the shift, and so they grow exactly in
    loops that end there, unless there is nothing to double. -/
theorem backOff_iff [Inhabited ε] (self : RetryPolicy) : (∀ attempt, Doubles self attempt ↔
      attempt < 32 ∨ self.baseDelay = 0 ∨
        self.maxDelay ≤ self.baseDelay * 2 ^ (attempt.toNat % 32)) ∧
    (Grows ε α self ↔
      self.maxRetries ≤ 32 ∨ self.baseDelay = 0 ∨ self.maxDelay ≤ self.baseDelay) :=
  ⟨delayFor_eq_doubled_iff self, grows_iff self⟩

/-- Thirty-three retries with the default delays of 100 ms and 5 s. -/
def manyRetries : RetryPolicy where
  maxRetries := 33
  baseDelay := fromMillis 100
  maxDelay := fromSecs 5
  baseDelay_le := by decide
  maxDelay_le := by decide

/-- After the thirty-second retry the wait falls from five seconds to a tenth of one. -/
theorem delay_falls_back :
    manyRetries.delayFor 31 = fromSecs 5 ∧ manyRetries.delayFor 32 = fromMillis 100 ∧
      ¬ Doubles manyRetries 32 ∧ ¬ Grows Unit Unit manyRetries := by
  refine ⟨by decide, by decide, by unfold Doubles; decide, fun h => ?_⟩
  exact absurd (h fun _ => .error ()) (by decide)

end OpenFlight.Ipc
