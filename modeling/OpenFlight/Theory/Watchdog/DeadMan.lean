import OpenFlight.Core.Watchdog.DeadMan
import OpenFlight.Lib.Run

/-!
# A Triggered Switch

When the dead-man's switch stays triggered until the next tick or reset.

The time since the last tick only grows, so a count of intervals that has
reached the threshold stays there. What a check compares is that count cut to
32 bits, which starts again at zero after `2 ^ 32` intervals: a check that
falls into one of the stretches where the cut count is below the threshold
finds the engine late or alive. `CutShort` is that stretch.

The input of a step is a call and the time since the call before it, so the
instants of a run never go back.

## Main definitions

* `Watched`, `watchedStep`: The switch, the time, and whether it has triggered.
* `StaysTriggered`: What a check owes.

## Theorems

* `stays_triggered_iff`: The switch stays triggered exactly outside `CutShort`.
* `triggered_switch_recovers`: A run in which it does not.
-/

namespace OpenFlight.Watchdog

/-- The switch at an instant, and whether a check has returned `triggered`
    since the last tick or reset. -/
structure Watched where
  switch : DeadManSwitch
  now : Instant
  triggered : Bool

/-- A switch that is new at an instant. -/
def Watched.new (config : DeadManSwitchConfig) (now : Instant) : Watched :=
  { switch := .new config now
    now := now
    triggered := false }

/-- One call, the given time after the one before it. -/
def watchedStep (w : Watched) (call : DeadManOp × Duration) : Watched :=
  let now := w.now + call.2
  let result := deadManStep w.switch call.1 now
  { switch := result.1
    now := now
    triggered :=
      match result.2 with
      | some status => w.triggered || status.isTriggered
      | none => false }

/-- A check of a switch that has triggered returns `triggered` again. -/
def StaysTriggered (w : Watched) (call : DeadManOp × Duration) : Prop :=
  w.triggered = true → call.1 = .check →
    (w.switch.check (w.now + call.2)).2.isTriggered = true

/-- The intervals since the last tick do not fit 32 bits, and what is left of
    their number is below the threshold. -/
def CutShort (switch : DeadManSwitch) (now : Instant) : Prop :=
  2 ^ 32 ≤ switch.missedIntervals now ∧
    switch.missedIntervals now % 2 ^ 32 < switch.config.missedIntervalsThreshold.toNat

/-- A switch that has triggered has missed as many intervals as the threshold asks for. -/
def Overdue (w : Watched) : Prop :=
  w.triggered = true →
    w.switch.config.missedIntervalsThreshold.toNat ≤ w.switch.missedIntervals w.now

namespace DeadManSwitch

variable (switch : DeadManSwitch) (now : Instant)

@[simp]
theorem check_config : (switch.check now).1.config = switch.config := by
  dsimp only [check]
  split_ifs <;> rfl

@[simp]
theorem check_lastTick : (switch.check now).1.lastTick = switch.lastTick := by
  dsimp only [check]
  split_ifs <;> rfl

theorem missedTicks_toNat : (switch.missedTicks now).toNat = switch.missedIntervals now % 2 ^ 32 :=
  UInt32.toNat_ofNat'

/-- A check goes by what is left of the count. -/
theorem check_isTriggered : (switch.check now).2.isTriggered = true ↔
      switch.config.missedIntervalsThreshold.toNat ≤ switch.missedIntervals now % 2 ^ 32 := by
  rw [← missedTicks_toNat, ← UInt32.le_iff_toNat_le]
  dsimp only [check]
  split_ifs with hreached hlate
  · exact ⟨fun _ => hreached, fun _ => rfl⟩
  · exact ⟨fun h => absurd h Bool.false_ne_true, fun h => absurd h hreached⟩
  · exact ⟨fun h => absurd h Bool.false_ne_true, fun h => absurd h hreached⟩

theorem missedIntervals_mono (earlier later : Instant) (h : earlier ≤ later) :
    switch.missedIntervals earlier ≤ switch.missedIntervals later :=
  Nat.div_le_div_right (Nat.sub_le_sub_right h _)

/-- The count depends on the interval and on the last tick alone. -/
theorem missedIntervals_check (later : Instant) :
    (switch.check now).1.missedIntervals later = switch.missedIntervals later := by
  unfold missedIntervals
  rw [check_lastTick, check_config]

end DeadManSwitch

/-- Every call keeps `Overdue`: a check leaves the last tick where it is, and
    anything else starts over. -/
theorem overdue_step (w : Watched) (call : DeadManOp × Duration) (h : Overdue w) :
    Overdue (watchedStep w call) := by
  rcases call with ⟨op, delay⟩
  cases op with
  | tick => exact fun htriggered => absurd htriggered Bool.false_ne_true
  | reset => exact fun htriggered => absurd htriggered Bool.false_ne_true
  | check =>
      intro htriggered
      change (w.switch.check (w.now + delay)).1.config.missedIntervalsThreshold.toNat
        ≤ (w.switch.check (w.now + delay)).1.missedIntervals (w.now + delay)
      rw [DeadManSwitch.check_config, DeadManSwitch.missedIntervals_check]
      rcases Bool.or_eq_true_iff.mp htriggered with hbefore | hnow
      · -- It had triggered before, and the count has not gone down since.
        exact (h hbefore).trans (w.switch.missedIntervals_mono _ _ (Nat.le_add_right _ _))
      · exact ((w.switch.check_isTriggered _).mp hnow).trans (Nat.mod_le _ _)

/-- Nothing is cut short before `2 ^ 32` intervals have passed. -/
theorem not_cutShort_of_lt (switch : DeadManSwitch) (now : Instant)
    (h : durationSince now switch.lastTick < 2 ^ 32 * max switch.config.expectedInterval 1) :
    ¬ CutShort switch now := by
  intro hcut
  have hfits : switch.missedIntervals now < 2 ^ 32 :=
    (Nat.div_lt_iff_lt_mul (lt_max_of_lt_right Nat.one_pos)).mpr h
  exact absurd hcut.1 (Nat.not_le.mpr hfits)

-- With the default interval of 4 ms that takes more than 198 days.
example (now : Instant) (h : now < fromSecs (198 * 24 * 60 * 60)) :
    ¬ CutShort (.new .standard 0) now := by
  refine not_cutShort_of_lt _ now (lt_of_le_of_lt (Nat.sub_le now 0) (h.trans ?_))
  decide

/-- Of an overdue switch a check returns `triggered` exactly outside `CutShort`. -/
theorem check_overdue_iff (switch : DeadManSwitch) (now : Instant)
    (h : switch.config.missedIntervalsThreshold.toNat ≤ switch.missedIntervals now) :
    (switch.check now).2.isTriggered = true ↔ ¬ CutShort switch now := by
  rw [switch.check_isTriggered, CutShort]
  rcases Nat.lt_or_ge (switch.missedIntervals now) (2 ^ 32) with hfits | hlong
  · rw [Nat.mod_eq_of_lt hfits]
    omega
  · omega

/-- In every run, a switch that has triggered stays triggered until the next
    tick or reset exactly when no check of it falls into `CutShort`. -/
theorem stays_triggered_iff (config : DeadManSwitchConfig) (start : Instant)
    (calls : List (DeadManOp × Duration)) :
    StepsMeet watchedStep StaysTriggered (.new config start) calls ↔
      StepsMeet watchedStep
        (fun w call => w.triggered = true → call.1 = .check →
          ¬ CutShort w.switch (w.now + call.2))
        (.new config start) calls := by
  refine stepsMeet_congr watchedStep Overdue _ _ overdue_step (fun w call h => ?_) _ calls ?_
  · refine forall_congr' fun htriggered => forall_congr' fun _ => ?_
    have hlater := w.switch.missedIntervals_mono w.now (w.now + call.2) (Nat.le_add_right _ _)
    exact check_overdue_iff w.switch (w.now + call.2) ((h htriggered).trans hlater)
  · exact fun htriggered => absurd htriggered Bool.false_ne_true

/-- An interval of no length counts as a nanosecond: a switch that has triggered
    is found alive `2 ^ 32` nanoseconds after its last tick. -/
theorem triggered_switch_recovers : ¬ StepsMeet watchedStep StaysTriggered
        (.new { expectedInterval := 0, missedIntervalsThreshold := 1 } 0)
        [(.check, 1), (.check, 2 ^ 32 - 1)] := by
  intro h
  have hagain := h.2.1 (by decide) rfl
  revert hagain
  decide

end OpenFlight.Watchdog
