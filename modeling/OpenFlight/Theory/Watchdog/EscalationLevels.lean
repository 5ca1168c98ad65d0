import OpenFlight.Core.Watchdog.Escalation
import OpenFlight.Lib.Run

/-!
# Levels Only Drop by Recovery

When the level of a component only ever drops by a reset, or by one after as
many successes in a row as recovery takes, and when a failure lowers it.

A failure computes the level from the failures since the last success, so it
lowers the level of a component whose count is not yet, or no longer, as high
as its level asks for: after a single success the count starts again at one.
`FailureKeeps` spells out, level by level, the count that the level asks for.
The one level that the count alone does not decide is `restart`, which a
component keeps only when a new restart may be requested, or goes up from when
its attempts are used up.

The successes in a row are a ghost here, since the ladder forgets its own count
of them when it wraps around: `streak` counts the successes of a component
since its last failure, reset or drop of level.

## Main definitions

* `Tracked`, `trackedStep`: The ladder with the ghost counts.
* `Counted`: The counts of the ladder are at most the ghost ones.

## Theorems

* `levels_only_recover_iff`: The same, along every run.
* `failure_lowers_level`: A run in which a failure lowers the level.
-/

namespace OpenFlight.Watchdog

/-- The thresholds are in the order of their levels. -/
structure EscalationConfig.Ordered (config : EscalationConfig) : Prop where
  warn_le : config.warnThreshold ≤ config.degradeThreshold
  degrade_le : config.degradeThreshold ≤ config.restartThreshold
  restart_le : config.restartThreshold ≤ config.safeModeThreshold

/-- The ladder, and for each component the successes since its last failure,
    reset or drop of level. -/
structure Tracked where
  ladder : EscalationLadder
  streak : String → Nat

/-- The successes in a row of a component after a call about it. -/
def streakAfter (t : Tracked) (call : Readings × LadderOp) : Nat :=
  match call.2 with
  | .register component => t.streak component
  | .recordFailure _ _ => 0
  | .recordSuccess component =>
      if (ladderStep t.ladder call).level component = t.ladder.level component
      then t.streak component + 1 else 0
  | .reset _ => 0

/-- One call, with its effect on the ghost counts. -/
def trackedStep (t : Tracked) (call : Readings × LadderOp) : Tracked :=
  { ladder := ladderStep t.ladder call
    streak := Function.update t.streak call.2.component (streakAfter t call) }

/-- Whatever level the call lowers, it lowers by resetting the component, or by
    one as the last of as many successes in a row as recovery takes. -/
def OnlyRecovers (t : Tracked) (call : Readings × LadderOp) : Prop :=
  ∀ component,
    ((ladderStep t.ladder call).level component).rank < (t.ladder.level component).rank →
      call.2 = .reset component ∨
        (call.2 = .recordSuccess component ∧
          ((ladderStep t.ladder call).level component).rank + 1
            = (t.ladder.level component).rank ∧
          t.ladder.config.recoveryThreshold.toNat ≤ t.streak component + 1)

/-- The failures in a row, this one included, are as many as the level asks
    for; under `restart`, all attempts are used up or one may be made now. -/
def FailureKeeps (config : EscalationConfig) (now : Instant) (state : ComponentState) : Prop :=
  match state.level with
  | .normal => True
  | .warn => config.warnThreshold ≤ state.consecutiveFailures + 1
  | .degrade => config.degradeThreshold ≤ state.consecutiveFailures + 1
  | .restart =>
      config.safeModeThreshold ≤ state.consecutiveFailures + 1 ∨
        config.maxRestartAttempts ≤ state.restartCount ∨
        (config.restartThreshold ≤ state.consecutiveFailures + 1 ∧
          state.canRestart config now = true)
  | .safeMode => config.safeModeThreshold ≤ state.consecutiveFailures + 1

/-- The condition on a call, which asks something of failures only. -/
def KeepsLevels (t : Tracked) (call : Readings × LadderOp) : Prop :=
  match call.2 with
  | .recordFailure component _ =>
      FailureKeeps t.ladder.config (call.1 0) (t.ladder.stateOf component)
  | _ => True

/-- The counts of the ladder are at most the ghost ones, and its thresholds are in order. -/
structure Counted (t : Tracked) : Prop where
  ordered : t.ladder.config.Ordered
  streak_le : ∀ component,
    (t.ladder.stateOf component).consecutiveSuccesses.toNat ≤ t.streak component

/-- A count that wraps is at most the one that does not. -/
theorem toNat_add_one_le (n : UInt32) (m : Nat) (h : n.toNat ≤ m) : (n + 1).toNat ≤ m + 1 := by
  rw [UInt32.toNat_add]
  have hmod := Nat.mod_le (n.toNat + (1 : UInt32).toNat) (2 ^ 32)
  have hone : (1 : UInt32).toNat = 1 := rfl
  omega

/-- A failure keeps the level or raises it exactly under `FailureKeeps`. -/
theorem fail_rank_iff (config : EscalationConfig) (h : config.Ordered) (clk : Readings)
    (component reason : String) (state : ComponentState) :
    state.level.rank ≤ (state.fail config clk component reason).1.level.rank ↔
      FailureKeeps config (clk 0) state := by
  -- A count that reaches a threshold reaches all the lower ones.
  have hrestart : config.safeModeThreshold ≤ state.consecutiveFailures + 1 →
      config.restartThreshold ≤ state.consecutiveFailures + 1 :=
    fun hn => UInt32.le_trans h.restart_le hn
  have hdegrade : config.restartThreshold ≤ state.consecutiveFailures + 1 →
      config.degradeThreshold ≤ state.consecutiveFailures + 1 :=
    fun hn => UInt32.le_trans h.degrade_le hn
  have hwarn : config.degradeThreshold ≤ state.consecutiveFailures + 1 →
      config.warnThreshold ≤ state.consecutiveFailures + 1 :=
    fun hn => UInt32.le_trans h.warn_le hn
  rw [state.fail_level config clk component reason]
  unfold FailureKeeps
  -- The cases are the levels before the failure; the count decides the level after it.
  cases hlevel : state.level with
  | normal => simp [EscalationLevel.rank]
  | warn =>
      by_cases hn : config.warnThreshold ≤ state.consecutiveFailures + 1
      · rw [if_pos hn]
        split_ifs <;> simp [EscalationLevel.rank, hn]
      · -- Below its own threshold a count is below all the higher ones.
        have hd := mt hwarn hn
        have hr := mt hdegrade hd
        simp [EscalationLevel.rank, hn, hd, hr, mt hrestart hr]
  | degrade =>
      by_cases hn : config.degradeThreshold ≤ state.consecutiveFailures + 1
      · rw [if_pos hn]
        split_ifs <;> simp [EscalationLevel.rank, hn]
      · -- Neither a restart nor the safe mode can be asked for by a lower count.
        have hr := mt hdegrade hn
        simp only [hn, hr, mt hrestart hr, if_false, false_or, reduceCtorEq, false_and]
        split_ifs <;> simp [EscalationLevel.rank]
  | restart =>
      by_cases hsafe : config.safeModeThreshold ≤ state.consecutiveFailures + 1 ∨
          config.maxRestartAttempts ≤ state.restartCount
      · -- The level goes up.
        rw [if_pos (by simpa using hsafe), ← or_assoc]
        simp [EscalationLevel.rank, hsafe]
      · -- Whether it stays depends on whether a restart is due now.
        rw [if_neg (by simpa using hsafe), ← or_assoc, or_iff_right hsafe]
        split_ifs <;> simp_all [EscalationLevel.rank]
  | safeMode =>
      by_cases hn : config.safeModeThreshold ≤ state.consecutiveFailures + 1
      · simp [EscalationLevel.rank, hn]
      · simp only [hn, false_or, reduceCtorEq, false_and, if_false]
        split_ifs <;> simp [EscalationLevel.rank]

section

variable (t : Tracked) (clk : Readings)

/-- The level of a component after a call about it. -/
theorem level_ladderStep_self (op : LadderOp) (component : String) (h : component = op.component) :
    (ladderStep t.ladder (clk, op)).level component =
      (op.effect t.ladder.config clk (t.ladder.stateOf component)).level := by
  rw [EscalationLadder.level, EscalationLadder.stateOf_ladderStep, if_pos h]

/-- A call lowers the level of its own component at most. -/
theorem eq_component_of_drop (op : LadderOp) (component : String)
    (h : ((ladderStep t.ladder (clk, op)).level component).rank
      < (t.ladder.level component).rank) : component = op.component := by
  by_contra hne
  -- The states of the other components are left alone.
  rw [EscalationLadder.level, EscalationLadder.stateOf_ladderStep, if_neg hne] at h
  exact absurd h (Nat.lt_irrefl _)

/-- A success that lowers the level does it by one, and is the last of as many
    in a row as recovery takes. -/
theorem succeed_drop (component : String) (h : Counted t)
    (hdrop : (((t.ladder.stateOf component).succeed t.ladder.config).level).rank
      < (t.ladder.stateOf component).level.rank) :
    (((t.ladder.stateOf component).succeed t.ladder.config).level).rank + 1
        = (t.ladder.stateOf component).level.rank ∧
      t.ladder.config.recoveryThreshold.toNat ≤ t.streak component + 1 := by
  by_cases hrow : t.ladder.config.recoveryThreshold
      ≤ (t.ladder.stateOf component).consecutiveSuccesses + 1 ∧
        EscalationLevel.normal.rank < (t.ladder.stateOf component).level.rank
  · refine ⟨?_, ?_⟩
    · -- The level falls to the one below it.
      rw [(ComponentState.succeed_of_pos _ _ hrow).1]
      exact EscalationLevel.lower_rank _ hrow.2
    · -- The count of the ladder may have wrapped, and the ghost one has not.
      exact (UInt32.le_iff_toNat_le.mp hrow.1).trans
        (toNat_add_one_le _ _ (h.streak_le component))
  · rw [(ComponentState.succeed_of_not _ _ hrow).1] at hdrop
    exact absurd hdrop (Nat.lt_irrefl _)

/-- `OnlyRecovers` is `KeepsLevels`. -/
theorem onlyRecovers_iff (call : Readings × LadderOp) (h : Counted t) :
    OnlyRecovers t call ↔ KeepsLevels t call := by
  rcases call with ⟨clk, op⟩
  cases op with
  | register component =>
      refine ⟨fun _ => trivial, fun _ other hdrop => ?_⟩
      rw [level_ladderStep_self t clk _ other (eq_component_of_drop t clk _ other hdrop)] at hdrop
      exact absurd hdrop (Nat.lt_irrefl _)
  | reset component =>
      -- A reset is one of the two ways down.
      refine ⟨fun _ => trivial, fun _ other hdrop => Or.inl ?_⟩
      rw [eq_component_of_drop t clk _ other hdrop]
      rfl
  | recordSuccess component =>
      refine ⟨fun _ => trivial, fun _ other hdrop => Or.inr ?_⟩
      obtain rfl : other = component := eq_component_of_drop t clk _ other hdrop
      rw [level_ladderStep_self t clk _ other rfl] at hdrop ⊢
      exact ⟨rfl, succeed_drop t other h hdrop⟩
  | recordFailure component reason =>
      -- A failure is neither of the two ways down, so it may not lower anything.
      have hkeeps := fail_rank_iff t.ladder.config h.ordered clk component reason
        (t.ladder.stateOf component)
      constructor
      · -- A drop by this failure would have to be a reset or a success.
        intro honly
        refine hkeeps.mp (Nat.not_lt.mp fun hdrop => ?_)
        have hlevel := level_ladderStep_self t clk (.recordFailure component reason) component rfl
        rcases honly component (by rw [hlevel]; exact hdrop) with hreset | ⟨hsuccess, -⟩
        · exact absurd hreset (by simp)
        · exact absurd hsuccess (by simp)
      · intro hguard other hdrop
        obtain rfl : other = component := eq_component_of_drop t clk _ other hdrop
        rw [level_ladderStep_self t clk _ other rfl] at hdrop
        exact absurd (hkeeps.mpr hguard) (Nat.not_le.mpr hdrop)

/-- The count of a component after a call about it is at most the ghost one. -/
theorem effect_streak_le (op : LadderOp) (h : Counted t) : (op.effect t.ladder.config clk
      (t.ladder.stateOf op.component)).consecutiveSuccesses.toNat ≤ streakAfter t (clk, op) := by
  cases op with
  | register component => exact h.streak_le component
  | recordFailure component reason =>
      change ((t.ladder.stateOf component).fail t.ladder.config clk component
        reason).1.consecutiveSuccesses.toNat ≤ 0
      rw [ComponentState.fail_consecutiveSuccesses]
      exact Nat.le_refl 0
  | reset component => exact Nat.le_refl 0
  | recordSuccess component =>
      change ((t.ladder.stateOf component).succeed t.ladder.config).consecutiveSuccesses.toNat
        ≤ if (ladderStep t.ladder (clk, .recordSuccess component)).level component
            = t.ladder.level component then t.streak component + 1 else 0
      rw [level_ladderStep_self t clk _ component rfl, LadderOp.effect]
      by_cases hrow : t.ladder.config.recoveryThreshold
          ≤ (t.ladder.stateOf component).consecutiveSuccesses + 1 ∧
            EscalationLevel.normal.rank < (t.ladder.stateOf component).level.rank
      · -- At the threshold the count begins anew.
        rw [(ComponentState.succeed_of_pos _ _ hrow).2]
        exact Nat.zero_le _
      · -- The level stays, so both counts go up by one.
        rcases ComponentState.succeed_of_not _ _ hrow with ⟨hsame, hcount⟩
        rw [hsame, hcount, EscalationLadder.level, if_pos rfl]
        exact toNat_add_one_le _ _ (h.streak_le component)

theorem trackedStep_counted (call : Readings × LadderOp) (h : Counted t) :
    Counted (trackedStep t call) := by
  rcases call with ⟨clk, op⟩
  refine ⟨?_, fun component => ?_⟩
  · change (ladderStep t.ladder (clk, op)).config.Ordered
    rw [EscalationLadder.ladderStep_config]
    exact h.ordered
  · change ((ladderStep t.ladder (clk, op)).stateOf component).consecutiveSuccesses.toNat
      ≤ Function.update t.streak op.component (streakAfter t (clk, op)) component
    rw [EscalationLadder.stateOf_ladderStep]
    -- Only the counts of the component of the call change.
    by_cases hself : component = op.component
    · rw [if_pos hself, hself, Function.update_self]
      exact effect_streak_le t clk op h
    · rw [if_neg hself, Function.update_of_ne hself]
      exact h.streak_le component

end

/-- Along every run of a new ladder, no failure lowers a level, and a level drops only by a reset or
    by one after the successes that recovery takes, exactly when every failure of the run finds a
    component in `FailureKeeps`. -/
theorem levels_only_recover_iff (config : EscalationConfig) (h : config.Ordered)
    (calls : List (Readings × LadderOp)) :
    StepsMeet trackedStep OnlyRecovers ⟨.new config, fun _ => 0⟩ calls ↔
      StepsMeet trackedStep KeepsLevels ⟨.new config, fun _ => 0⟩ calls :=
  stepsMeet_congr trackedStep Counted OnlyRecovers KeepsLevels trackedStep_counted
    onlyRecovers_iff _ calls ⟨h, fun _ => Nat.le_refl 0⟩

/-- A failure, and the default number of successes that recovery takes. -/
theorem levels_only_recover_warned : StepsMeet trackedStep OnlyRecovers ⟨.new .default, fun _ => 0⟩
      ((fun _ => 0, .recordFailure "axis" "tick missed")
        :: List.replicate 5 (fun _ => 0, .recordSuccess "axis")) := by
  refine (levels_only_recover_iff .default ⟨by decide, by decide, by decide⟩ _).mpr ?_
  exact ⟨trivial, trivial, trivial, trivial, trivial, trivial, trivial⟩

/-- Five failures in a row, a single success, and the next failure takes the
    component from `degrade` to `warn`. -/
theorem failure_lowers_level : ¬ StepsMeet trackedStep OnlyRecovers ⟨.new .default, fun _ => 0⟩
      (List.replicate 5 (fun _ => 0, .recordFailure "axis" "tick missed") ++
        [(fun _ => 0, .recordSuccess "axis"),
          (fun _ => 0, .recordFailure "axis" "tick missed")]) := by
  rintro ⟨-, -, -, -, -, -, honly, -⟩
  rcases honly "axis" (by decide +kernel) with hreset | ⟨hsuccess, -⟩
  · exact absurd hreset (by simp)
  · exact absurd hsuccess (by simp)

end OpenFlight.Watchdog
