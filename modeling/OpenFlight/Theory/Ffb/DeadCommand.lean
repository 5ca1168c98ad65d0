import OpenFlight.Core.Ffb.SafetyDepth
import OpenFlight.Lib.Run
import Mathlib.Data.List.Chain

/-!
# Dead Commands

What the watchdog answers along a run of commands and evaluations.

The ramp starts at an evaluation, so how late it starts depends on how far
apart the evaluations are. With at most `d` between two of them, and between
the construction and the first, the evaluation that starts the ramp comes
before `last command + deadline + d`: the one before it had not reached the
deadline, or came before the last command. `Paced` is that fact as an
invariant, for each of the three phases. From it an evaluation
`deadline + ramp_duration + d` after the last command finds a ramp that was
started and has run out.

That the multipliers do not increase needs no invariant: it holds of two
evaluations in a row from any state of the timer.

## Main definitions

* `WatchdogCall`, `watchdogStep`: The calls and the timer's state after one.
* `evaluations`: The instants of the evaluations of a run.

## Theorems

* `deadCommand_watchdog`: The multipliers of a whole run.
-/

namespace OpenFlight.Ffb

inductive WatchdogCall
  | feed
  | evaluate
deriving DecidableEq

/-- The timer after a call at an instant. -/
def watchdogStep (w : WatchdogTimer) (call : Instant × WatchdogCall) : WatchdogTimer :=
  match call.2 with
  | .feed => w.feedAt call.1
  | .evaluate => (w.evaluateAt call.1).1

/-- The instants of the evaluations, in order. -/
def evaluations (calls : List (Instant × WatchdogCall)) : List Instant :=
  (calls.filter fun call => call.2 = .evaluate).map Prod.fst

/-- The instant of the last command, or `t0` when there was none. -/
def lastFeed (t0 : Instant) (calls : List (Instant × WatchdogCall)) : Instant :=
  calls.foldl (fun last call => if call.2 = .feed then call.1 else last) t0

/-- The instant of the last evaluation, or `t0` when there was none. -/
def lastEvaluation (t0 : Instant) (calls : List (Instant × WatchdogCall)) : Instant :=
  (evaluations calls).getLastD t0

section

variable (w : WatchdogTimer) (now : Instant)

/-- What an evaluation can do: answer with full force and leave the timer active, start the ramp,
    answer with the ramp, or answer with nothing and leave the timer stopped. -/
theorem evaluateAt_cases :
    (w.state = .active ∧ now < w.lastCommand + w.deadline ∧ w.evaluateAt now = (w, 1)) ∨
    (w.state = .active ∧ w.lastCommand + w.deadline ≤ now ∧
      w.evaluateAt now = ({ w with state := .rampingDown, rampStart := now }, 1)) ∨
    (w.state = .rampingDown ∧ w.rampStart ≤ now ∧ now < w.rampStart + w.rampDuration ∧
      w.evaluateAt now = (w, 1 - ((now : ℚ) - w.rampStart) / w.rampDuration)) ∨
    (w.state ≠ .active ∧
      (w.state = .rampingDown → w.rampStart ≤ now → w.rampStart + w.rampDuration ≤ now) ∧
      w.evaluateAt now = ({ w with state := .stopped }, 0)) := by
  unfold WatchdogTimer.evaluateAt checkedDurationSince
  cases hstate : w.state with
  | active =>
      by_cases hclock : w.lastCommand ≤ now
      · by_cases hlate : w.deadline ≤ now - w.lastCommand
        · exact .inr (.inl ⟨rfl, by grind, by simp only [if_pos hclock, if_pos hlate]⟩)
        · exact .inl ⟨rfl, by grind, by simp only [if_pos hclock, if_neg hlate]⟩
      · -- The clock went backwards, so the deadline is not reached either.
        exact .inl ⟨rfl, by grind, by simp only [if_neg hclock]⟩
  | rampingDown =>
      by_cases hclock : w.rampStart ≤ now
      · by_cases hover : w.rampDuration ≤ now - w.rampStart
        · exact .inr (.inr (.inr ⟨by decide, fun _ _ => by grind,
            by simp only [if_pos hclock, if_pos hover]⟩))
        · have hpos : (0 : ℚ) < w.rampDuration := by
            exact_mod_cast (by grind : 0 < w.rampDuration)
          -- A ramp that has not run out takes time, so the guard of the division is not taken.
          have hsecs : ¬ asSecs w.rampDuration ≤ 0 := by
            unfold asSecs
            exact not_le.mpr (by positivity)
          -- The quotient of two durations does not depend on their unit.
          have hratio : asSecs (now - w.rampStart) / asSecs w.rampDuration
              = ((now : ℚ) - w.rampStart) / w.rampDuration := by
            unfold asSecs
            rw [div_div_div_cancel_right₀ (by norm_num), Nat.cast_sub hclock]
          exact .inr (.inr (.inl ⟨rfl, hclock, by grind,
            by simp only [if_pos hclock, if_neg hover, if_neg hsecs, hratio]⟩))
      · exact .inr (.inr (.inr ⟨by decide, fun _ h => absurd h hclock,
          by simp only [if_neg hclock]⟩))
  | stopped =>
      have hsame : ({ w with state := .stopped } : WatchdogTimer) = w := by rw [← hstate]
      exact .inr (.inr (.inr ⟨by decide, fun hramping => absurd hramping (by decide),
        by rw [hsame]⟩))

/-- A ramp that has not run out is strictly above zero and at most one. -/
theorem ramp_mem_unit (h0 : w.rampStart ≤ now) (h1 : now < w.rampStart + w.rampDuration) :
    0 ≤ 1 - ((now : ℚ) - w.rampStart) / w.rampDuration ∧
      1 - ((now : ℚ) - w.rampStart) / w.rampDuration ≤ 1 := by
  have hstart : (w.rampStart : ℚ) ≤ now := by exact_mod_cast h0
  have hend : (now : ℚ) < w.rampStart + w.rampDuration := by exact_mod_cast h1
  have hpos : (0 : ℚ) < w.rampDuration := by linarith
  have hle : ((now : ℚ) - w.rampStart) / w.rampDuration ≤ 1 := by
    rw [div_le_one hpos]
    linarith
  have hge : 0 ≤ ((now : ℚ) - w.rampStart) / w.rampDuration :=
    div_nonneg (by linarith) hpos.le
  constructor <;> linarith

/-- Every multiplier is between 0 and 1. -/
theorem evaluateAt_mem_unit : 0 ≤ (w.evaluateAt now).2 ∧ (w.evaluateAt now).2 ≤ 1 := by
  rcases evaluateAt_cases w now with
    ⟨-, -, heq⟩ | ⟨-, -, heq⟩ | ⟨-, h0, h1, heq⟩ | ⟨-, -, heq⟩
  · rw [heq]
    exact ⟨zero_le_one, le_refl 1⟩
  · rw [heq]
    exact ⟨zero_le_one, le_refl 1⟩
  · rw [heq]
    exact ramp_mem_unit w now h0 h1
  · rw [heq]
    exact ⟨le_refl 0, zero_le_one⟩

/-- Two evaluations in a row, from any state of the timer. -/
theorem evaluateAt_antitone (later : Instant) (hle : now ≤ later) :
    ((w.evaluateAt now).1.evaluateAt later).2 ≤ (w.evaluateAt now).2 := by
  rcases evaluateAt_cases w now with
    ⟨-, -, heq⟩ | ⟨-, -, heq⟩ | ⟨hramping, h0, h1, heq⟩ | ⟨-, -, heq⟩
  · rw [heq]
    -- An active timer answers with full force, the most there is.
    exact (evaluateAt_mem_unit w later).2
  · rw [heq]
    exact (evaluateAt_mem_unit _ later).2
  · -- A ramp is followed by the same ramp further down, or by nothing.
    rw [heq]
    rcases evaluateAt_cases w later with
      ⟨hactive, -, -⟩ | ⟨hactive, -, -⟩ | ⟨-, -, -, hnext⟩ | ⟨-, -, hnext⟩
    · rw [hramping] at hactive
      cases hactive
    · rw [hramping] at hactive
      cases hactive
    · rw [hnext]
      have hlater : (now : ℚ) ≤ later := by exact_mod_cast hle
      have hdiv : ((now : ℚ) - w.rampStart) / w.rampDuration
          ≤ ((later : ℚ) - w.rampStart) / w.rampDuration :=
        div_le_div_of_nonneg_right (by linarith) (Nat.cast_nonneg _)
      exact sub_le_sub_left hdiv 1
    · rw [hnext]
      -- The ramp has run out in between.
      exact (ramp_mem_unit w now h0 h1).1
  · rw [heq]
    exact le_refl 0

/-- No evaluation of a run without commands answers with more than the one before the run. -/
theorem evaluateAt_antitone_run (between : List (Instant × WatchdogCall)) (later : Instant)
    (heval : ∀ call ∈ between, call.2 = .evaluate)
    (hsorted : (now :: (between.map Prod.fst ++ [later])).Pairwise (· ≤ ·)) :
    ((run watchdogStep (w.evaluateAt now).1 between).evaluateAt later).2
      ≤ (w.evaluateAt now).2 := by
  induction between generalizing w now with
  | nil =>
      refine evaluateAt_antitone w now later ?_
      exact (List.pairwise_cons.mp hsorted).1 later (by simp)
  | cons call rest ih =>
      rcases call with ⟨t, kind⟩
      have hkind : kind = .evaluate := heval (t, kind) List.mem_cons_self
      subst hkind
      rcases List.pairwise_cons.mp hsorted with ⟨hfirst, htail⟩
      -- The induction is on the evaluations in between, each of which starts where the last ended.
      have hstep := evaluateAt_antitone w now t (hfirst t (by simp))
      have hrest := ih (w.evaluateAt now).1 t
        (fun c hc => heval c (List.mem_cons_of_mem _ hc)) htail
      exact hrest.trans hstep

end

section

variable {t0 : Instant} {calls : List (Instant × WatchdogCall)}

@[simp]
theorem lastFeed_concat (now : Instant) (kind : WatchdogCall) :
    lastFeed t0 (calls ++ [(now, kind)]) = if kind = .feed then now else lastFeed t0 calls := by
  simp only [lastFeed, List.foldl_append, List.foldl_cons, List.foldl_nil]

@[simp]
theorem evaluations_append (rest : List (Instant × WatchdogCall)) :
    evaluations (calls ++ rest) = evaluations calls ++ evaluations rest := by
  simp only [evaluations, List.filter_append, List.map_append]

theorem lastEvaluation_mem : lastEvaluation t0 calls ∈ t0 :: calls.map Prod.fst := by
  unfold lastEvaluation
  rcases List.eq_nil_or_concat (evaluations calls) with hnil | ⟨front, last, hlast⟩
  · rw [hnil]
    exact List.mem_cons_self
  · have hmem : last ∈ (calls.filter fun call => call.2 = .evaluate).map Prod.fst := by
      change last ∈ evaluations calls
      rw [hlast]
      simp
    rw [hlast, List.concat_eq_append, List.getLastD_concat]
    rcases List.mem_map.mp hmem with ⟨call, hcall, rfl⟩
    exact List.mem_cons_of_mem _ (List.mem_map_of_mem (List.mem_of_mem_filter hcall))

/-- Where the ramp can have started: an active timer was last evaluated before its deadline or
    before its last command, and a ramping one started its ramp at most `d` after the deadline. -/
structure Paced (d deadline rampDuration : Duration) (t0 : Instant)
    (calls : List (Instant × WatchdogCall)) (w : WatchdogTimer) : Prop where
  deadline_eq : w.deadline = deadline
  ramp_eq : w.rampDuration = rampDuration
  fed : w.lastCommand = lastFeed t0 calls
  active : w.state = .active → lastEvaluation t0 calls ≤ lastFeed t0 calls + deadline
  ramping : w.state = .rampingDown → w.rampStart ≤ lastFeed t0 calls + deadline + d

variable {d deadline rampDuration : Duration} {w : WatchdogTimer}

theorem Paced.new (hnew : WatchdogTimer.new t0 deadline rampDuration = some w) :
    0 < rampDuration ∧ Paced d deadline rampDuration t0 [] w := by
  unfold WatchdogTimer.new at hnew
  by_cases hzero : rampDuration = 0
  · rw [if_pos hzero] at hnew
    cases hnew
  · rw [if_neg hzero, Option.some.injEq] at hnew
    subst hnew
    exact ⟨Nat.pos_of_ne_zero hzero, rfl, rfl, rfl, fun _ => Nat.le_add_right _ _,
      fun hramping => by cases hramping⟩

section

variable (h : Paced d deadline rampDuration t0 calls w)

include h

theorem Paced.feed (now : Instant) (hnow : lastEvaluation t0 calls ≤ now) :
    Paced d deadline rampDuration t0 (calls ++ [(now, .feed)]) (w.feedAt now) := by
  refine ⟨h.deadline_eq, h.ramp_eq, ?_, fun _ => ?_, fun hramping => by cases hramping⟩
  · rw [lastFeed_concat, if_pos rfl]
    rfl
  · -- A command is no evaluation, and puts the deadline off.
    have hsame : lastEvaluation t0 (calls ++ [(now, .feed)]) = lastEvaluation t0 calls := by
      simp [lastEvaluation, evaluations]
    rw [hsame, lastFeed_concat, if_pos rfl]
    exact hnow.trans (Nat.le_add_right now deadline)

theorem Paced.evaluate (now : Instant) (hnow : now ≤ lastEvaluation t0 calls + d) :
    Paced d deadline rampDuration t0 (calls ++ [(now, .evaluate)]) (w.evaluateAt now).1 := by
  have hfeed : lastFeed t0 (calls ++ [(now, .evaluate)]) = lastFeed t0 calls := by
    rw [lastFeed_concat, if_neg (by decide)]
  have hfed : w.lastCommand = lastFeed t0 (calls ++ [(now, .evaluate)]) := h.fed.trans hfeed.symm
  have heval : lastEvaluation t0 (calls ++ [(now, .evaluate)]) = now := by
    simp [lastEvaluation, evaluations]
  rcases evaluateAt_cases w now with
    ⟨hactive, hearly, heq⟩ | ⟨hactive, hlate, heq⟩ | ⟨hramping, h0, h1, heq⟩ | ⟨-, -, heq⟩
  · rw [heq]
    -- Still in time: this evaluation is the last one, and before the deadline.
    refine ⟨h.deadline_eq, h.ramp_eq, hfed, fun _ => ?_, fun hramping => ?_⟩
    · rw [hfeed, heval, ← h.fed, ← h.deadline_eq]
      exact hearly.le
    · rw [hactive] at hramping
      cases hramping
  · rw [heq]
    refine ⟨h.deadline_eq, h.ramp_eq, hfed, fun hstill => ?_, fun _ => ?_⟩
    · cases hstill
    · -- The evaluation before this one was still in time.
      have hbefore := h.active hactive
      rw [hfeed]
      exact hnow.trans (Nat.add_le_add_right hbefore d)
  · rw [heq]
    -- The ramp goes on from where it started.
    refine ⟨h.deadline_eq, h.ramp_eq, hfed, fun hactive => ?_, fun _ => ?_⟩
    · rw [hramping] at hactive
      cases hactive
    · rw [hfeed]
      exact h.ramping hramping
  · rw [heq]
    refine ⟨h.deadline_eq, h.ramp_eq, hfed, fun hactive => ?_, fun hramping => ?_⟩
    · cases hactive
    · cases hramping

/-- An evaluation late enough after the last command finds the ramp over. -/
theorem Paced.stopped (hpos : 0 < rampDuration) (now : Instant)
    (hnow : now ≤ lastEvaluation t0 calls + d)
    (hlate : lastFeed t0 calls + deadline + rampDuration + d ≤ now) :
    (w.evaluateAt now).2 = 0 ∧ (w.evaluateAt now).1.state = .stopped := by
  have hfed := h.fed
  have hdeadline := h.deadline_eq
  have hramp := h.ramp_eq
  rcases evaluateAt_cases w now with
    ⟨hactive, hearly, -⟩ | ⟨hactive, -, -⟩ | ⟨hramping, -, hwithin, -⟩ | ⟨-, -, heq⟩
  · -- An active timer in time has a deadline ahead of it, which is long past.
    grind
  · -- The ramp would start now, at most `d` after the deadline, and a ramp takes time.
    have hbefore := h.active hactive
    grind
  · -- The ramp started at most `d` after the deadline, so it is over.
    have hstart := h.ramping hramping
    grind
  · rw [heq]
    exact ⟨rfl, rfl⟩

end

/-- The last evaluation of a run whose calls are in order, and the next one. -/
theorem lastEvaluation_le (now : Instant) (kind : WatchdogCall)
    (hsorted : (t0 :: (calls ++ [(now, kind)]).map Prod.fst).Pairwise (· ≤ ·)) :
    lastEvaluation t0 calls ≤ now := by
  rw [List.map_append, ← List.cons_append, List.pairwise_append] at hsorted
  exact hsorted.2.2 _ lastEvaluation_mem now (by simp)

theorem le_lastEvaluation_add (now : Instant) (hpaced : List.IsChain (fun a b => b ≤ a + d)
      (t0 :: evaluations (calls ++ [(now, .evaluate)]))) :
    now ≤ lastEvaluation t0 calls + d := by
  rw [evaluations_append, ← List.cons_append, List.isChain_append] at hpaced
  -- The link of the chain between the last evaluation and this one.
  refine hpaced.2.2 _ ?_ now rfl
  rw [List.getLast?_cons, Option.mem_def, lastEvaluation, List.getLastD_eq_getLast?]

/-- The invariant after every run whose calls are in order and whose
    evaluations are close enough. -/
theorem paced_run (hw : Paced d deadline rampDuration t0 [] w)
    (hsorted : (t0 :: calls.map Prod.fst).Pairwise (· ≤ ·))
    (hpaced : List.IsChain (fun a b => b ≤ a + d) (t0 :: evaluations calls)) :
    Paced d deadline rampDuration t0 calls (run watchdogStep w calls) := by
  induction calls using List.reverseRecOn with
  | nil => exact hw
  | append_singleton calls call ih =>
      rcases call with ⟨now, kind⟩
      rw [run_append]
      -- The calls before the last one are a run of the same kind.
      have hpacedBefore : List.IsChain (fun a b => b ≤ a + d) (t0 :: evaluations calls) :=
        List.IsChain.prefix hpaced (by simp)
      have hbefore := ih (hsorted.sublist (by simp)) hpacedBefore
      cases kind with
      | feed => exact hbefore.feed now (lastEvaluation_le now .feed hsorted)
      | evaluate => exact hbefore.evaluate now (le_lastEvaluation_add now hpaced)

end

/-- Along a run of commands and evaluations whose times do not decrease and whose evaluations come
    at most `d` after each other, the first at most `d` after the construction, every multiplier is
    between 0 and 1, an evaluation at least `deadline + ramp_duration + d` after the last command
    answers 0 and leaves the timer stopped, and no multiplier is above an earlier one with no
    command between the two. -/
theorem deadCommand_watchdog (t0 deadline rampDuration d : Nat) (start : WatchdogTimer)
    (calls : List (Instant × WatchdogCall))
    (hnew : WatchdogTimer.new t0 deadline rampDuration = some start)
    (hsorted : (t0 :: calls.map Prod.fst).Pairwise (· ≤ ·))
    (hpaced : List.IsChain (fun a b => b ≤ a + d) (t0 :: evaluations calls)) :
    (∀ before now after, calls = before ++ (now, .evaluate) :: after →
      let w := run watchdogStep start before
      0 ≤ (w.evaluateAt now).2 ∧ (w.evaluateAt now).2 ≤ 1 ∧
        (lastFeed t0 before + deadline + rampDuration + d ≤ now →
          (w.evaluateAt now).2 = 0 ∧ (w.evaluateAt now).1.state = .stopped)) ∧
      ∀ before first between second after,
        calls = before ++ (first, .evaluate) :: (between ++ (second, .evaluate) :: after) →
        (∀ call ∈ between, call.2 ≠ .feed) →
        let w := run watchdogStep start before
        ((run watchdogStep w ((first, .evaluate) :: between)).evaluateAt second).2
          ≤ (w.evaluateAt first).2 := by
  rcases Paced.new (d := d) hnew with ⟨hpos, hstart⟩
  constructor
  · intro before now after hsplit w
    -- The run up to and including this evaluation.
    have hupTo : (before ++ [(now, .evaluate)]) <+: calls := ⟨after, by simp [hsplit]⟩
    have hsorted' := hsorted.sublist ((hupTo.map Prod.fst).sublist.cons_cons t0)
    have hpaced' : List.IsChain (fun a b => b ≤ a + d)
        (t0 :: evaluations (before ++ [(now, .evaluate)])) := by
      rw [hsplit, List.append_cons, evaluations_append, ← List.cons_append] at hpaced
      exact hpaced.left_of_append
    have hpacedBefore : List.IsChain (fun a b => b ≤ a + d) (t0 :: evaluations before) :=
      List.IsChain.prefix hpaced' (by simp)
    have hw : Paced d deadline rampDuration t0 before w :=
      paced_run hstart (hsorted'.sublist (by simp)) hpacedBefore
    refine ⟨(evaluateAt_mem_unit w now).1, (evaluateAt_mem_unit w now).2, fun hlate => ?_⟩
    exact hw.stopped hpos now (le_lastEvaluation_add now hpaced') hlate
  · intro before first between second after hsplit hbetween w
    refine evaluateAt_antitone_run w first between second (fun call hcall => ?_) ?_
    · rcases call with ⟨t, kind⟩
      cases kind with
      | feed => exact absurd rfl (hbetween (t, .feed) hcall)
      | evaluate => rfl
    · -- The two evaluations and those in between are in order, as all calls are.
      refine hsorted.sublist ?_
      rw [hsplit]
      simp

/-- A timer with a deadline of 5 ns and a ramp of 4 ns, evaluated every 3 ns
    and last fed at 3 ns: 14 ns later it answers 0 and is stopped. -/
theorem deadCommand_watchdog_after_one_feed :
    let start : WatchdogTimer := ⟨5, 4, 0, .active, 0⟩
    let w := run watchdogStep start
      [(2, .evaluate), (3, .feed), (5, .evaluate), (8, .evaluate), (11, .evaluate),
        (14, .evaluate)]
    (w.evaluateAt 17).2 = 0 ∧ (w.evaluateAt 17).1.state = .stopped := by
  intro start w
  have hrun := (deadCommand_watchdog 0 5 4 3 start
    [(2, .evaluate), (3, .feed), (5, .evaluate), (8, .evaluate), (11, .evaluate),
      (14, .evaluate), (17, .evaluate)] rfl (by decide) (by decide)).1
    [(2, .evaluate), (3, .feed), (5, .evaluate), (8, .evaluate), (11, .evaluate),
      (14, .evaluate)] 17 [] rfl
  exact hrun.2.2 (by decide)

end OpenFlight.Ffb
