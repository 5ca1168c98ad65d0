import OpenFlight.Lib.Run
import Mathlib.Algebra.Order.Group.Nat
import Mathlib.Data.List.Induction

/-!
# Debouncing

A signal of two values that is sampled at moments in time, and a value that
follows the signal only when it has been steady for long enough.

The debouncer remembers the last sample, the moment of the last change and the
value it has accepted. What it computes is said without it: a run is a stretch of
equal samples that begins where the signal changes, and it lasts at a sample if
enough time has passed since its first one. The accepted value is that of the
run that lasted most recently. Before any run has lasted, it is the value at the
start.

The moments need not be in order. A run is as long as the moment of a sample is
after that of its first one.

## Main definitions

* `Debouncer`, `Debouncer.step`: The debouncer of one signal.
* `RunOf`, `LastsAt`: Runs of a signal, and those that have lasted.
* `Debounced`: The value of the run that lasted most recently.

## Theorems

* `runOf_snoc_iff`: The runs after one more sample.
* `debounced_run`: The debouncer computes the debounced value.
-/

namespace OpenFlight

/-- A moment, and the value of the signal there. -/
abbrev Sample := ℕ × Bool

/-- The last sample, the moment of the last change, and the accepted value. -/
structure Debouncer where
  last : Bool
  since : Option ℕ
  out : Bool

namespace Debouncer

/-- A signal that has not been sampled counts as off. -/
def initial : Debouncer where
  last := false
  since := none
  out := false

/-- The moment of the last change, with one more sample. -/
def sinceAfter (s : Debouncer) (sample : Sample) : Option ℕ :=
  if sample.2 ≠ s.last then some sample.1 else s.since

/-- One more sample: it is accepted if the last change is long enough ago. -/
def step (threshold : ℕ) (s : Debouncer) (sample : Sample) : Debouncer where
  last := sample.2
  since := s.sinceAfter sample
  out :=
    if (s.sinceAfter sample).any fun change => threshold ≤ sample.1 - change then sample.2
    else s.out

end Debouncer

section

variable {samples : List Sample} {value : Bool} {start stop : ℕ}

/-- From a change, or the beginning, up to a place the samples have the same value. -/
structure RunOf (samples : List Sample) (value : Bool) (start stop : ℕ) : Prop where
  order : start ≤ stop
  same : ∀ j, start ≤ j → j ≤ stop → ∃ t, samples[j]? = some (t, value)
  first : ∀ j, j + 1 = start → ∃ t, samples[j]? = some (t, !value)

/-- A run lasts at a place if enough time has passed since its first sample. -/
def LastsAt (threshold : ℕ) (samples : List Sample) (value : Bool) (stop : ℕ) : Prop :=
  ∃ start t t', RunOf samples value start stop ∧ samples[start]? = some (t, value) ∧
    samples[stop]? = some (t', value) ∧ threshold ≤ t' - t

/-- The value of the run that lasted most recently, and off if none did. -/
def Debounced (threshold : ℕ) (samples : List Sample) (value : Bool) : Prop :=
  (∃ stop, LastsAt threshold samples value stop ∧
    ∀ value' stop', LastsAt threshold samples value' stop' → stop' ≤ stop) ∨
  ((∀ value' stop, ¬ LastsAt threshold samples value' stop) ∧ value = false)

theorem RunOf.lt_length (h : RunOf samples value start stop) : stop < samples.length := by
  rcases h.same stop h.order (Nat.le_refl stop) with ⟨t, ht⟩
  exact (List.getElem?_eq_some_iff.mp ht).1

theorem LastsAt.lt_length {threshold : ℕ} (h : LastsAt threshold samples value stop) :
    stop < samples.length := by
  rcases h with ⟨start, t, t', hrun, -⟩
  exact hrun.lt_length

/-- A run that reaches a place begins where every run that reaches it begins. -/
theorem RunOf.start_unique {value' : Bool} {start' : ℕ} (h : RunOf samples value start stop)
    (h' : RunOf samples value' start' stop) : value = value' ∧ start = start' := by
  have hvalue : value = value' := by
    rcases h.same stop h.order (Nat.le_refl stop) with ⟨t, ht⟩
    rcases h'.same stop h'.order (Nat.le_refl stop) with ⟨t', ht'⟩
    rw [ht, Option.some.injEq, Prod.mk.injEq] at ht'
    exact ht'.2
  subst hvalue
  refine ⟨rfl, ?_⟩
  -- Before the later of two starts the signal would have both values.
  have hnot : ∀ a b, RunOf samples value a stop → RunOf samples value b stop → ¬ a < b := by
    intro a b ha hb hlt
    rcases hb.first (b - 1) (by omega) with ⟨t, ht⟩
    rcases ha.same (b - 1) (by omega) (by have := hb.order; omega) with ⟨t', ht'⟩
    rw [ht, Option.some.injEq, Prod.mk.injEq] at ht'
    exact absurd ht'.2 (Bool.not_ne_self value)
  have hle := hnot start start' h h'
  have hge := hnot start' start h' h
  omega

section

variable (sample : Sample)

/-- Runs up to an earlier place are the runs without the sample. -/
theorem runOf_snoc_of_lt (hstop : stop < samples.length) :
    RunOf (samples ++ [sample]) value start stop ↔ RunOf samples value start stop := by
  have hsame : ∀ j, j ≤ stop → (samples ++ [sample])[j]? = samples[j]? := fun j hj =>
    List.getElem?_append_left (Nat.lt_of_le_of_lt hj hstop)
  constructor
  · intro h
    have horder := h.order
    refine ⟨h.order, fun j hj hj' => ?_, fun j hj => ?_⟩
    · rw [← hsame j hj']
      exact h.same j hj hj'
    · rw [← hsame j (by omega)]
      exact h.first j hj
  · intro h
    have horder := h.order
    refine ⟨h.order, fun j hj hj' => ?_, fun j hj => ?_⟩
    · rw [hsame j hj']
      exact h.same j hj hj'
    · rw [hsame j (by omega)]
      exact h.first j hj

/-- The sample begins a run where the signal changes. -/
theorem runOf_snoc_change
    (hchange : ∀ j, j + 1 = samples.length → ∃ t, samples[j]? = some (t, !sample.2)) :
    RunOf (samples ++ [sample]) sample.2 samples.length samples.length where
  order := Nat.le_refl _
  same := by
    intro j hj hj'
    rw [Nat.le_antisymm hj' hj, List.getElem?_concat_length]
    exact ⟨sample.1, rfl⟩
  first := by
    intro j hj
    rw [List.getElem?_append_left (by omega)]
    exact hchange j hj

/-- The sample goes on with the run of the sample before it. -/
theorem runOf_snoc_same (h : RunOf samples sample.2 start stop)
    (hlast : stop + 1 = samples.length) :
    RunOf (samples ++ [sample]) sample.2 start samples.length where
  order := by
    have := h.order
    omega
  same := by
    intro j hj hj'
    by_cases hnew : j = samples.length
    · rw [hnew, List.getElem?_concat_length]
      exact ⟨sample.1, rfl⟩
    · rw [List.getElem?_append_left (by omega)]
      exact h.same j hj (by omega)
  first := by
    intro j hj
    have := h.order
    rw [List.getElem?_append_left (by omega)]
    exact h.first j hj

variable {threshold : ℕ}

theorem lastsAt_snoc_of_lt (hstop : stop < samples.length) :
    LastsAt threshold (samples ++ [sample]) value stop ↔ LastsAt threshold samples value stop := by
  unfold LastsAt
  refine exists_congr fun start => exists_congr fun t => exists_congr fun t' => ?_
  rw [runOf_snoc_of_lt sample hstop, List.getElem?_append_left hstop]
  refine and_congr_right fun hrun => ?_
  rw [List.getElem?_append_left (Nat.lt_of_le_of_lt hrun.order hstop)]

/-- A run that lasts at the new sample has its value. -/
theorem LastsAt.value_snoc (h : LastsAt threshold (samples ++ [sample]) value samples.length) :
    value = sample.2 := by
  rcases h with ⟨start, t, t', -, -, hstop, -⟩
  rw [List.getElem?_concat_length, Option.some.injEq] at hstop
  rw [hstop]

/-- When the run lasts at the new sample, its value is the debounced one. -/
theorem debounced_snoc_of_lasts
    (h : LastsAt threshold (samples ++ [sample]) sample.2 samples.length) :
    Debounced threshold (samples ++ [sample]) sample.2 := by
  refine Or.inl ⟨samples.length, h, fun value' stop' h' => ?_⟩
  have hlt := h'.lt_length
  rw [List.length_append, List.length_singleton] at hlt
  omega

/-- When it does not, nothing changes. -/
theorem debounced_snoc_of_not
    (h : ¬ LastsAt threshold (samples ++ [sample]) sample.2 samples.length)
    (hvalue : Debounced threshold samples value) :
    Debounced threshold (samples ++ [sample]) value := by
  -- No run lasts that has not lasted before.
  have hold : ∀ value' stop', LastsAt threshold (samples ++ [sample]) value' stop' →
      LastsAt threshold samples value' stop' := by
    intro value' stop' hlasts
    have hlt := hlasts.lt_length
    rw [List.length_append, List.length_singleton] at hlt
    by_cases hnew : stop' = samples.length
    · rw [hnew] at hlasts
      rw [hlasts.value_snoc] at hlasts
      exact absurd hlasts h
    · exact (lastsAt_snoc_of_lt sample (by omega)).mp hlasts
  rcases hvalue with ⟨stop, hlasts, hlatest⟩ | ⟨hnone, hoff⟩
  · refine Or.inl ⟨stop, (lastsAt_snoc_of_lt sample hlasts.lt_length).mpr hlasts, ?_⟩
    exact fun value' stop' h' => hlatest value' stop' (hold value' stop' h')
  · exact Or.inr ⟨fun value' stop' h' => hnone value' stop' (hold value' stop' h'), hoff⟩

end

end

/-- What the debouncer knows of the samples so far. -/
structure Tracks (threshold : ℕ) (samples : List Sample) (s : Debouncer) : Prop where
  started : samples = [] → s.last = false ∧ s.since = none
  current : ∀ stop, stop + 1 = samples.length → ∃ start, RunOf samples s.last start stop ∧
    ∀ change, s.since = some change → samples[start]? = some (change, s.last)
  quiet : s.since = none → s.last = false ∧ s.out = false
  debounced : Debounced threshold samples s.out

namespace Tracks

variable {threshold : ℕ} {samples : List Sample} {s : Debouncer}

theorem initial : Tracks threshold [] .initial where
  started := fun _ => ⟨rfl, rfl⟩
  current := fun stop hstop => absurd hstop (Nat.succ_ne_zero stop)
  quiet := fun _ => ⟨rfl, rfl⟩
  debounced := Or.inr ⟨fun _ stop h => absurd h.lt_length (Nat.not_lt_zero stop), rfl⟩

section

variable (h : Tracks threshold samples s) (sample : Sample)

include h sample

/-- The run of a new sample, and the moment it began. -/
theorem current_step : ∃ start, RunOf (samples ++ [sample]) sample.2 start samples.length ∧
      ∀ change, s.sinceAfter sample = some change →
        (samples ++ [sample])[start]? = some (change, sample.2) := by
  by_cases hchange : sample.2 = s.last
  · have hsince : s.sinceAfter sample = s.since := if_neg (not_not_intro hchange)
    rw [hsince]
    cases hlength : samples.length with
    | zero =>
        -- The first sample is off, as the signal was before.
        have hnil := List.eq_nil_of_length_eq_zero hlength
        subst hnil
        refine ⟨0, runOf_snoc_change sample fun j hj => absurd hj (Nat.succ_ne_zero j), ?_⟩
        rw [(h.started rfl).2]
        exact fun change hnone => nomatch hnone
    | succ n =>
        rcases h.current n hlength.symm with ⟨start, hrun, hmoment⟩
        rw [← hchange] at hrun hmoment
        refine ⟨start, hlength ▸ runOf_snoc_same sample hrun hlength.symm, fun change hsome => ?_⟩
        have horder := hrun.order
        rw [List.getElem?_append_left (by omega)]
        exact hmoment change hsome
  · have hsince : s.sinceAfter sample = some sample.1 := if_pos hchange
    refine ⟨samples.length, runOf_snoc_change sample fun j hj => ?_, fun change hsome => ?_⟩
    · rcases h.current j hj with ⟨start, hrun, -⟩
      rcases hrun.same j hrun.order (Nat.le_refl j) with ⟨t, ht⟩
      have hvalue : s.last = !sample.2 := Bool.eq_not.mpr fun heq => hchange heq.symm
      exact ⟨t, by rw [ht, hvalue]⟩
    · rw [hsince, Option.some.injEq] at hsome
      rw [List.getElem?_concat_length, ← hsome]

/-- Whether the run of a new sample lasts there, by the moment of the last change. -/
theorem lastsAt_step_iff (change : ℕ) (hchange : s.sinceAfter sample = some change) :
    LastsAt threshold (samples ++ [sample]) sample.2 samples.length ↔
      threshold ≤ sample.1 - change := by
  rcases h.current_step sample with ⟨start, hrun, hmoment⟩
  have hstart := hmoment change hchange
  constructor
  · rintro ⟨start', t, t', hrun', ht, ht', hlong⟩
    -- It is the same run, so it began at the same moment.
    rw [← (hrun.start_unique hrun').2, hstart, Option.some.injEq, Prod.mk.injEq] at ht
    rw [List.getElem?_concat_length, Option.some.injEq] at ht'
    rw [ht.1, ht']
    exact hlong
  · intro hlong
    exact ⟨start, change, sample.1, hrun, hstart, List.getElem?_concat_length, hlong⟩

theorem quiet_step (hnone : s.sinceAfter sample = none) : sample.2 = false ∧ s.out = false := by
  unfold Debouncer.sinceAfter at hnone
  split_ifs at hnone with hchange
  have hquiet := h.quiet hnone
  rw [not_not] at hchange
  exact ⟨hchange.trans hquiet.1, hquiet.2⟩

theorem step : Tracks threshold (samples ++ [sample]) (s.step threshold sample) where
  started := fun hnil => absurd hnil (List.append_ne_nil_of_right_ne_nil _ (List.cons_ne_nil _ _))
  current := by
    intro stop hstop
    rw [List.length_append, List.length_singleton, Nat.add_right_cancel_iff] at hstop
    rw [hstop]
    exact h.current_step sample
  quiet := by
    intro hnone
    have hnone' : s.sinceAfter sample = none := hnone
    have hquiet := h.quiet_step sample hnone'
    refine ⟨hquiet.1, ?_⟩
    rw [Debouncer.step, hnone']
    exact hquiet.2
  debounced := by
    unfold Debouncer.step
    cases hchange : s.sinceAfter sample with
    | none =>
        -- Both the sample and the accepted value are off.
        have hquiet := h.quiet_step sample hchange
        by_cases hlasts : LastsAt threshold (samples ++ [sample]) sample.2 samples.length
        · have hnew := debounced_snoc_of_lasts sample hlasts
          rw [hquiet.1, ← hquiet.2] at hnew
          exact hnew
        · exact debounced_snoc_of_not sample hlasts h.debounced
    | some change =>
        have hiff := h.lastsAt_step_iff sample change hchange
        simp only [Option.any_some, decide_eq_true_eq]
        split_ifs with hlong
        · exact debounced_snoc_of_lasts sample (hiff.mpr hlong)
        · exact debounced_snoc_of_not sample (fun hlasts => hlong (hiff.mp hlasts)) h.debounced

end

end Tracks

theorem tracks_run (threshold : ℕ) (samples : List Sample) :
    Tracks threshold samples (run (Debouncer.step threshold) .initial samples) := by
  induction samples using List.reverseRecOn with
  | nil => exact .initial
  | append_singleton samples sample ih =>
      rw [run_append]
      exact ih.step sample

/-- The accepted value is that of the run that lasted most recently. -/
theorem debounced_run (threshold : ℕ) (samples : List Sample) :
    Debounced threshold samples (run (Debouncer.step threshold) .initial samples).out :=
  (tracks_run threshold samples).debounced

end OpenFlight
