import Mathlib.Data.Finset.Card
import OpenFlight.Lib.Machine

/-!
# Halting and Cycles

When a machine with finitely many live states halts.

The step of a machine is a function, so a run that comes back to a state goes
through the states in between for ever. With finitely many states to step
from, this is the only way not to halt: a run that is longer than there are
live states has met one of them twice. `halts_iff_no_cycle` puts both halves
together, and `halts_within` gives the number of steps.

## Main definitions

* `Halts`: The run from a state ends.

## Theorems

* `reaches_prefix`: A run passes through the states that lie on it.
* `cycle_of_long_run`: A run longer than the list of live states meets one.
* `halts_iff_no_cycle`, `halts_within`: Halting is meeting no cycle, and takes
  no more steps than there are live states.
-/

namespace OpenFlight

section

open Relation

variable {σ : Type*} (step : σ → Option σ)

/-- The machine steps from one state to the other. -/
def StepsTo (s t : σ) : Prop :=
  step s = some t

/-- The run from the state comes to one without a step. -/
def Halts (s : σ) : Prop :=
  ∃ n t, Reaches step n s t ∧ step t = none

/-- The run from the state comes to one that it comes back to. -/
def MeetsCycle (s : σ) : Prop :=
  ∃ t, ReflTransGen (StepsTo step) s t ∧ TransGen (StepsTo step) t t

variable {step} {s t : σ} {n : Nat}

theorem reachable_of_reaches (h : Reaches step n s t) : ReflTransGen (StepsTo step) s t := by
  induction n generalizing s with
  | zero =>
      have heq : s = t := h
      rw [heq]
  | succ n ih =>
      rcases h with ⟨u, hstep, hrest⟩
      exact ReflTransGen.head hstep (ih hrest)

theorem reaches_of_reachable (h : ReflTransGen (StepsTo step) s t) : ∃ n, Reaches step n s t := by
  induction h using ReflTransGen.head_induction_on with
  | refl => exact ⟨0, rfl⟩
  | head hstep _ ih =>
      rcases ih with ⟨n, hn⟩
      exact ⟨n + 1, _, hstep, hn⟩

/-- The states on a run, with and without a count. -/
theorem reachable_iff_reaches (s t : σ) :
    ReflTransGen (StepsTo step) s t ↔ ∃ n, Reaches step n s t :=
  ⟨reaches_of_reachable, fun ⟨_, hn⟩ => reachable_of_reaches hn⟩

theorem transGen_of_reaches (hn : 0 < n) (h : Reaches step n s t) :
    TransGen (StepsTo step) s t := by
  cases n with
  | zero => omega
  | succ n =>
      rcases h with ⟨u, hstep, hrest⟩
      exact TransGen.head' hstep (reachable_of_reaches hrest)

theorem reaches_of_transGen (h : TransGen (StepsTo step) s t) : ∃ n, Reaches step (n + 1) s t := by
  rcases TransGen.head'_iff.mp h with ⟨u, hstep, hrest⟩
  rcases reaches_of_reachable hrest with ⟨n, hn⟩
  exact ⟨n, u, hstep, hn⟩

/-- The step is a function, so a run passes through every state that lies on
    it, at the same count. -/
theorem reaches_prefix {m : Nat} {u : σ} (hn : Reaches step n s t) (hm : Reaches step m s u)
    (hle : n ≤ m) : Reaches step (m - n) t u := by
  induction n generalizing s m with
  | zero =>
      have heq : s = t := hn
      rwa [← heq, Nat.sub_zero]
  | succ n ih =>
      rcases hn with ⟨v, hstep, hrest⟩
      cases m with
      | zero => omega
      | succ m =>
          rcases hm with ⟨w, hstep', hrest'⟩
          have hvw : v = w := by
            rw [hstep] at hstep'
            exact Option.some.inj hstep'
          rw [show m + 1 - (n + 1) = m - n by omega]
          exact ih hrest (hvw ▸ hrest') (by omega)

/-- A run in two parts, cut at any count. -/
theorem reaches_split {m : Nat} {u : σ} (h : Reaches step (n + m) s u) :
    ∃ t, Reaches step n s t ∧ Reaches step m t u := by
  induction n generalizing s with
  | zero => exact ⟨s, rfl, by rwa [Nat.zero_add] at h⟩
  | succ n ih =>
      rw [show n + 1 + m = (n + m) + 1 by omega] at h
      rcases h with ⟨v, hstep, hrest⟩
      rcases ih hrest with ⟨t, hfirst, hsecond⟩
      exact ⟨t, ⟨v, hstep, hfirst⟩, hsecond⟩

/-- A run never goes on after a state without a step. -/
theorem reaches_le_of_halted {m : Nat} {u : σ} (hn : Reaches step n s t) (hhalt : step t = none)
    (hm : Reaches step m s u) : m ≤ n := by
  by_contra hlt
  have hrest := reaches_prefix hn hm (by omega)
  rw [show m - n = (m - n - 1) + 1 by omega] at hrest
  rcases hrest with ⟨v, hstep, -⟩
  rw [hhalt] at hstep
  cases hstep

/-- Going around a cycle makes runs of any length. -/
theorem reaches_around {k : Nat} (h : Reaches step (k + 1) t t) (m : Nat) :
    ∃ n ≥ m, Reaches step n t t := by
  induction m with
  | zero => exact ⟨0, Nat.le_refl 0, rfl⟩
  | succ m ih =>
      rcases ih with ⟨n, hle, hn⟩
      exact ⟨n + (k + 1), by omega, reaches_trans hn h⟩

/-- A run that meets a cycle does not end. -/
theorem not_halts_of_cycle (h : MeetsCycle step s) : ¬ Halts step s := by
  rintro ⟨n, u, hn, hhalt⟩
  rcases h with ⟨t, hreach, hcycle⟩
  rcases reaches_of_reachable hreach with ⟨i, hi⟩
  rcases reaches_of_transGen hcycle with ⟨k, hk⟩
  rcases reaches_around hk (n + 1) with ⟨m, hle, hm⟩
  have hbound := reaches_le_of_halted hn hhalt (reaches_trans hi hm)
  omega

/-- A run that is longer than the list of the live states has met one of them twice. -/
theorem cycle_of_long_run (live : List σ) (hlive : ∀ s t, step s = some t → s ∈ live)
    (h : Reaches step n s t) (hlong : live.length < n) : MeetsCycle step s := by
  classical
  have hstates : ∀ i, ∃ u, i < n → Reaches step i s u ∧ u ∈ live := by
    intro i
    by_cases hi : i < n
    · rw [show n = i + (n - i) by omega] at h
      rcases reaches_split h with ⟨u, hu, hrest⟩
      rw [show n - i = (n - i - 1) + 1 by omega] at hrest
      rcases hrest with ⟨v, hstep, -⟩
      exact ⟨u, fun _ => ⟨hu, hlive u v hstep⟩⟩
    · exact ⟨s, fun hlt => absurd hlt hi⟩
  choose state hstate using hstates
  -- More positions on the run than live states, so two of them are the same state.
  have hcard : live.toFinset.card < (Finset.range n).card := by
    rw [Finset.card_range]
    exact Nat.lt_of_le_of_lt (List.toFinset_card_le live) hlong
  have hmaps : ∀ i ∈ Finset.range n, state i ∈ live.toFinset := fun i hi =>
    List.mem_toFinset.mpr (hstate i (Finset.mem_range.mp hi)).2
  rcases Finset.exists_ne_map_eq_of_card_lt_of_maps_to hcard hmaps with
    ⟨i, hi, j, hj, hne, heq⟩
  have hreach : ∀ i j, i < j → j < n → state i = state j → MeetsCycle step s := by
    intro i j hij hj heq
    have hfirst := (hstate i (by omega)).1
    have hround := reaches_prefix hfirst (hstate j hj).1 (by omega)
    rw [← heq] at hround
    exact ⟨state i, reachable_of_reaches hfirst, transGen_of_reaches (by omega) hround⟩
  rw [Finset.mem_range] at hi hj
  rcases Nat.lt_or_gt_of_ne hne with hij | hji
  · exact hreach i j hij hj heq
  · exact hreach j i hji hi heq.symm

/-- After any number of steps the machine is still running or has halted. -/
theorem reaches_or_halted (n : Nat) (s : σ) :
    (∃ t, Reaches step n s t) ∨ ∃ m t, m < n ∧ Reaches step m s t ∧ step t = none := by
  induction n with
  | zero => exact Or.inl ⟨s, rfl⟩
  | succ n ih =>
      rcases ih with ⟨t, ht⟩ | ⟨m, t, hm, ht⟩
      · cases hstep : step t with
        | none => exact Or.inr ⟨n, t, Nat.lt_succ_self n, ht, hstep⟩
        | some u => exact Or.inl ⟨u, reaches_trans ht (reaches_one hstep)⟩
      · exact Or.inr ⟨m, t, Nat.lt_succ_of_lt hm, ht⟩

/-- A run that meets no cycle ends after at most as many steps as there are live states. -/
theorem halts_within (live : List σ) (hlive : ∀ s t, step s = some t → s ∈ live)
    (h : ¬ MeetsCycle step s) : ∃ n t, n ≤ live.length ∧ Reaches step n s t ∧ step t = none := by
  rcases reaches_or_halted (live.length + 1) s with ⟨t, ht⟩ | ⟨n, t, hn, ht⟩
  · exact absurd (cycle_of_long_run live hlive ht (Nat.lt_succ_self _)) h
  · exact ⟨n, t, Nat.le_of_lt_succ hn, ht⟩

theorem halts_iff_no_cycle (live : List σ) (hlive : ∀ s t, step s = some t → s ∈ live) (s : σ) :
    Halts step s ↔ ¬ MeetsCycle step s := by
  constructor
  · exact fun h hcycle => not_halts_of_cycle hcycle h
  · intro h
    rcases halts_within live hlive h with ⟨n, t, -, ht⟩
    exact ⟨n, t, ht⟩

end

end OpenFlight
