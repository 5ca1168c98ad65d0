import Mathlib.Data.List.Basic

/-!
# Machines with a Program Counter

Running a machine that may halt, and placing code inside a program.

`exec` runs a machine for a bounded number of steps. A bound is only an
artefact of the definition when it is known to be large enough, so statements
go through `Reaches`, which counts the steps of a run. `exec_of_reaches` turns
a run that ends in a halted state into the value of `exec` for every bound from
its length on. What a machine does on the way is its `trace`: what is observed
of the states that it steps from, in order.

A compiler proof works on fragments. `EmbeddedAt` says that a fragment stands
in a program from an address on, and splits along appends, so that the proof of
a compound fragment hands each part to the proof of that part.

## Main definitions

* `exec`: The state after at most a number of steps.

## Theorems

* `reaches_trans`, `reaches_one`: Runs compose.
* `exec_lockstep`: Two machines that keep in step.
-/

namespace OpenFlight

section

variable {σ : Type*} (step : σ → Option σ)

/-- The state after `fuel` steps, or where the machine halted before. -/
def exec : Nat → σ → σ
  | 0, s => s
  | fuel + 1, s =>
      match step s with
      | none => s
      | some t => exec fuel t

/-- The machine gets from one state to another in exactly `n` steps. -/
def Reaches : Nat → σ → σ → Prop
  | 0, s, t => s = t
  | n + 1, s, t => ∃ u, step s = some u ∧ Reaches n u t

variable {step}

theorem reaches_one {s t : σ} (h : step s = some t) : Reaches step 1 s t :=
  ⟨t, h, rfl⟩

theorem reaches_trans {n m : Nat} {s t u : σ} (hst : Reaches step n s t)
    (htu : Reaches step m t u) : Reaches step (n + m) s u := by
  induction n generalizing s with
  | zero =>
      have heq : s = t := hst
      rw [heq, Nat.zero_add]
      exact htu
  | succ n ih =>
      rcases hst with ⟨v, hstep, hrest⟩
      rw [show n + 1 + m = (n + m) + 1 by omega]
      exact ⟨v, hstep, ih hrest⟩

/-- A run that halts is what `exec` computes. -/
theorem exec_of_reaches {n fuel : Nat} {s t : σ} (h : Reaches step n s t) (hhalt : step t = none)
    (hfuel : n ≤ fuel) : exec step fuel s = t := by
  induction n generalizing s fuel with
  | zero =>
      have heq : s = t := h
      rw [heq]
      cases fuel with
      | zero => rfl
      | succ fuel => rw [exec, hhalt]
  | succ n ih =>
      rcases h with ⟨v, hstep, hrest⟩
      cases fuel with
      | zero => omega
      | succ fuel =>
          rw [exec, hstep]
          exact ih hrest (by omega)

/-- Two machines that keep in step as long as the second one is in good states
    are related after any number of steps. -/
theorem exec_lockstep {τ : Type*} {step' : τ → Option τ} (R : σ → τ → Prop) (ok : τ → Prop)
    (hstep : ∀ s t, R s t → ok t → (step s = none ∧ step' t = none) ∨
      ∃ s' t', step s = some s' ∧ step' t = some t' ∧ R s' t')
    (fuel : Nat) (s : σ) (t : τ) (h : R s t) (hok : ∀ n < fuel, ok (exec step' n t)) :
    R (exec step fuel s) (exec step' fuel t) := by
  induction fuel generalizing s t with
  | zero => exact h
  | succ fuel ih =>
      rcases hstep s t h (hok 0 (Nat.succ_pos fuel)) with ⟨hs, ht⟩ | ⟨s', t', hs, ht, hnext⟩
      · rw [exec, exec, hs, ht]
        exact h
      · rw [exec, exec, hs, ht]
        refine ih s' t' hnext fun n hn => ?_
        have hlater := hok (n + 1) (Nat.succ_lt_succ hn)
        rwa [exec, ht] at hlater

variable (step) {β : Type*} (observe : σ → Option β)

/-- What is observed of the states that the machine steps from. -/
def trace : Nat → σ → List β
  | 0, _ => []
  | fuel + 1, s =>
      match step s with
      | none => []
      | some t => (observe s).toList ++ trace fuel t

variable {step}

/-- The trace of a run in two parts. -/
theorem trace_add {n : Nat} (m : Nat) {s t : σ} (h : Reaches step n s t) :
    trace step observe (n + m) s = trace step observe n s ++ trace step observe m t := by
  induction n generalizing s with
  | zero =>
      have heq : s = t := h
      rw [heq, Nat.zero_add]
      rfl
  | succ n ih =>
      rcases h with ⟨v, hstep, hrest⟩
      rw [show n + 1 + m = (n + m) + 1 by omega, trace, trace, hstep]
      simp only [ih hrest, List.append_assoc]

/-- The trace of a run that halts. -/
theorem trace_of_reaches {n fuel : Nat} {s t : σ} (h : Reaches step n s t)
    (hhalt : step t = none) (hfuel : n ≤ fuel) :
    trace step observe fuel s = trace step observe n s := by
  rcases Nat.exists_eq_add_of_le hfuel with ⟨m, hm⟩
  have hrest : trace step observe m t = [] := by
    cases m with
    | zero => rfl
    | succ m => rw [trace, hhalt]
  rw [hm, trace_add observe m h, hrest, List.append_nil]

end

section

variable {ι : Type*}

/-- The fragment stands in the program from address `base` on. -/
def EmbeddedAt (program : List ι) (base : Nat) (fragment : List ι) : Prop :=
  ∃ before after, program = before ++ fragment ++ after ∧ before.length = base

/-- An append is embedded when both halves are. -/
theorem embeddedAt_append (program first second : List ι) (base : Nat)
    (h : EmbeddedAt program base (first ++ second)) :
    EmbeddedAt program base first ∧ EmbeddedAt program (base + first.length) second := by
  rcases h with ⟨before, after, heq, hbase⟩
  refine ⟨⟨before, second ++ after, ?_, hbase⟩, ⟨before ++ first, after, ?_, ?_⟩⟩
  · rw [heq]
    simp
  · rw [heq]
    simp
  · rw [List.length_append, hbase]

/-- The instruction at the address of a fragment. -/
theorem embeddedAt_head (program rest : List ι) (op : ι) (base : Nat)
    (h : EmbeddedAt program base (op :: rest)) :
    program[base]? = some op ∧ EmbeddedAt program (base + 1) rest := by
  have hsplit := embeddedAt_append program [op] rest base h
  refine ⟨?_, hsplit.2⟩
  rcases hsplit.1 with ⟨before, after, heq, hbase⟩
  rw [heq, ← hbase, List.append_assoc, List.getElem?_append_right (Nat.le_refl _), Nat.sub_self]
  rfl

end

end OpenFlight
