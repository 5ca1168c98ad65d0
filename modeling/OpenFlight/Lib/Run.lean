import Mathlib.Data.List.Basic

/-!
# Runs of a Deterministic Machine

Folding a step function over a list of inputs, and what a fact about one step
says about a whole run.

A component of a program is a state type with a step function, and a property
of it is rarely about one step. It is either a property of every state a
run passes through, or a relation between each step and the state it was
taken from. `Always` is the first shape and `StepsMeet` the second, both by
recursion on the inputs so that an induction over a run unfolds them one
input at a time. `always_iff_states` gives the reading a statement wants:
every prefix of the run.

`always_iff_stepsMeet` is the lemma that turns a guard into an exact one. If
a step that meets the guard keeps the property, and a step that does not meet
it breaks the property at once, then the property survives a run exactly when
every step of the run meets the guard. Both halves are facts about one step;
the induction is done here.

A run can also be compared with the one from which some of the inputs have been
left out. The inputs that stay are the visible ones. If a relation between the
states of the two runs is kept by every visible input, taken in both, and by every
other input, taken in the first run alone, then it holds at the end, and the visible
inputs are answered alike. So what a machine does for one of its users is
independent of the others as soon as the relation says so about one step.

## Main definitions

* `run`: The state after a list of inputs.
* `StepsMeet`: Every step of a run meets a condition where it is taken.
* `Always`: Every state a run passes through has a property.
* `responses`: What a machine answers to a list of inputs.
* `finalState`, `answers`: The state after some inputs, and what the visible inputs
  are answered.

## Theorems

* `always_iff_stepsMeet`: A property survives exactly under an exact guard.
* `responses_append`: The answers to the parts of a list of inputs.
* `run_eq_of_stepsMeet`, `responses_eq_of_stepsMeet`: Two machines that take the
  same steps under a guard, along a run whose steps all meet it.
* `purge_related`: A run and the purged run are related, and agree on the answers.
-/

namespace OpenFlight

section

variable {σ α : Type*} (step : σ → α → σ)

/-- The state the machine is in after taking the inputs in order. -/
def run (s : σ) (inputs : List α) : σ :=
  inputs.foldl step s

/-- Every step of the run meets `ok` in the state it is taken from. -/
def StepsMeet (ok : σ → α → Prop) : σ → List α → Prop
  | _, [] => True
  | s, a :: rest => ok s a ∧ StepsMeet ok (step s a) rest

instance decidableStepsMeet (ok : σ → α → Prop) [∀ s a, Decidable (ok s a)] :
    (s : σ) → (inputs : List α) → Decidable (StepsMeet step ok s inputs)
  | _, [] => .isTrue trivial
  | s, a :: rest =>
      have := decidableStepsMeet ok (step s a) rest
      inferInstanceAs (Decidable (ok s a ∧ StepsMeet step ok (step s a) rest))

/-- The property holds in every state of the run, the first and the last included. -/
def Always (P : σ → Prop) : σ → List α → Prop
  | s, [] => P s
  | s, a :: rest => P s ∧ Always P (step s a) rest

@[simp]
theorem run_nil (s : σ) : run step s [] = s := rfl

@[simp]
theorem run_cons (s : σ) (a : α) (rest : List α) :
    run step s (a :: rest) = run step (step s a) rest := rfl

theorem run_append (s : σ) (first second : List α) :
    run step s (first ++ second) = run step (run step s first) second :=
  List.foldl_append

/-- A property that holds at the start and that every input in the list keeps holds at the end. -/
theorem run_invariant_of_mem (P : σ → Prop) (inputs : List α)
    (hstep : ∀ a ∈ inputs, ∀ s, P s → P (step s a)) (s : σ) (h0 : P s) :
    P (run step s inputs) := by
  induction inputs generalizing s with
  | nil => exact h0
  | cons a rest ih =>
      rw [run_cons]
      refine ih (fun b hb => hstep b (List.mem_cons_of_mem a hb)) _ ?_
      exact hstep a List.mem_cons_self s h0

/-- A property that every step keeps holds after every run. -/
theorem run_invariant (P : σ → Prop) (hstep : ∀ s a, P s → P (step s a))
    (s : σ) (inputs : List α) (h0 : P s) : P (run step s inputs) :=
  run_invariant_of_mem step P inputs (fun a _ s hs => hstep s a hs) s h0

/-- A part of the state that a single one of the inputs changes is changed by it once. -/
theorem run_seen_once {β : Type*} (view : σ → β) (change : β → β) (a : α)
    (hself : ∀ s, view (step s a) = change (view s))
    (hother : ∀ s b, b ≠ a → view (step s b) = view s) (inputs : List α)
    (hnodup : inputs.Nodup) (hmem : a ∈ inputs) (s : σ) :
    view (run step s inputs) = change (view s) := by
  induction inputs generalizing s with
  | nil => exact absurd hmem List.not_mem_nil
  | cons b rest ih =>
      rw [List.nodup_cons] at hnodup
      rw [run_cons]
      by_cases hhead : b = a
      · -- The rest does not change it again.
        subst hhead
        rw [← hself s]
        refine run_invariant_of_mem step (fun t => view t = view (step s b)) rest ?_ _ rfl
        intro c hc t ht
        have hne : c ≠ b := fun heq => hnodup.1 (heq ▸ hc)
        exact (hother t c hne).trans ht
      · rw [ih hnodup.2 (List.mem_of_ne_of_mem (Ne.symm hhead) hmem), hother s b hhead]

/-- `Always` is a property of every prefix. -/
theorem always_iff_states (P : σ → Prop) (s : σ) (inputs : List α) :
    Always step P s inputs ↔ ∀ pre post, inputs = pre ++ post → P (run step s pre) := by
  induction inputs generalizing s with
  | nil =>
      constructor
      · intro h pre post hsplit
        rw [(List.nil_eq_append_iff.mp hsplit).1]
        exact h
      · intro h
        exact h [] [] rfl
  | cons a rest ih =>
      rw [Always, ih]
      constructor
      · rintro ⟨hs, hrest⟩ pre post hsplit
        cases pre with
        | nil => exact hs
        | cons b pre =>
            -- The prefix is not empty, so it starts with the run's first input.
            rw [List.cons_append, List.cons.injEq] at hsplit
            rw [← hsplit.1]
            exact hrest pre post hsplit.2
      · intro h
        refine ⟨h [] (a :: rest) rfl, fun pre post hsplit => ?_⟩
        exact h (a :: pre) post (by rw [hsplit, List.cons_append])

/-- A property along a run is one along its parts. -/
theorem always_append (P : σ → Prop) (s : σ) (first second : List α) :
    Always step P s (first ++ second) ↔
      Always step P s first ∧ Always step P (run step s first) second := by
  induction first generalizing s with
  | nil =>
      refine ⟨fun h => ⟨?_, h⟩, fun h => h.2⟩
      exact (always_iff_states step P s second).mp h [] second rfl
  | cons a rest ih => rw [List.cons_append, Always, Always, run_cons, ih, and_assoc]

theorem always_mono (P Q : σ → Prop) (h : ∀ s, P s → Q s) (s : σ) (inputs : List α)
    (hP : Always step P s inputs) : Always step Q s inputs := by
  induction inputs generalizing s with
  | nil => exact h s hP
  | cons a rest ih => exact ⟨h s hP.1, ih _ hP.2⟩

/-- An invariant that every step under the guard keeps, along a run whose steps
    all meet the guard. -/
theorem always_of_stepsMeet (I P : σ → Prop) (ok : σ → α → Prop)
    (hstep : ∀ s a, I s → ok s a → I (step s a)) (hP : ∀ s, I s → P s) (s : σ)
    (inputs : List α) (h0 : I s) (h : StepsMeet step ok s inputs) : Always step P s inputs := by
  induction inputs generalizing s with
  | nil => exact hP s h0
  | cons a rest ih => exact ⟨hP s h0, ih (step s a) (hstep s a h0 h.1) h.2⟩

/-- A condition that an invariant gives for the inputs in the list is met all along. -/
theorem stepsMeet_of_mem (I : σ → Prop) (ok : σ → α → Prop) (inputs : List α)
    (hstep : ∀ a ∈ inputs, ∀ s, I s → ok s a ∧ I (step s a)) (s : σ) (h0 : I s) :
    StepsMeet step ok s inputs := by
  induction inputs generalizing s with
  | nil => trivial
  | cons a rest ih =>
      have hhead := hstep a List.mem_cons_self s h0
      exact ⟨hhead.1, ih (fun b hb => hstep b (List.mem_cons_of_mem a hb)) _ hhead.2⟩

/-- A condition that an invariant gives under another one is met wherever that
    one is met all along. -/
theorem stepsMeet_of_stepsMeet (I : σ → Prop) (ok ok' : σ → α → Prop)
    (hstep : ∀ s a, I s → ok s a → ok' s a ∧ I (step s a)) (s : σ) (inputs : List α) (h0 : I s)
    (h : StepsMeet step ok s inputs) : StepsMeet step ok' s inputs := by
  induction inputs generalizing s with
  | nil => trivial
  | cons a rest ih =>
      have hhead := hstep s a h0 h.1
      exact ⟨hhead.1, ih (step s a) hhead.2 h.2⟩

theorem stepsMeet_and (ok ok' : σ → α → Prop) (s : σ) (inputs : List α) :
    StepsMeet step (fun s a => ok s a ∧ ok' s a) s inputs ↔
      StepsMeet step ok s inputs ∧ StepsMeet step ok' s inputs := by
  induction inputs generalizing s with
  | nil => exact (and_self_iff).symm
  | cons a rest ih =>
      rw [StepsMeet, StepsMeet, StepsMeet, ih, and_and_and_comm]

/-- A condition on the inputs alone is met along with any other one. -/
theorem stepsMeet_and_mem (ok : σ → α → Prop) (Q : α → Prop) (inputs : List α)
    (hQ : ∀ a ∈ inputs, Q a) (s : σ) (h : StepsMeet step ok s inputs) :
    StepsMeet step (fun s a => ok s a ∧ Q a) s inputs := by
  induction inputs generalizing s with
  | nil => trivial
  | cons a rest ih =>
      rw [List.forall_mem_cons] at hQ
      exact ⟨⟨h.1, hQ.1⟩, ih hQ.2 _ h.2⟩

/-- Two conditions that agree wherever the side property holds are met by the same runs. -/
theorem stepsMeet_congr (J : σ → Prop) (ok ok' : σ → α → Prop)
    (hJ : ∀ s a, J s → J (step s a)) (hok : ∀ s a, J s → (ok s a ↔ ok' s a))
    (s : σ) (inputs : List α) (hJ0 : J s) :
    StepsMeet step ok s inputs ↔ StepsMeet step ok' s inputs := by
  induction inputs generalizing s with
  | nil => exact Iff.rfl
  | cons a rest ih =>
      rw [StepsMeet, StepsMeet, hok s a hJ0, ih (step s a) (hJ s a hJ0)]

/-- A run beside which something is recorded meets a condition on the machine
    exactly if the run of the machine does. -/
theorem stepsMeet_view {τ : Type*} (step' : τ → α → τ) (view : τ → σ)
    (hview : ∀ t a, view (step' t a) = step (view t) a) (ok : σ → α → Prop) (t : τ)
    (inputs : List α) :
    StepsMeet step' (fun t a => ok (view t) a) t inputs ↔ StepsMeet step ok (view t) inputs := by
  induction inputs generalizing t with
  | nil => exact Iff.rfl
  | cons a rest ih => rw [StepsMeet, StepsMeet, ih, hview]

/-- Two conditions that agree wherever the side property holds, and that keep it,
    are met by the same runs. -/
theorem stepsMeet_iff_of_keeps (J : σ → Prop) (ok ok' : σ → α → Prop)
    (hJ : ∀ s a, J s → ok s a → J (step s a)) (hok : ∀ s a, J s → (ok s a ↔ ok' s a))
    (s : σ) (inputs : List α) (hJ0 : J s) :
    StepsMeet step ok s inputs ↔ StepsMeet step ok' s inputs := by
  induction inputs generalizing s with
  | nil => exact Iff.rfl
  | cons a rest ih =>
      rw [StepsMeet, StepsMeet, ← hok s a hJ0]
      exact and_congr_right fun hhead => ih (step s a) (hJ s a hJ0 hhead)

/-- A property survives a run exactly when every step meets the guard, given that a guarded step
    keeps it and an unguarded one breaks it at once. The side property `J` is one that every step
    keeps, for the facts about the state that the two step lemmas lean on. -/
theorem always_iff_stepsMeet (J P : σ → Prop) (ok : σ → α → Prop) (hJ : ∀ s a, J s → J (step s a))
    (hkeep : ∀ s a, J s → P s → ok s a → P (step s a))
    (hbreak : ∀ s a, J s → P s → ¬ ok s a → ¬ P (step s a))
    (s : σ) (inputs : List α) (hJ0 : J s) (hP0 : P s) :
    Always step P s inputs ↔ StepsMeet step ok s inputs := by
  induction inputs generalizing s with
  | nil => exact ⟨fun _ => trivial, fun _ => hP0⟩
  | cons a rest ih =>
      rw [Always, StepsMeet]
      by_cases hok : ok s a
      · rw [ih (step s a) (hJ s a hJ0) (hkeep s a hJ0 hP0 hok)]
        exact ⟨fun h => ⟨hok, h.2⟩, fun h => ⟨hP0, h.2⟩⟩
      · -- The step breaks the property, and the state it leads to is on the run.
        refine ⟨fun h => ?_, fun h => absurd h.1 hok⟩
        have hnext : P (step s a) :=
          (always_iff_states step P (step s a) rest).mp h.2 [] rest rfl
        exact absurd hnext (hbreak s a hJ0 hP0 hok)

/-- Two machines that take the same steps under a guard end in the same state
    after a run of the one whose steps all meet it. -/
theorem run_eq_of_stepsMeet (step' : σ → α → σ) (J : σ → Prop) (ok : σ → α → Prop)
    (inputs : List α) (hJ : ∀ a ∈ inputs, ∀ s, J s → J (step s a))
    (heq : ∀ a ∈ inputs, ∀ s, J s → ok s a → step' s a = step s a)
    (s : σ) (hJ0 : J s) (h : StepsMeet step ok s inputs) :
    run step' s inputs = run step s inputs := by
  induction inputs generalizing s with
  | nil => rfl
  | cons a rest ih =>
      rw [run_cons, run_cons, heq a List.mem_cons_self s hJ0 h.1]
      exact ih (fun b hb => hJ b (List.mem_cons_of_mem a hb))
        (fun b hb => heq b (List.mem_cons_of_mem a hb)) _ (hJ a List.mem_cons_self s hJ0) h.2

end

section

variable {σ α ω : Type*} (step : σ → α → σ × ω)

/-- The answers of a machine to the inputs, in order. -/
def responses : σ → List α → List ω
  | _, [] => []
  | s, a :: rest => (step s a).2 :: responses (step s a).1 rest

@[simp]
theorem length_responses (s : σ) (inputs : List α) :
    (responses step s inputs).length = inputs.length := by
  induction inputs generalizing s with
  | nil => rfl
  | cons a rest ih => rw [responses, List.length_cons, List.length_cons, ih]

/-- What a machine answers to the parts of a list, one after the other. -/
theorem responses_append (s : σ) (first second : List α) : responses step s (first ++ second) =
      responses step s first ++ responses step (run (fun s a => (step s a).1) s first) second := by
  induction first generalizing s with
  | nil => rfl
  | cons a rest ih => rw [List.cons_append, responses, responses, run_cons, ih, List.cons_append]

/-- Two machines that take the same steps under a guard answer alike. -/
theorem responses_eq_of_stepsMeet (step' : σ → α → σ × ω) (J : σ → Prop) (ok : σ → α → Prop)
    (hJ : ∀ s a, J s → J (step s a).1) (heq : ∀ s a, J s → ok s a → step' s a = step s a)
    (s : σ) (inputs : List α) (hJ0 : J s)
    (h : StepsMeet (fun s a => (step s a).1) ok s inputs) :
    responses step' s inputs = responses step s inputs := by
  induction inputs generalizing s with
  | nil => rfl
  | cons a rest ih =>
      rw [responses, responses, heq s a hJ0 h.1, ih _ (hJ s a hJ0) h.2]

end

section

variable {σ α ω : Type*} (step : σ → α → σ × ω) (visible : α → Bool)

/-- The state after some inputs. -/
def finalState (s : σ) : List α → σ
  | [] => s
  | a :: rest => finalState (step s a).1 rest

/-- The answers to the visible inputs, in order. -/
def answers (s : σ) : List α → List ω
  | [] => []
  | a :: rest =>
      if visible a then (step s a).2 :: answers (step s a).1 rest
      else answers (step s a).1 rest

variable {step visible}

/-- A relation that visible inputs keep in step, and other inputs keep on their own,
    relates a run to the purged one. -/
theorem purge_related (R : σ → σ → Prop) (inputs : List α)
    (hvisible : ∀ a ∈ inputs, visible a = true → ∀ s t, R s t →
      (step s a).2 = (step t a).2 ∧ R (step s a).1 (step t a).1)
    (hother : ∀ a ∈ inputs, visible a = false → ∀ s t, R s t → R (step s a).1 t)
    (s t : σ) (h : R s t) :
    R (finalState step s inputs) (finalState step t (inputs.filter visible)) ∧
    answers step visible s inputs = answers step visible t (inputs.filter visible) := by
  induction inputs generalizing s t with
  | nil => exact ⟨h, rfl⟩
  | cons a rest ih =>
      have htail := ih (fun b hb => hvisible b (List.mem_cons_of_mem a hb))
        (fun b hb => hother b (List.mem_cons_of_mem a hb))
      cases hvis : visible a with
      | false =>
          have hstep := hother a List.mem_cons_self hvis s t h
          rw [List.filter_cons_of_neg (by simp [hvis]), finalState, answers, hvis]
          exact htail _ _ hstep
      | true =>
          rcases hvisible a List.mem_cons_self hvis s t h with ⟨hanswer, hstep⟩
          rcases htail _ _ hstep with ⟨hfinal, hrest⟩
          rw [List.filter_cons_of_pos hvis]
          refine ⟨hfinal, ?_⟩
          rw [answers, answers, if_pos hvis, if_pos hvis, hanswer, hrest]

end

end OpenFlight
