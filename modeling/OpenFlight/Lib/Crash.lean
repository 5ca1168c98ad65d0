import Mathlib.Tactic.Common

/-!
# Programs that May Die

Programs over a durable state, and what is left when they die on the way.

A program performs operations on the state, each of which happens or does not.
Its meaning on a state is a `Trace`: the states in which it could have died
before an operation, the result it returns otherwise, and the state it returns
in. The process may still be running in that last state, so the states that a
crash can leave behind are all of these.

`Meets` is a specification with a crash condition beside the postcondition. It
is stated at one state, so that a specification can speak about the state at
the start. There is one rule for each way to build a program, and a proof
about a program follows its text.

## Main definitions

* `Trace`, `Proc`: Programs and their meaning.
* `perform`, `look`, `attempt`, `forEach`: How programs are built.
* `Trace.crashStates`: What a crash can leave behind.

## Theorems

* `meets_bind`, `meets_perform`, `meets_forEach`, …: The rules.
* `meets_bind_ok`, `meets_attempt_bind`: Sequencing where no error gets out.
-/

namespace OpenFlight

/-- What a program does from a state on. -/
structure Trace (σ ε α : Type) where
  points : List σ
  result : Except ε α
  final : σ

namespace Trace

variable {σ ε α : Type}

/-- The states that a crash can leave behind. -/
def crashStates (t : Trace σ ε α) : List σ :=
  t.points ++ [t.final]

end Trace

/-- A program over a durable state. -/
def Proc (σ ε α : Type) := σ → Trace σ ε α

namespace Proc

variable {σ ε α β : Type}

/-- Return a value. -/
def ret (a : α) : Proc σ ε α := fun s =>
  { points := [], result := .ok a, final := s }

/-- Go on with the value of a program; an error ends both. -/
def seq (x : Proc σ ε α) (f : α → Proc σ ε β) : Proc σ ε β := fun s =>
  let t := x s
  match t.result with
  | .error e => { points := t.points, result := .error e, final := t.final }
  | .ok a =>
      let u := f a t.final
      { points := t.points ++ u.points, result := u.result, final := u.final }

instance : Monad (Proc σ ε) where
  pure := ret
  bind := seq

/-- Return an error. -/
def fail (e : ε) : Proc σ ε α := fun s =>
  { points := [], result := .error e, final := s }

/-- One operation on the state, which happens or does not; a failed one leaves
    the state as it was. -/
def perform (f : σ → Except ε σ) : Proc σ ε Unit := fun s =>
  match f s with
  | .ok s' => { points := [s], result := .ok (), final := s' }
  | .error e => { points := [s], result := .error e, final := s }

/-- Look at the state. -/
def look (f : σ → Except ε α) : Proc σ ε α := fun s =>
  { points := [], result := f s, final := s }

/-- Change the part of the state that a crash does not leave behind. -/
def modify (f : σ → σ) : Proc σ ε Unit := fun s =>
  { points := [], result := .ok (), final := f s }

/-- Run a program and return how it ended. -/
def attempt (x : Proc σ ε α) : Proc σ ε (Except ε α) := fun s =>
  let t := x s
  { points := t.points, result := .ok t.result, final := t.final }

/-- Run a program for each element of a list. -/
def forEach (l : List α) (body : α → Proc σ ε Unit) : Proc σ ε Unit :=
  match l with
  | [] => pure ()
  | a :: rest => do
      body a
      forEach rest body

end Proc

open Proc

section

variable {σ ε α β : Type}

/-- From the state `s` on, every state before an operation meets the crash condition, and the result
    and the state it is returned in meet the postcondition. -/
def Meets (x : Proc σ ε α) (s : σ) (crash : σ → Prop) (post : Except ε α → σ → Prop) : Prop :=
  (∀ c ∈ (x s).points, crash c) ∧ post (x s).result (x s).final

variable (x : Proc σ ε α)

/-- A specification covers every crash. -/
theorem crashStates_of_meets (s : σ) (crash : σ → Prop) (post : Except ε α → σ → Prop)
    (h : Meets x s crash post) (hpost : ∀ r s', post r s' → crash s') :
    ∀ c ∈ (x s).crashStates, crash c := by
  intro c hc
  rcases List.mem_append.mp hc with hpoint | hfinal
  · exact h.1 c hpoint
  · rw [List.mem_singleton.mp hfinal]
    exact hpost _ _ h.2

theorem meets_mono (s : σ) (crash crash' : σ → Prop) (post post' : Except ε α → σ → Prop)
    (h : Meets x s crash post) (hcrash : ∀ c, crash c → crash' c)
    (hpost : ∀ r s', post r s' → post' r s') : Meets x s crash' post' :=
  ⟨fun c hc => hcrash c (h.1 c hc), hpost _ _ h.2⟩

theorem meets_pure (a : α) (s : σ) (crash : σ → Prop) (post : Except ε α → σ → Prop)
    (h : post (.ok a) s) : Meets (pure a : Proc σ ε α) s crash post :=
  ⟨by intro c hc; exact absurd hc List.not_mem_nil, h⟩

theorem meets_fail (e : ε) (s : σ) (crash : σ → Prop) (post : Except ε α → σ → Prop)
    (h : post (.error e) s) : Meets (fail e : Proc σ ε α) s crash post :=
  ⟨by intro c hc; exact absurd hc List.not_mem_nil, h⟩

theorem meets_look (f : σ → Except ε α) (s : σ) (crash : σ → Prop)
    (post : Except ε α → σ → Prop) (h : post (f s) s) : Meets (look f) s crash post :=
  ⟨by intro c hc; exact absurd hc List.not_mem_nil, h⟩

theorem meets_modify (f : σ → σ) (s : σ) (crash : σ → Prop) (post : Except ε Unit → σ → Prop)
    (h : post (.ok ()) (f s)) : Meets (modify f) s crash post :=
  ⟨by intro c hc; exact absurd hc List.not_mem_nil, h⟩

theorem meets_perform (f : σ → Except ε σ) (s : σ) (crash : σ → Prop)
    (post : Except ε Unit → σ → Prop) (hcrash : crash s)
    (hok : ∀ s', f s = .ok s' → post (.ok ()) s')
    (herror : ∀ e, f s = .error e → post (.error e) s) :
    Meets (perform f) s crash post := by
  unfold Meets perform
  cases hf : f s with
  | ok s' =>
      refine ⟨fun c hc => ?_, hok s' hf⟩
      rw [List.mem_singleton.mp hc]
      exact hcrash
  | error e =>
      refine ⟨fun c hc => ?_, herror e hf⟩
      rw [List.mem_singleton.mp hc]
      exact hcrash

theorem meets_attempt (s : σ) (crash : σ → Prop) (post : Except ε (Except ε α) → σ → Prop)
    (h : Meets x s crash fun r s' => post (.ok r) s') : Meets (attempt x) s crash post :=
  h

/-- A program and what follows it; the states in between are those that the
    first program returns in. -/
theorem meets_bind (f : α → Proc σ ε β) (s : σ) (crash : σ → Prop) (mid : Except ε α → σ → Prop)
    (post : Except ε β → σ → Prop) (hx : Meets x s crash mid)
    (hok : ∀ a s', mid (.ok a) s' → Meets (f a) s' crash post)
    (herror : ∀ e s', mid (.error e) s' → post (.error e) s') : Meets (x >>= f) s crash post := by
  rcases hx with ⟨hpoints, hmid⟩
  cases hr : (x s).result with
  | error e =>
      have hseq : (x >>= f) s
          = { points := (x s).points, result := .error e, final := (x s).final } := by
        change seq x f s = _
        simp only [seq, hr]
      rw [hr] at hmid
      rw [Meets, hseq]
      exact ⟨hpoints, herror e _ hmid⟩
  | ok a =>
      have hseq : (x >>= f) s
          = { points := (x s).points ++ (f a (x s).final).points,
              result := (f a (x s).final).result, final := (f a (x s).final).final } := by
        change seq x f s = _
        simp only [seq, hr]
      rw [hr] at hmid
      rcases hok a _ hmid with ⟨hlater, hpost⟩
      rw [Meets, hseq]
      refine ⟨fun c hc => ?_, hpost⟩
      rcases List.mem_append.mp hc with hearly | hlate
      · exact hpoints c hearly
      · exact hlater c hlate

/-- A program that is known to succeed, and what follows it. -/
theorem meets_bind_ok (f : α → Proc σ ε β) (s : σ) (crash : σ → Prop) (mid : α → σ → Prop)
    (post : Except ε β → σ → Prop) (hx : Meets x s crash fun r s' => ∃ a, r = .ok a ∧ mid a s')
    (hf : ∀ a s', mid a s' → Meets (f a) s' crash post) : Meets (x >>= f) s crash post := by
  refine meets_bind x f s crash _ post hx ?_ ?_
  · intro a s' h
    rcases h with ⟨b, hb, hmid⟩
    rw [Except.ok.inj hb]
    exact hf b s' hmid
  · intro e s' h
    rcases h with ⟨b, hb, -⟩
    exact absurd hb (by simp)

/-- Going on with how a program ended. -/
theorem meets_attempt_bind (f : Except ε α → Proc σ ε β) (s : σ) (crash : σ → Prop)
    (mid : Except ε α → σ → Prop) (post : Except ε β → σ → Prop) (hx : Meets x s crash mid)
    (hf : ∀ r s', mid r s' → Meets (f r) s' crash post) : Meets (attempt x >>= f) s crash post := by
  refine meets_bind_ok (attempt x) f s crash mid post ?_ hf
  refine meets_attempt x s crash _ ?_
  exact meets_mono x s crash crash mid _ hx (fun c hc => hc) fun r s' h => ⟨r, rfl, h⟩

/-- Going on with what was looked at. -/
theorem meets_look_bind (f : σ → Except ε α) (g : α → Proc σ ε β) (s : σ) (crash : σ → Prop)
    (post : Except ε β → σ → Prop) (a : α) (hf : f s = .ok a) (h : Meets (g a) s crash post) :
    Meets (look f >>= g) s crash post := by
  refine meets_bind_ok (look f) g s crash (fun b s' => b = a ∧ s' = s) post ?_ ?_
  · exact meets_look f s crash _ ⟨a, hf, rfl, rfl⟩
  · rintro _ _ ⟨rfl, rfl⟩
    exact h

/-- Going on after an operation that is known to succeed. -/
theorem meets_perform_bind (f : σ → Except ε σ) (g : Unit → Proc σ ε β) (s s' : σ)
    (crash : σ → Prop) (post : Except ε β → σ → Prop) (hf : f s = .ok s') (hcrash : crash s)
    (h : Meets (g ()) s' crash post) : Meets (perform f >>= g) s crash post := by
  refine meets_bind_ok (perform f) g s crash (fun _ t => t = s') post ?_ ?_
  · refine meets_perform f s crash _ hcrash ?_ ?_
    · intro t ht
      rw [hf] at ht
      exact ⟨(), rfl, (Except.ok.inj ht).symm⟩
    · intro e he
      rw [hf] at he
      exact absurd he (by simp)
  · rintro _ _ rfl
    exact h

/-- A loop, with an invariant that knows what is left. A turn that fails ends the loop. -/
theorem meets_forEach (l : List α) (body : α → Proc σ ε Unit) (s : σ) (crash : σ → Prop)
    (inv : List α → σ → Prop) (post : Except ε Unit → σ → Prop) (hstart : inv l s)
    (hbody : ∀ a rest s', inv (a :: rest) s' →
      Meets (body a) s' crash fun r s'' => match r with
        | .ok _ => inv rest s''
        | .error e => post (.error e) s'')
    (hend : ∀ s', inv [] s' → post (.ok ()) s') :
    Meets (forEach l body) s crash post := by
  induction l generalizing s with
  | nil => exact meets_pure () s crash post (hend s hstart)
  | cons a rest ih =>
      refine meets_bind (body a) (fun _ => forEach rest body) s crash _ post
        (hbody a rest s hstart) ?_ ?_
      · intro _ s' h
        exact ih s' h
      · intro e s' h
        exact h

end

end OpenFlight
