import Mathlib.Tactic.Common

/-!
# Computations that Keep a Ledger

A computation that may fail, and that puts down on the way what a property asks
about: the memory it reserves, the messages it sends. The ledger is kept when the
computation fails, with what was put down before.

A computation without entries is the lifting of an ordinary one. The ordinary one
may have errors of another type, as when the computation with a ledger can also
fail in a way that the ordinary one has no word for. To show that this never
happens is to show that the computation is such a lifting.

## Main definitions

* `Ledger`: The entries, and the outcome.
* `Ledger.record`, `Ledger.fail`: One entry, and a failure.

## Theorems

* `Ledger.bind_lift`: A lifting that is followed by another one.
-/

namespace OpenFlight

/-- What has been put down, and how the computation ended. -/
structure Ledger (ρ ε α : Type) where
  entries : List ρ
  outcome : Except ε α

namespace Ledger

variable {ρ ε ε' α β : Type}

/-- A value, with nothing put down. -/
def ret (a : α) : Ledger ρ ε α where
  entries := []
  outcome := .ok a

/-- Go on with the value; a failure ends both. -/
def seq (x : Ledger ρ ε α) (f : α → Ledger ρ ε β) : Ledger ρ ε β :=
  match x.outcome with
  | .error e => { entries := x.entries, outcome := .error e }
  | .ok a => { entries := x.entries ++ (f a).entries, outcome := (f a).outcome }

instance : Monad (Ledger ρ ε) where
  pure := ret
  bind := seq

/-- Put down an entry. -/
def record (r : ρ) : Ledger ρ ε Unit where
  entries := [r]
  outcome := .ok ()

/-- End with an error. -/
def fail (e : ε) : Ledger ρ ε α where
  entries := []
  outcome := .error e

/-- A computation that puts nothing down. -/
def lift (embed : ε → ε') (x : Except ε α) : Ledger ρ ε' α where
  entries := []
  outcome := x.mapError embed

section

variable (embed : ε → ε')

theorem lift_ok (a : α) : (lift embed (.ok a) : Ledger ρ ε' α) = pure a := rfl

theorem pure_bind (a : α) (f : α → Ledger ρ ε β) : (pure a >>= f) = f a := rfl

/-- What a lifting goes on to. -/
theorem bind_lift_ok {x : Except ε α} {a : α} (h : x = .ok a) (f : α → Ledger ρ ε' β) :
    (lift embed x >>= f) = f a := by
  rw [h]
  rfl

/-- A lifting and what it goes on to are one lifting, if what it goes on to is one
    for the value it returns. -/
theorem bind_lift {x : Except ε α} {f : α → Ledger ρ ε' β} {g : α → Except ε β}
    (h : ∀ a, x = .ok a → f a = lift embed (g a)) :
    (lift embed x >>= f) = lift embed (x >>= g) := by
  cases hx : x with
  | error e => rfl
  | ok a =>
      rw [lift_ok, pure_bind]
      exact h a hx

end

end Ledger

end OpenFlight
