import Mathlib.Order.Nat
import OpenFlight.Lib.Machine

/-!
# Stack Maps

How high the stack of a machine gets, from its code alone.

A stack map bounds the entries on the stack at each address of some code. It
fits the code when every instruction, reached with no more entries than its
bound, goes on to a later address with no more than the bound there. What an
instruction does to the number of entries and where it goes on is the only thing
that is known of the machine. It need not be determined: a conditional jump goes
on in two places.

Code is mapped in fragments. A fragment that is entered with at most so many
entries and left with at most so many is put before another one that is entered
with what the first one leaves. Jumps stay inside their fragment or lead just
past it.

The map says nothing of code that jumps back, which no fragment of this kind
does: a machine that follows it halts.

## Main definitions

* `Fits`: A stack map fits some code.
* `Follows`: A machine executes the code.

## Theorems

* `fits_append`, `mapped_append`: Fragments one after the other.
* `mapped_single`, `mapped_guard`: An instruction, and one that may skip a block.
* `Follows.within`: A machine keeps to the map.
* `Follows.halted`: It halts, and there is as much on the stack as at the end.
-/

namespace OpenFlight

section

variable {ι : Type*} {flow : ι → ℕ → ℕ → ℕ → ℕ → Prop}

/-- An instruction that is reached with at most as many entries as its address
    has goes on to a later address of the code or just past it. There are at
    most as many entries as that address has, and never more than `cap`. -/
def Fits (flow : ι → ℕ → ℕ → ℕ → ℕ → Prop) (cap : ℕ) (code : List ι) (base : ℕ)
    (heights : ℕ → ℕ) : Prop :=
  ∀ (k : ℕ) (op : ι), code[k]? = some op → ∀ n ≤ heights (base + k), ∀ addr n',
    flow op (base + k) n addr n' →
      base + k < addr ∧ addr ≤ base + code.length ∧ n' ≤ heights addr ∧ n' ≤ cap

/-- The code leaves at most `h'` entries when it is entered with at most `h`. -/
def Mapped (flow : ι → ℕ → ℕ → ℕ → ℕ → Prop) (cap : ℕ) (code : List ι) (base h h' : ℕ) : Prop :=
  ∃ heights, Fits flow cap code base heights ∧ h ≤ heights base ∧
    heights (base + code.length) ≤ h'

section

variable {cap base h h' h'' : ℕ}

/-- One map up to an address and another one behind it. -/
def seam (mid : ℕ) (first second : ℕ → ℕ) (addr : ℕ) : ℕ :=
  if addr ≤ mid then first addr else second addr

theorem seam_of_le {mid addr : ℕ} (first second : ℕ → ℕ) (hle : addr ≤ mid) :
    seam mid first second addr = first addr :=
  if_pos hle

theorem seam_of_lt {mid addr : ℕ} (first second : ℕ → ℕ) (hlt : mid < addr) :
    seam mid first second addr = second addr :=
  if_neg (Nat.not_le.mpr hlt)

theorem mapped_nil (hle : h ≤ h') : Mapped flow cap [] base h h' :=
  ⟨fun _ => h, fun _ _ hop => absurd hop (by simp), le_refl h, hle⟩

section

variable {first second : List ι} (hfirst : Mapped flow cap first base h h')
  (hsecond : Mapped flow cap second (base + first.length) h' h'')

include first second hfirst hsecond

/-- Two maps are one when the second fragment may be entered with what the first
    one leaves. At the seam the map is that of the first. -/
theorem fits_append : ∃ heights, Fits flow cap (first ++ second) base heights ∧ h ≤ heights base ∧
      heights (base + first.length) ≤ h' ∧
      heights (base + (first ++ second).length) ≤ h'' := by
  rcases hfirst with ⟨heights, hfits, hstart, hseam⟩
  rcases hsecond with ⟨heights', hfits', hseam', hend⟩
  refine ⟨seam (base + first.length) heights heights', ?_, ?_, ?_, ?_⟩
  · intro k op hop n hn addr n' hflow
    rw [List.length_append]
    by_cases hk : k < first.length
    · -- Inside the first fragment.
      rw [List.getElem?_append_left hk] at hop
      rw [seam_of_le _ _ (by omega)] at hn
      rcases hfits k op hop n hn addr n' hflow with ⟨hafter, hbefore, hheight, hcap⟩
      refine ⟨hafter, by omega, ?_, hcap⟩
      rw [seam_of_le _ _ hbefore]
      exact hheight
    · -- The seam belongs to the second fragment, with the entries of the first.
      rw [List.getElem?_append_right (Nat.le_of_not_lt hk)] at hop
      obtain ⟨j, rfl⟩ : ∃ j, k = first.length + j := ⟨k - first.length, by omega⟩
      rw [Nat.add_sub_cancel_left] at hop
      rw [← Nat.add_assoc] at hn hflow
      have hn' : n ≤ heights' (base + first.length + j) := by
        rcases j with _ | j
        · rw [Nat.add_zero, seam_of_le _ _ (le_refl _)] at hn
          exact hn.trans (hseam.trans hseam')
        · rwa [seam_of_lt _ _ (by omega)] at hn
      rcases hfits' j op hop n hn' addr n' hflow with ⟨hafter, hbefore, hheight, hcap⟩
      refine ⟨by omega, by omega, ?_, hcap⟩
      rw [seam_of_lt _ _ (by omega)]
      exact hheight
  · rw [seam_of_le _ _ (Nat.le_add_right _ _)]
    exact hstart
  · rw [seam_of_le _ _ (le_refl _)]
    exact hseam
  · rw [List.length_append, ← Nat.add_assoc]
    rcases second with _ | ⟨op, second⟩
    · -- An empty second fragment ends at the seam.
      rw [List.length_nil, Nat.add_zero] at hend ⊢
      rw [seam_of_le _ _ (le_refl _)]
      exact hseam.trans (hseam'.trans hend)
    · rw [seam_of_lt _ _ (by simp)]
      exact hend

theorem mapped_append : Mapped flow cap (first ++ second) base h h'' := by
  rcases fits_append hfirst hsecond with ⟨heights, hfits, hstart, -, hend⟩
  exact ⟨heights, hfits, hstart, hend⟩

end

/-- An instruction that goes on to the next one or skips a block. -/
theorem mapped_guard (op : ι) {block : List ι} (hblock : Mapped flow cap block (base + 1) h' h'')
    (hnext : ∀ n ≤ h, ∀ addr n', flow op base n addr n' →
      (addr = base + 1 ∧ n' ≤ h' ∨ addr = base + 1 + block.length ∧ n' ≤ h'') ∧ n' ≤ cap) :
    Mapped flow cap (op :: block) base h h'' := by
  rcases hblock with ⟨heights, hfits, hstart, hend⟩
  -- The end has the bound that the skip needs.
  have hraised : ∀ addr,
      heights addr ≤ Function.update heights (base + 1 + block.length) h'' addr := by
    intro addr
    by_cases hlast : addr = base + 1 + block.length
    · rw [hlast, Function.update_self]
      exact hend
    · rw [Function.update_of_ne hlast]
  refine ⟨seam base (fun _ => h) (Function.update heights (base + 1 + block.length) h''),
    ?_, ?_, ?_⟩
  · intro k op' hop n hn addr n' hflow
    rw [List.length_cons]
    rcases k with _ | k
    · -- The guard itself goes on into the block or past it.
      rw [← Option.some.inj hop, Nat.add_zero] at hflow
      rw [seam_of_le _ _ (Nat.le_of_eq (Nat.add_zero base))] at hn
      rcases hnext n hn addr n' hflow with ⟨⟨rfl, hheight⟩ | ⟨rfl, hheight⟩, hcap⟩
      · refine ⟨by omega, by omega, ?_, hcap⟩
        rw [seam_of_lt _ _ (by omega)]
        exact hheight.trans (hstart.trans (hraised _))
      · refine ⟨by omega, by omega, ?_, hcap⟩
        rw [seam_of_lt _ _ (by omega), Function.update_self]
        exact hheight
    · -- Inside the block the map is that of the block, raised at its end.
      rw [List.getElem?_cons_succ] at hop
      have hinside := (List.getElem?_eq_some_iff.mp hop).1
      have hplace : base + (k + 1) = base + 1 + k := by omega
      rw [hplace] at hn hflow
      rw [seam_of_lt _ _ (by omega), Function.update_of_ne (by omega)] at hn
      rcases hfits k op' hop n hn addr n' hflow with ⟨hafter, hbefore, hheight, hcap⟩
      refine ⟨by omega, by omega, ?_, hcap⟩
      rw [seam_of_lt _ _ (by omega)]
      exact hheight.trans (hraised _)
  · rw [seam_of_le _ _ (le_refl _)]
  · rw [List.length_cons, seam_of_lt _ _ (by omega), Nat.add_right_comm, Nat.add_assoc base,
      Nat.add_comm block.length, ← Nat.add_assoc, Function.update_self]

/-- An instruction that goes on to the next one. -/
theorem mapped_single (op : ι)
    (hnext : ∀ n ≤ h, ∀ addr n', flow op base n addr n' → addr = base + 1 ∧ n' ≤ h' ∧ n' ≤ cap) :
    Mapped flow cap [op] base h h' := by
  refine mapped_guard op (mapped_nil (le_refl h')) fun n hn addr n' hflow => ?_
  rcases hnext n hn addr n' hflow with ⟨haddr, hheight, hcap⟩
  exact ⟨.inl ⟨haddr, hheight⟩, hcap⟩

end

section

variable {σ : Type*} {step : σ → Option σ} {pc size : σ → ℕ} {code : List ι}

/-- The machine executes the code, and halts only past its end. -/
structure Follows (flow : ι → ℕ → ℕ → ℕ → ℕ → Prop) (step : σ → Option σ) (pc size : σ → ℕ)
    (code : List ι) : Prop where
  steps : ∀ s t, step s = some t → ∃ op, code[pc s]? = some op ∧
    flow op (pc s) (size s) (pc t) (size t)
  halts : ∀ s, step s = none → code.length ≤ pc s

variable {cap : ℕ} {heights : ℕ → ℕ}

section

variable (hfollows : Follows flow step pc size code) (hfits : Fits flow cap code 0 heights) (n : ℕ)
  (s : σ) (hpc : pc s ≤ code.length) (hsize : size s ≤ heights (pc s)) (hcap : size s ≤ cap)

include hfollows hfits n s hpc hsize hcap

/-- A machine that starts within a map that fits its code stays within it. -/
theorem Follows.within :
    pc (exec step n s) ≤ code.length ∧ size (exec step n s) ≤ heights (pc (exec step n s)) ∧
      size (exec step n s) ≤ cap := by
  induction n generalizing s with
  | zero => exact ⟨hpc, hsize, hcap⟩
  | succ n ih =>
      rw [exec]
      cases hstep : step s with
      | none => exact ⟨hpc, hsize, hcap⟩
      | some t =>
          rcases hfollows.steps s t hstep with ⟨op, hop, hflow⟩
          have hnext := hfits (pc s) op hop (size s)
          rw [Nat.zero_add] at hnext
          rcases hnext hsize _ _ hflow with ⟨-, hbefore, hheight, hcap'⟩
          rw [Nat.zero_add] at hbefore
          exact ih t hbefore hheight hcap'

/-- Such a machine is at the end after as many steps as there are instructions left. -/
theorem Follows.halted (hn : code.length ≤ pc s + n) : pc (exec step n s) = code.length := by
  induction n generalizing s with
  | zero => exact Nat.le_antisymm hpc hn
  | succ n ih =>
      rw [exec]
      cases hstep : step s with
      | none => exact Nat.le_antisymm hpc (hfollows.halts s hstep)
      | some t =>
          rcases hfollows.steps s t hstep with ⟨op, hop, hflow⟩
          have hnext := hfits (pc s) op hop (size s)
          rw [Nat.zero_add] at hnext
          rcases hnext hsize _ _ hflow with ⟨hafter, hbefore, hheight, hcap'⟩
          rw [Nat.zero_add] at hbefore
          -- Every step leads to a later address, so fewer instructions are left.
          exact ih t hbefore hheight hcap' (by omega)

end

end

end

end OpenFlight
