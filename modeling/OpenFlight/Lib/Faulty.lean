import Mathlib.Tactic.Common

/-!
# Programs on a Faulty Device

Programs over a state, any operation of which may fail.

An operation of a program has two ways to end. On its own it computes a result
and a new state, or an error, which leaves the state alone. Or it is hit by a
fault, which says what is returned instead and what the operation leaves behind.
The faults come from a schedule that is consumed one entry an operation, so a
theorem about every schedule is a theorem about every operation that can fail,
in every position.

Unlike the programs of `Lib.Crash` these go on after a failure, and what they do
then is the subject.

On a schedule without faults a program can still fail, since an operation can be
asked for what it cannot do. `QuietMeets` is a specification for it with two
postconditions: one of the value and the state where it succeeds, and one of the
state it leaves behind where it fails. It does not say which of the two happens.
That is enough for programs that are only promised something when they succeed,
and there is one rule for each way to build one.

## Main definitions

* `Faulted`, `Faulty`: A state with a schedule, and programs over it.
* `Faulted.Quiet`: A schedule without faults.
* `Faulty.operation`, `attempt`, `forEach`: How programs are built.
* `TurnsMeet`: Every turn of a loop meets a condition where it is taken.

## Theorems

* `keeps_bind`, `keeps_operation`, `keeps_forEach`, …: The frame rules.
* `forEach_ok`: A loop that gets to its end.
* `forEach_view_iff`: A loop leaves a view alone exactly when each of its turns
  does, if nothing repairs what one of them has changed.
* `quiet_bind`, `quiet_operation`, `quiet_forEach`, …: The rules without faults.
* `maintains_bind`, `maintains_forEach`, …: The rules for what is kept.
-/

namespace OpenFlight

/-- A state, and what befalls the next operations on it. An operation beyond
    the end of the schedule is not hit. -/
structure Faulted (σ φ : Type) where
  state : σ
  faults : List (Option φ)

namespace Faulted

variable {σ φ : Type}

/-- The fault that hits the operation after the next `k`. -/
def faultAt (w : Faulted σ φ) (k : ℕ) : Option φ :=
  (w.faults[k]?).join

/-- The schedule after one operation, with the state it leaves behind. -/
def next (w : Faulted σ φ) (s : σ) : Faulted σ φ :=
  { state := s, faults := w.faults.tail }

variable (w : Faulted σ φ)

@[simp]
theorem next_state (s : σ) : (w.next s).state = s := rfl

@[simp]
theorem faultAt_next (s : σ) (k : ℕ) : (w.next s).faultAt k = w.faultAt (k + 1) := by
  simp [faultAt, next]

/-- No operation is hit any more. -/
def Quiet (w : Faulted σ φ) : Prop :=
  w.faults = []

theorem Quiet.faultAt (h : w.Quiet) (k : ℕ) : w.faultAt k = none := by
  rw [Quiet] at h
  simp [Faulted.faultAt, h]

theorem Quiet.next (h : w.Quiet) (s : σ) : (w.next s).Quiet := by
  rw [Quiet] at h
  simp [Quiet, Faulted.next, h]

end Faulted

/-- A program over a state whose operations may be hit by faults. -/
def Faulty (σ φ ε α : Type) := Faulted σ φ → Except ε α × Faulted σ φ

namespace Faulty

variable {σ φ ε α β : Type}

/-- Return a value. -/
def ret (a : α) : Faulty σ φ ε α := fun w => (.ok a, w)

/-- Go on with the value of a program; an error ends both. -/
def seq (x : Faulty σ φ ε α) (f : α → Faulty σ φ ε β) : Faulty σ φ ε β := fun w =>
  match x w with
  | (.ok a, w') => f a w'
  | (.error e, w') => (.error e, w')

instance : Monad (Faulty σ φ ε) where
  pure := ret
  bind := seq

/-- Return an error. -/
def fail (e : ε) : Faulty σ φ ε α := fun w => (.error e, w)

/-- Change the state without an operation of the device. -/
def update (f : σ → σ) : Faulty σ φ ε Unit := fun w =>
  (.ok (), { w with state := f w.state })

/-- One operation of the device, and what it does where it is hit. -/
def operation (f : σ → Except ε (α × σ)) (hit : φ → σ → Except ε α × σ) : Faulty σ φ ε α :=
  fun w =>
    match w.faultAt 0 with
    | none =>
        match f w.state with
        | .ok (a, s) => (.ok a, w.next s)
        | .error e => (.error e, w.next w.state)
    | some fault => ((hit fault w.state).1, w.next (hit fault w.state).2)

/-- Run a program and go on however it ends. -/
def attempt (x : Faulty σ φ ε α) : Faulty σ φ ε Unit := fun w => (.ok (), (x w).2)

/-- Run a program for each element of a list, until one fails. -/
def forEach (l : List α) (body : α → Faulty σ φ ε Unit) : Faulty σ φ ε Unit :=
  match l with
  | [] => pure ()
  | a :: rest => do
      body a
      forEach rest body

end Faulty

open Faulty

section

variable {σ φ ε α β : Type}

theorem pure_apply (a : α) (w : Faulted σ φ) : (pure a : Faulty σ φ ε α) w = (.ok a, w) := rfl

variable (x : Faulty σ φ ε α) (f : α → Faulty σ φ ε β)

theorem bind_apply_ok (w w' : Faulted σ φ) (a : α) (hx : x w = (.ok a, w')) :
    (x >>= f) w = f a w' := by
  change seq x f w = _
  simp only [seq, hx]

theorem bind_apply_error (w w' : Faulted σ φ) (e : ε) (hx : x w = (.error e, w')) :
    (x >>= f) w = (.error e, w') := by
  change seq x f w = _
  simp only [seq, hx]

/-- Sequencing is associative. -/
theorem bind_assoc_apply {γ : Type} (g : β → Faulty σ φ ε γ) :
    ((x >>= f) >>= g) = (x >>= fun a => f a >>= g) := by
  funext w
  cases hx : x w with
  | mk result w1 =>
      cases result with
      | error e =>
          have hseq : (x >>= f) w = (.error e, w1) := bind_apply_error x f w w1 e hx
          rw [bind_apply_error (x >>= f) g w w1 e hseq, bind_apply_error x _ w w1 e hx]
      | ok a =>
          rw [bind_apply_ok x _ w w1 a hx]
          cases hf : f a w1 with
          | mk inner w2 =>
              have hseq : (x >>= f) w = (inner, w2) := by
                rw [bind_apply_ok x f w w1 a hx, hf]
              cases inner with
              | error e =>
                  rw [bind_apply_error (x >>= f) g w w2 e hseq, bind_apply_error (f a) g w1 w2 e hf]
              | ok b => rw [bind_apply_ok (x >>= f) g w w2 b hseq, bind_apply_ok (f a) g w1 w2 b hf]

/-- A program that returns a value has gone through its first part. -/
theorem bind_eq_ok (w w' : Faulted σ φ) (b : β) (h : (x >>= f) w = (.ok b, w')) :
    ∃ a w1, x w = (.ok a, w1) ∧ f a w1 = (.ok b, w') := by
  cases hx : x w with
  | mk result w1 =>
      cases result with
      | error e =>
          rw [bind_apply_error x f w w1 e hx, Prod.mk.injEq] at h
          exact absurd h.1 (by simp)
      | ok a =>
          rw [bind_apply_ok x f w w1 a hx] at h
          exact ⟨a, w1, rfl, h⟩

theorem operation_apply_ok (f : σ → Except ε (α × σ)) (hit : φ → σ → Except ε α × σ)
    (w : Faulted σ φ) (a : α) (s : σ) (hfault : w.faultAt 0 = none) (hf : f w.state = .ok (a, s)) :
    operation f hit w = (.ok a, w.next s) := by
  simp only [operation, hfault, hf]

theorem operation_apply_error (f : σ → Except ε (α × σ)) (hit : φ → σ → Except ε α × σ)
    (w : Faulted σ φ) (e : ε) (hfault : w.faultAt 0 = none) (hf : f w.state = .error e) :
    operation f hit w = (.error e, w.next w.state) := by
  simp only [operation, hfault, hf]

theorem operation_apply_hit (f : σ → Except ε (α × σ)) (hit : φ → σ → Except ε α × σ)
    (w : Faulted σ φ) (fault : φ) (hfault : w.faultAt 0 = some fault) :
    operation f hit w = ((hit fault w.state).1, w.next (hit fault w.state).2) := by
  simp only [operation, hfault]

end

section

variable {σ φ ε α β ν : Type}

/-- However a program ends, it leaves a view of the state as it was, and a
    schedule without faults stays without. -/
def Keeps (view : σ → ν) (x : Faulty σ φ ε α) : Prop :=
  ∀ w, view (x w).2.state = view w.state ∧ (w.Quiet → (x w).2.Quiet)

variable (view : σ → ν) (x : Faulty σ φ ε α)

theorem Keeps.view_eq (hx : Keeps view x) (w w' : Faulted σ φ) (result : Except ε α)
    (h : x w = (result, w')) : view w'.state = view w.state := by
  have hview := (hx w).1
  rw [h] at hview
  exact hview

theorem keeps_pure (a : α) : Keeps view (pure a : Faulty σ φ ε α) :=
  fun _ => ⟨rfl, id⟩

theorem keeps_fail (e : ε) : Keeps view (fail e : Faulty σ φ ε α) :=
  fun _ => ⟨rfl, id⟩

theorem keeps_update (f : σ → σ) (hf : ∀ s, view (f s) = view s) :
    Keeps view (update f : Faulty σ φ ε Unit) :=
  fun w => ⟨hf w.state, id⟩

theorem keeps_operation (f : σ → Except ε (α × σ)) (hit : φ → σ → Except ε α × σ)
    (hf : ∀ s a s', f s = .ok (a, s') → view s' = view s)
    (hhit : ∀ fault s, view (hit fault s).2 = view s) : Keeps view (operation f hit) := by
  intro w
  cases hfault : w.faultAt 0 with
  | some fault =>
      rw [operation_apply_hit f hit w fault hfault]
      exact ⟨hhit fault w.state, fun hquiet => hquiet.next w _⟩
  | none =>
      cases hrun : f w.state with
      | error e =>
          rw [operation_apply_error f hit w e hfault hrun]
          exact ⟨rfl, fun hquiet => hquiet.next w _⟩
      | ok r =>
          rcases r with ⟨a, s⟩
          rw [operation_apply_ok f hit w a s hfault hrun]
          exact ⟨hf w.state a s hrun, fun hquiet => hquiet.next w _⟩

/-- A program and what follows it on the values that the program returns. -/
theorem keeps_bind_of_returns (f : α → Faulty σ φ ε β) (hx : Keeps view x)
    (hf : ∀ a w w', x w = (.ok a, w') → Keeps view (f a)) : Keeps view (x >>= f) := by
  intro w
  have hfirst := hx w
  cases hrun : x w with
  | mk result w' =>
      rw [hrun] at hfirst
      cases result with
      | error e =>
          rw [bind_apply_error x f w w' e hrun]
          exact hfirst
      | ok a =>
          rw [bind_apply_ok x f w w' a hrun]
          rcases hf a w w' hrun w' with ⟨hview, hquiet⟩
          exact ⟨hview.trans hfirst.1, fun h => hquiet (hfirst.2 h)⟩

theorem keeps_bind (f : α → Faulty σ φ ε β) (hx : Keeps view x) (hf : ∀ a, Keeps view (f a)) :
    Keeps view (x >>= f) :=
  keeps_bind_of_returns view x f hx fun a _ _ _ => hf a

theorem keeps_forEach (l : List α) (body : α → Faulty σ φ ε Unit)
    (hbody : ∀ a, Keeps view (body a)) :
    Keeps view (forEach l body) := by
  induction l with
  | nil => exact keeps_pure view ()
  | cons a rest ih => exact keeps_bind view (body a) _ (hbody a) fun _ => ih

end

section

variable {σ φ ε α ι ν : Type}

section

variable (a : α) (rest : List α) (body : α → Faulty σ φ ε Unit) (w w' : Faulted σ φ)

include a rest body w w'

theorem forEach_cons_ok (h : body a w = (.ok (), w')) :
    forEach (a :: rest) body w = forEach rest body w' :=
  bind_apply_ok (body a) (fun _ => forEach rest body) w w' () h

theorem forEach_cons_error (e : ε) (h : body a w = (.error e, w')) :
    forEach (a :: rest) body w = (.error e, w') :=
  bind_apply_error (body a) (fun _ => forEach rest body) w w' e h

end

/-- Every turn that the loop takes meets `ok` where it is taken. -/
def TurnsMeet (ok : α → Faulted σ φ → Prop) (body : α → Faulty σ φ ε Unit) :
    List α → Faulted σ φ → Prop
  | [], _ => True
  | a :: rest, w => ok a w ∧ ∀ w', body a w = (.ok (), w') → TurnsMeet ok body rest w'

/-- Every turn of a loop succeeds, in the state that the turns before it leave behind. -/
def AllSucceed (body : α → Faulty σ φ ε Unit) : List α → Faulted σ φ → Prop
  | [], _ => True
  | a :: rest, w => (body a w).1 = .ok () ∧ AllSucceed body rest (body a w).2

/-- A loop with an invariant that knows what is left, where every turn succeeds. -/
theorem forEach_ok (l : List α) (body : α → Faulty σ φ ε Unit) (w : Faulted σ φ)
    (inv : List α → Faulted σ φ → Prop) (hstart : inv l w)
    (hturn : ∀ a rest w, inv (a :: rest) w → ∃ w', body a w = (.ok (), w') ∧ inv rest w') :
    ∃ w', forEach l body w = (.ok (), w') ∧ inv [] w' := by
  induction l generalizing w with
  | nil => exact ⟨w, rfl, hstart⟩
  | cons a rest ih =>
      rcases hturn a rest w hstart with ⟨w', hbody, hinv⟩
      rw [forEach_cons_ok a rest body w w' hbody]
      exact ih w' hinv

/-- A loop and a view of the state in parts, where a part that a turn has changed and gone on from
    stays as it is. The loop leaves the view alone exactly when every turn it takes does. -/
theorem forEach_view_iff (view : σ → ι → ν) (settled : σ → ι → Prop)
    (ok : α → Faulted σ φ → Prop) (body : α → Faulty σ φ ε Unit)
    (hturn : ∀ a w, ok a w ↔ ∀ i, view (body a w).2.state i = view w.state i)
    (hsettled : ∀ a w i, settled w.state i →
      settled (body a w).2.state i ∧ view (body a w).2.state i = view w.state i)
    (hchange : ∀ a w i, (body a w).1 = .ok () →
      view (body a w).2.state i ≠ view w.state i → settled (body a w).2.state i)
    (l : List α) (w : Faulted σ φ) :
    (∀ i, view (forEach l body w).2.state i = view w.state i) ↔ TurnsMeet ok body l w := by
  -- What is settled stays through the rest of the loop.
  have hstays : ∀ (l : List α) (w : Faulted σ φ) (i : ι), settled w.state i →
      view (forEach l body w).2.state i = view w.state i := by
    intro l
    induction l with
    | nil =>
        intro w i _
        rfl
    | cons a rest ih =>
        intro w i hi
        rcases hsettled a w i hi with ⟨hstill, hsame⟩
        cases hbody : body a w with
        | mk result w' =>
            rw [hbody] at hstill hsame
            cases result with
            | error e =>
                rw [forEach_cons_error a rest body w w' e hbody]
                exact hsame
            | ok u =>
                rw [forEach_cons_ok a rest body w w' hbody, ih w' i hstill]
                exact hsame
  induction l generalizing w with
  | nil => simp [forEach, pure_apply, TurnsMeet]
  | cons a rest ih =>
      have hok := hturn a w
      cases hbody : body a w with
      | mk result w' =>
          rw [hbody] at hok
          cases result with
          | error e =>
              rw [forEach_cons_error a rest body w w' e hbody]
              have hend : TurnsMeet ok body (a :: rest) w ↔ ok a w := by
                simp [TurnsMeet, hbody]
              rw [hend, hok]
          | ok u =>
              rw [forEach_cons_ok a rest body w w' hbody]
              have hmore : TurnsMeet ok body (a :: rest) w ↔
                  ok a w ∧ TurnsMeet ok body rest w' := by
                simp [TurnsMeet, hbody]
              rw [hmore, hok]
              constructor
              · intro h
                have hfirst : ∀ i, view w'.state i = view w.state i := by
                  intro i
                  by_contra hne
                  have hset := hchange a w i (by rw [hbody]) (by rw [hbody]; exact hne)
                  rw [hbody] at hset
                  exact hne ((hstays rest w' i hset).symm.trans (h i))
                refine ⟨hfirst, (ih w').mp fun i => ?_⟩
                rw [h i, hfirst i]
              · rintro ⟨hfirst, hlater⟩ i
                rw [(ih w').mpr hlater i, hfirst i]

end

open Faulty

section

variable {σ φ ε α β : Type}

/-- Without faults from the state `s` on, the program ends without any left, with a value and a
    state that meet the postcondition or with an error and a state that meets the other one. -/
def QuietMeets (x : Faulty σ φ ε α) (s : σ) (post : α → σ → Prop) (failed : σ → Prop) : Prop :=
  (x ⟨s, []⟩).2.Quiet ∧
    (∀ a, (x ⟨s, []⟩).1 = .ok a → post a (x ⟨s, []⟩).2.state) ∧
    ∀ e, (x ⟨s, []⟩).1 = .error e → failed (x ⟨s, []⟩).2.state

variable {x : Faulty σ φ ε α} {s : σ} {post : α → σ → Prop} {failed : σ → Prop}

/-- Weaker postconditions. -/
theorem quiet_mono {post' : α → σ → Prop} {failed' : σ → Prop}
    (h : QuietMeets x s post failed) (hpost : ∀ a s', post a s' → post' a s')
    (hfailed : ∀ s', failed s' → failed' s') : QuietMeets x s post' failed' :=
  ⟨h.1, fun a ha => hpost a _ (h.2.1 a ha), fun e he => hfailed _ (h.2.2 e he)⟩

theorem quiet_pure {a : α} (h : post a s) : QuietMeets (pure a : Faulty σ φ ε α) s post failed := by
  refine ⟨rfl, fun b hb => ?_, fun e he => absurd he (by simp [pure_apply])⟩
  rw [← Except.ok.inj hb]
  exact h

theorem quiet_fail {e : ε} (h : failed s) : QuietMeets (fail e : Faulty σ φ ε α) s post failed :=
  ⟨rfl, fun _ ha => absurd ha (by simp [fail]), fun _ _ => h⟩

theorem quiet_update {f : σ → σ} {post : Unit → σ → Prop} (h : post () (f s)) :
    QuietMeets (update f : Faulty σ φ ε Unit) s post failed :=
  ⟨rfl, fun _ _ => h, fun _ he => absurd he (by simp [update])⟩

theorem quiet_operation {f : σ → Except ε (α × σ)} {hit : φ → σ → Except ε α × σ}
    (hok : ∀ a s', f s = .ok (a, s') → post a s') (herror : ∀ e, f s = .error e → failed s) :
    QuietMeets (operation f hit) s post failed := by
  unfold QuietMeets
  cases hf : f s with
  | ok r =>
      rw [operation_apply_ok f hit ⟨s, []⟩ r.1 r.2 rfl hf]
      refine ⟨rfl, fun a ha => ?_, fun e he => absurd he (by simp)⟩
      rw [← Except.ok.inj ha]
      exact hok r.1 r.2 hf
  | error e =>
      rw [operation_apply_error f hit ⟨s, []⟩ e rfl hf]
      exact ⟨rfl, fun a ha => absurd ha (by simp), fun _ _ => herror e hf⟩

/-- A program and what follows it; a failure of the first is one of both. -/
theorem quiet_bind {f : α → Faulty σ φ ε β} {mid : α → σ → Prop} {post : β → σ → Prop}
    (hx : QuietMeets x s mid failed)
    (hf : ∀ a s', mid a s' → QuietMeets (f a) s' post failed) :
    QuietMeets (x >>= f) s post failed := by
  rcases hx with ⟨hquiet, hok, herror⟩
  unfold QuietMeets
  cases hrun : x ⟨s, []⟩ with
  | mk result w =>
      rw [hrun] at hquiet hok herror
      cases result with
      | error e =>
          rw [bind_apply_error x f _ w e hrun]
          exact ⟨hquiet, fun a ha => absurd ha (by simp), fun _ _ => herror e rfl⟩
      | ok a =>
          rw [bind_apply_ok x f _ w a hrun]
          -- Nothing is left of the schedule, so the rest starts from the state alone.
          have hw : w = ⟨w.state, []⟩ := by
            rcases w with ⟨t, faults⟩
            have hfaults : faults = [] := hquiet
            rw [hfaults]
          rw [hw]
          exact hf a w.state (hok a rfl)

/-- A loop with an invariant that knows what is left. -/
theorem quiet_forEach {l : List α} {body : α → Faulty σ φ ε Unit} {post : Unit → σ → Prop}
    (inv : List α → σ → Prop) (hstart : inv l s)
    (hturn : ∀ a rest s', inv (a :: rest) s' →
      QuietMeets (body a) s' (fun _ s'' => inv rest s'') failed)
    (hend : ∀ s', inv [] s' → post () s') :
    QuietMeets (forEach l body) s post failed := by
  induction l generalizing s with
  | nil => exact quiet_pure (hend s hstart)
  | cons a rest ih => exact quiet_bind (hturn a rest s hstart) fun _ s' h => ih h

/-- A loop that gets to its end has made something true of each element; each turn can
    rely on it for the turns before. -/
theorem quiet_forEach_done {l : List α} {body : α → Faulty σ φ ε Unit} {inv : σ → Prop}
    {fact : α → Prop} (hstart : inv s)
    (hturn : ∀ done a rest, l = done ++ a :: rest → (∀ b ∈ done, fact b) → ∀ s', inv s' →
      QuietMeets (body a) s' (fun _ s'' => inv s'' ∧ fact a) inv) :
    QuietMeets (forEach l body) s (fun _ s' => inv s' ∧ ∀ a ∈ l, fact a) inv := by
  refine quiet_forEach
    (fun todo s' => inv s' ∧ ∃ done, l = done ++ todo ∧ ∀ b ∈ done, fact b)
    ⟨hstart, [], rfl, fun _ hmem => absurd hmem List.not_mem_nil⟩ ?_ ?_
  · rintro a rest s' ⟨hs', done, hsplit, hdone⟩
    refine quiet_mono (hturn done a rest hsplit hdone s' hs') ?_ fun _ hs'' => hs''
    rintro _ s'' ⟨hs'', hfact⟩
    refine ⟨hs'', done ++ [a], by rw [hsplit, List.append_assoc]; rfl, fun b hb => ?_⟩
    rcases List.mem_append.mp hb with hold | hnew
    · exact hdone b hold
    · rw [List.mem_singleton.mp hnew]
      exact hfact
  · rintro s' ⟨hs', done, hsplit, hdone⟩
    refine ⟨hs', ?_⟩
    rw [hsplit, List.append_nil]
    exact hdone

/-- What holds before the program and depends on a view that it keeps holds afterwards. -/
theorem quiet_of_keeps {ν : Type} {view : σ → ν} (h : Keeps view x) {v : ν}
    (hs : view s = v) : QuietMeets x s (fun _ s' => view s' = v) fun s' => view s' = v :=
  ⟨(h _).2 rfl, fun _ _ => (h _).1.trans hs, fun _ _ => (h _).1.trans hs⟩

/-- A program whose failure is ignored. -/
theorem quiet_attempt {inv : σ → Prop} (h : QuietMeets x s (fun _ => inv) inv) :
    QuietMeets (attempt x : Faulty σ φ ε Unit) s (fun _ => inv) failed := by
  refine ⟨h.1, fun _ _ => ?_, fun e he => absurd he (by simp [attempt])⟩
  cases hresult : (x ⟨s, []⟩).1 with
  | ok a => exact h.2.1 a hresult
  | error e => exact h.2.2 e hresult

/-- A program that is given its state and schedule whole. -/
theorem quiet_congr {y : Faulty σ φ ε α} (h : x ⟨s, []⟩ = y ⟨s, []⟩)
    (hy : QuietMeets y s post failed) : QuietMeets x s post failed := by
  unfold QuietMeets
  rw [h]
  exact hy

end

section

variable {σ φ ε α β : Type} (inv : σ → Prop)

/-- A program keeps a property of the state, whether it succeeds or fails. -/
def Maintains (x : Faulty σ φ ε α) : Prop :=
  ∀ s, inv s → QuietMeets x s (fun _ s' => inv s') inv

variable {inv} {x : Faulty σ φ ε α}

theorem maintains_state (h : Maintains inv x) (s : σ) (hs : inv s) : inv (x ⟨s, []⟩).2.state := by
  cases hresult : (x ⟨s, []⟩).1 with
  | ok a => exact (h s hs).2.1 a hresult
  | error e => exact (h s hs).2.2 e hresult

theorem maintains_pure (a : α) : Maintains inv (pure a : Faulty σ φ ε α) :=
  fun _ hs => quiet_pure hs

theorem maintains_fail (e : ε) : Maintains inv (fail e : Faulty σ φ ε α) :=
  fun _ hs => quiet_fail hs

theorem maintains_update {f : σ → σ} (h : ∀ s, inv s → inv (f s)) :
    Maintains inv (update f : Faulty σ φ ε Unit) :=
  fun s hs => quiet_update (h s hs)

theorem maintains_bind {f : α → Faulty σ φ ε β} (hx : Maintains inv x)
    (hf : ∀ a, Maintains inv (f a)) : Maintains inv (x >>= f) :=
  fun s hs => quiet_bind (hx s hs) fun a s' hs' => hf a s' hs'

theorem maintains_forEach {l : List α} {body : α → Faulty σ φ ε Unit}
    (h : ∀ a ∈ l, Maintains inv (body a)) : Maintains inv (forEach l body) := by
  induction l with
  | nil => exact maintains_pure ()
  | cons a rest ih =>
      rw [List.forall_mem_cons] at h
      exact maintains_bind h.1 fun _ => ih h.2

theorem maintains_attempt (h : Maintains inv x) : Maintains inv (attempt x) := by
  intro s hs
  exact ⟨(h s hs).1, fun _ _ => maintains_state h s hs, fun _ he => absurd he (by simp [attempt])⟩

end

end OpenFlight
