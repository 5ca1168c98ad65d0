import OpenFlight.Core.Panels.Led
import OpenFlight.Lib.Run

/-!
# Spacing of LED Writes

How far apart the writes to one LED are, over both calls that write.

A write is at the instant its call has read. The device is wrapped in one that
keeps a list of the writes it has taken, so that what a call has written can
be read off after it, whichever of its writes failed. `LogKept` relates that
list to the bookkeeping of the controller: every write that was taken is
recorded under its target, at its instant or a later one. A write that fails
is in neither, and nothing comes between a write that was taken and its
record, so `LogKept` survives a call that is cut short.

What is recorded is therefore late enough for the check before the next write
to the same target: `LogKept.attempt` is that argument, and the two loops and
the run are inductions with it.

## Main definitions

* `PanelRun`, `panelRunStep`: The controller with all the writes so far.
* `Spaced`: Writes to one target are an interval apart.

## Theorems

* `writeLedState_attempt`, `executeAction_attempt`: The writes.
* `ledWrites_spaced`: The writes of every run.
-/

namespace OpenFlight.Panels

open Rules

section

variable {β ε : Type}

/-- A device with the targets of the writes it has taken, oldest first. -/
structure WriteLog (β : Type) where
  device : β
  written : List LedTarget := []

/-- The device, remembering what it is written. -/
def logged (io : LedBackend β ε) : LedBackend (WriteLog β) ε where
  write log target state :=
    match io.write log.device target state with
    | (device, .error e) => ({ log with device := device }, .error e)
    | (device, .ok ()) => ({ device := device, written := log.written ++ [target] }, .ok ())

/-- The same controller, with nothing written yet. -/
def forget (ctrl : LedController (WriteLog β)) : LedController (WriteLog β) :=
  { ctrl with backend := { ctrl.backend with written := [] } }

/-- The controller, which is gone after a panic, and all writes so far with the
    instants of their calls. -/
structure PanelRun (β : Type) where
  ctrl : Option (LedController (WriteLog β))
  writes : List (Instant × LedTarget) := []

def panelRunStep (io : LedBackend β ε) (r : PanelRun β) (call : Readings × PanelCall) :
    PanelRun β :=
  let after := panelStep (logged io) (r.ctrl.map forget) call
  let written := match after with
    | none => []
    | some ctrl => ctrl.backend.written
  { ctrl := after, writes := r.writes ++ written.map fun target => (call.1 0, target) }

/-- Writes to one target are at least an interval apart. -/
def Spaced (interval : Duration) (writes : List (Instant × LedTarget)) : Prop :=
  writes.Pairwise fun a b => a.2 = b.2 → a.1 + interval ≤ b.1

/-- What trying to write does: the device takes the write or not, and the
    bookkeeping is left alone. -/
structure Attempt (target : LedTarget) (ctrl ctrl' : LedController (WriteLog β))
    (result : Except ε Unit) : Prop where
  lastWrite : ctrl'.lastWrite = ctrl.lastWrite
  minInterval : ctrl'.minInterval = ctrl.minInterval
  written : ctrl'.backend.written = ctrl.backend.written ++
    match result with
    | .ok () => [target]
    | .error _ => []

variable (io : LedBackend β ε)

section

variable (clk : Readings) (ctrl : LedController (WriteLog β))

include clk ctrl

theorem writeLedState_attempt (target : LedTarget) (state : LedState) :
    Attempt target ctrl (ctrl.writeLedState (logged io) clk target state).1
      (ctrl.writeLedState (logged io) clk target state).2 := by
  unfold LedController.writeLedState logged
  dsimp only
  rcases io.write ctrl.backend.device target state with ⟨device, e | ⟨⟩⟩
  · exact ⟨rfl, rfl, (List.append_nil _).symm⟩
  · exact ⟨rfl, rfl, rfl⟩

theorem changeLed_attempt (target : LedTarget) (modify : LedState → LedState) (fresh : LedState) :
    Attempt target ctrl (ctrl.changeLed (logged io) clk target modify fresh).1
      (ctrl.changeLed (logged io) clk target modify fresh).2 := by
  unfold LedController.changeLed
  dsimp only
  -- The state is recorded before it is written.
  have hwrite := fun states state =>
    writeLedState_attempt io clk { ctrl with ledStates := states } target state
  exact ⟨(hwrite _ _).lastWrite, (hwrite _ _).minInterval, (hwrite _ _).written⟩

/-- An action is written to the target that the rate limit goes by. -/
theorem executeAction_attempt (action : Action) (now : Instant) :
    Attempt (actionToTarget action) ctrl (ctrl.executeAction (logged io) clk action now).1
      (ctrl.executeAction (logged io) clk action now).2 := by
  cases action with
  | _ => exact changeLed_attempt io clk ctrl _ _ _

end

/-- During a call at `now`, after the writes of earlier calls: all writes are
    spaced, and each is recorded under its target, at its instant or later. -/
structure LogKept (interval : Duration) (earlier : List (Instant × LedTarget)) (now : Instant)
    (ctrl : LedController (WriteLog β)) : Prop where
  interval_eq : ctrl.minInterval = interval
  spaced : Spaced interval
    (earlier ++ ctrl.backend.written.map fun target => (now, target))
  recorded : ∀ write ∈ earlier ++ ctrl.backend.written.map fun target => (now, target),
    ∃ last, ctrl.lastWrite.lookup write.2 = some last ∧ write.1 ≤ last
  past : ∀ target last, ctrl.lastWrite.lookup target = some last → last ≤ now

variable {io} {interval : Duration} {earlier : List (Instant × LedTarget)} {now : Instant}
  {ctrl ctrl' : LedController (WriteLog β)} {target : LedTarget}

/-- The write that the check lets through, taken and recorded, or failed. -/
theorem LogKept.attempt (h : LogKept interval earlier now ctrl) {result : Except ε Unit}
    (hattempt : Attempt target ctrl ctrl' result)
    (hfree : ∀ last, ctrl.lastWrite.lookup target = some last → last + interval ≤ now) :
    (∀ e, result = .error e → LogKept interval earlier now ctrl') ∧
      (result = .ok () → LogKept interval earlier now
        { ctrl' with lastWrite := ctrl'.lastWrite.insert target now }) := by
  have hwritten := hattempt.written
  cases result with
  | error e =>
      -- A failed write is not in the log and not in the bookkeeping.
      refine ⟨fun _ _ => ?_, fun hok => absurd hok (by simp)⟩
      simp only [List.append_nil] at hwritten
      refine ⟨hattempt.minInterval.trans h.interval_eq, ?_, ?_, ?_⟩
      · rw [hwritten]
        exact h.spaced
      · rw [hwritten, hattempt.lastWrite]
        exact h.recorded
      · rw [hattempt.lastWrite]
        exact h.past
  | ok u =>
      refine ⟨fun e herror => absurd herror (by simp), fun _ => ?_⟩
      -- A write that is taken is one more entry of the log.
      have hall : (earlier ++ ctrl'.backend.written.map fun target => (now, target))
          = (earlier ++ ctrl.backend.written.map fun target => (now, target))
            ++ [(now, target)] := by
        rw [hwritten, List.map_append, List.append_assoc]
        rfl
      refine ⟨hattempt.minInterval.trans h.interval_eq, ?_, ?_, ?_⟩
      · change Spaced interval (earlier ++ ctrl'.backend.written.map fun target => (now, target))
        rw [hall]
        refine List.pairwise_append.mpr ⟨h.spaced, List.pairwise_singleton _ _, ?_⟩
        -- An earlier write to the same target is recorded, and the record let this one through.
        rintro write hwrite _ hlast htarget
        rw [List.mem_singleton] at hlast
        subst hlast
        rcases h.recorded write hwrite with ⟨last, hlookup, hle⟩
        rw [show write.2 = target from htarget] at hlookup
        exact (Nat.add_le_add_right hle interval).trans (hfree last hlookup)
      · change ∀ write ∈ earlier ++ ctrl'.backend.written.map fun target => (now, target),
          ∃ last, (ctrl'.lastWrite.insert target now).lookup write.2 = some last ∧ write.1 ≤ last
        rw [hall, hattempt.lastWrite]
        intro write hwrite
        -- The record of the target is replaced by a later one.
        by_cases htarget : write.2 = target
        · refine ⟨now, by rw [htarget, Finmap.lookup_insert], ?_⟩
          rcases List.mem_append.mp hwrite with hwrite | hwrite
          · rcases h.recorded write hwrite with ⟨last, hlookup, hle⟩
            exact hle.trans (h.past _ _ hlookup)
          · rw [List.mem_singleton.mp hwrite]
        · rw [Finmap.lookup_insert_of_ne _ htarget]
          rcases List.mem_append.mp hwrite with hwrite | hwrite
          · exact h.recorded write hwrite
          · exact absurd (congrArg Prod.snd (List.mem_singleton.mp hwrite)) htarget
      · intro other last hlookup
        by_cases htarget : other = target
        · rw [htarget, Finmap.lookup_insert, Option.some.injEq] at hlookup
          exact hlookup.ge
        · rw [Finmap.lookup_insert_of_ne _ htarget, hattempt.lastWrite] at hlookup
          exact h.past other last hlookup

/-- What the check lets through is an interval after the last write. -/
theorem LogKept.free_of_not_limited (h : LogKept interval earlier now ctrl)
    (hlimited : ¬ ctrl.rateLimited target now = true) (last : Instant)
    (hlookup : ctrl.lastWrite.lookup target = some last) : last + interval ≤ now := by
  unfold LedController.rateLimited at hlimited
  rw [hlookup] at hlimited
  -- The record is not in the future, so the saturating difference is the difference.
  have helapsed : interval ≤ durationSince now last := by
    rw [← h.interval_eq]
    exact Nat.not_lt.mp fun hlt => hlimited (decide_eq_true hlt)
  exact Nat.add_le_of_le_sub' (h.past target last hlookup) helapsed

/-- The two loops compare in opposite ways, and skip the same writes. -/
theorem writeDue_eq (ctrl : LedController β) (target : LedTarget) (now : Instant) :
    ctrl.writeDue target now = !ctrl.rateLimited target now := by
  unfold LedController.writeDue LedController.rateLimited
  cases ctrl.lastWrite.lookup target with
  | none => rfl
  | some last => rw [← decide_not, decide_eq_decide, not_lt]

variable (io)

theorem LogKept.executeLoop (clk : Readings) (actions : List Action)
    (h : LogKept interval earlier now ctrl) :
    LogKept interval earlier now (ctrl.executeLoop (logged io) now clk actions).1 := by
  induction actions generalizing clk ctrl with
  | nil => exact h
  | cons action rest ih =>
      rw [LedController.executeLoop]
      split
      · exact ih clk h
      · rename_i hlimited
        have hkept := h.attempt (executeAction_attempt io clk ctrl action now)
          (h.free_of_not_limited hlimited)
        rcases hresult : ctrl.executeAction (logged io) clk action now with ⟨ctrl', e | u⟩
        · -- An error ends the call before the bookkeeping.
          rw [hresult] at hkept
          exact hkept.1 e rfl
        · rw [hresult] at hkept
          exact ih (clk.skip 2) (hkept.2 rfl)

theorem LogKept.writeUpdates (clk : Readings) (updates : List (LedTarget × LedState))
    (h : LogKept interval earlier now ctrl) :
    LogKept interval earlier now (ctrl.writeUpdates (logged io) now clk updates).1 := by
  induction updates generalizing clk ctrl with
  | nil => exact h
  | cons update rest ih =>
      rcases update with ⟨target, state⟩
      rw [LedController.writeUpdates, writeDue_eq]
      split
      · rename_i hdue
        have hkept := h.attempt (writeLedState_attempt io clk ctrl target state)
          (h.free_of_not_limited (by simpa using hdue))
        rcases hresult : ctrl.writeLedState (logged io) clk target state with ⟨ctrl', e | u⟩
        · rw [hresult] at hkept
          exact hkept.1 e rfl
        · rw [hresult] at hkept
          exact ih (clk.skip 2) (hkept.2 rfl)
      · exact ih clk h

/-- A call keeps the writes and the bookkeeping in step, unless it panics. -/
theorem LogKept.panelStep (clk : Readings) (call : PanelCall)
    (h : LogKept interval earlier (clk 0) ctrl)
    (hafter : panelStep (logged io) (some ctrl) (clk, call) = some ctrl') :
    LogKept interval earlier (clk 0) ctrl' := by
  cases call with
  | executeActions actions =>
      simp only [Panels.panelStep, Option.some.injEq] at hafter
      rw [← hafter]
      exact h.executeLoop io (clk.skip 1) actions
  | updateBlinkStates order =>
      simp only [Panels.panelStep, LedController.updateBlinkStates, Option.map_map,
        Option.map_eq_some_iff] at hafter
      rcases hafter with ⟨⟨states, updates⟩, -, rfl⟩
      -- The first loop changes states only.
      have hstates : LogKept interval earlier (clk 0) { ctrl with ledStates := states } :=
        ⟨h.interval_eq, h.spaced, h.recorded, h.past⟩
      exact hstates.writeUpdates io (clk.skip 1) updates

/-- Between two calls the writes of the first become earlier ones, and time goes on. -/
theorem LogKept.next (h : LogKept interval earlier now ctrl) (later : Instant) (hle : now ≤ later) :
    LogKept interval (earlier ++ ctrl.backend.written.map fun target => (now, target)) later
      (forget ctrl) := by
  refine ⟨h.interval_eq, ?_, ?_, fun target last hlookup => (h.past target last hlookup).trans hle⟩
  · simpa [forget] using h.spaced
  · simpa [forget] using h.recorded

theorem spaced_run (calls : List (Readings × PanelCall)) (r : PanelRun β) (now : Instant)
    (hspaced : Spaced interval r.writes)
    (hkept : ∀ ctrl, r.ctrl = some ctrl → LogKept interval r.writes now (forget ctrl))
    (hsorted : (now :: calls.map fun call => call.1 0).Pairwise (· ≤ ·)) :
    Spaced interval (run (panelRunStep io) r calls).writes := by
  induction calls generalizing r now with
  | nil => exact hspaced
  | cons call rest ih =>
      rcases call with ⟨clk, call⟩
      rcases List.pairwise_cons.mp hsorted with ⟨hnow, hrest⟩
      have hle : now ≤ clk 0 := hnow (clk 0) List.mem_cons_self
      rw [run_cons]
      cases hafter : panelStep (logged io) (r.ctrl.map forget) (clk, call) with
      | none =>
          -- A panic writes nothing, and is the end of the run.
          have hstep : panelRunStep io r (clk, call) = { ctrl := none, writes := r.writes } := by
            simp [panelRunStep, hafter]
          rw [hstep]
          exact ih _ (clk 0) hspaced (fun ctrl hctrl => by cases hctrl) hrest
      | some ctrl' =>
          cases hctrl : r.ctrl with
          | none =>
              rw [hctrl] at hafter
              cases hafter
          | some ctrl =>
              have hstep : panelRunStep io r (clk, call) =
                  { ctrl := some ctrl'
                    writes := r.writes ++ ctrl'.backend.written.map fun t => (clk 0, t) } := by
                simp [panelRunStep, hafter]
              rw [hctrl] at hafter
              -- The clock has gone on since the call before.
              have hbefore : LogKept interval r.writes (clk 0) (forget ctrl) := by
                simpa [forget] using (hkept ctrl hctrl).next (clk 0) hle
              have hthis := hbefore.panelStep io clk call hafter
              rw [hstep]
              refine ih _ (clk 0) hthis.spaced (fun ctrl'' heq => ?_) hrest
              rw [Option.some.injEq] at heq
              subst heq
              exact hthis.next (clk 0) (le_refl _)

end

/-- The successful writes of a run that starts with a new controller. -/
def ledWrites {β ε : Type} (io : LedBackend β ε) (device : β) (interval : Duration)
    (calls : List (Readings × PanelCall)) : List (Instant × LedTarget) :=
  (run (panelRunStep io)
    { ctrl := some ((LedController.withBackend { device := device }).setMinInterval interval) }
    calls).writes

/-- Over any interleaving of the two calls at times that do not decrease, with any device and any
    pattern of failing writes, two successful writes to one target are at least the interval apart;
    with an interval above zero, no call writes a target twice. -/
theorem ledWrites_spaced {β ε : Type} (io : LedBackend β ε) (device : β) (interval : Duration)
    (calls : List (Readings × PanelCall))
    (hsorted : (calls.map fun call => call.1 0).Pairwise (· ≤ ·)) :
    Spaced interval (ledWrites io device interval calls) ∧
      (0 < interval → (ledWrites io device interval calls).Nodup) := by
  have hspaced : Spaced interval (ledWrites io device interval calls) := by
    refine spaced_run io calls _ 0 List.Pairwise.nil (fun ctrl hctrl => ?_)
      (List.pairwise_cons.mpr ⟨fun _ _ => Nat.zero_le _, hsorted⟩)
    rw [Option.some.injEq] at hctrl
    subst hctrl
    refine ⟨rfl, List.Pairwise.nil, fun write hwrite => ?_, fun target last hlookup => ?_⟩
    · cases hwrite
    · simp [forget, LedController.setMinInterval, LedController.withBackend] at hlookup
  refine ⟨hspaced, fun hpos => hspaced.imp fun {a b} hab heq => ?_⟩
  have hgap := hab (congrArg Prod.snd heq)
  rw [heq] at hgap
  exact absurd hgap (Nat.not_le.mpr (Nat.lt_add_of_pos_right hpos))

/-- Two actions on one target in a batch, with an interval of 8 ms: one write. -/
theorem ledWrites_spaced_one_batch : (ledWrites (noopLedBackend Unit) () (fromMillis 8)
      [(fun _ => 5, .executeActions [.ledOn "GEAR".toList, .ledOff "GEAR".toList])]).Nodup :=
  (ledWrites_spaced (noopLedBackend Unit) () (fromMillis 8)
    [(fun _ => 5, .executeActions [.ledOn "GEAR".toList, .ledOff "GEAR".toList])]
    (List.pairwise_singleton _ _)).2 (by decide)

end OpenFlight.Panels
