import OpenFlight.Core.Prim
import Mathlib.Data.List.FinRange

/-!
# The Ghost Input Filter

Two stages that take spurious presses out of the states of the buttons of a
device: each button has to be steady for some time, and combinations that cannot
be pressed are replaced by the last state that can.

The state of all buttons is a word of 32 bits. The first stage keeps the moment
of the last change for each button and one word for the last raw state. It reads
the clock once per call; the reading is an argument.

The statistics are counted without a bound.

## Main definitions

* `ButtonDebouncer`, `ButtonDebouncer.filter`: The first stage.
* `ImpossibleStateDetector`, `ImpossibleStateDetector.filter`: The second stage.
-/

namespace OpenFlight.Hid

/-- The buttons of a report. -/
abbrev maxTrackedButtons : Nat := 32

/-- The states of all buttons, one bit each. -/
abbrev Buttons := BitVec 32

/-- The threshold and the masks. -/
structure GhostFilterConfig where
  debounceThreshold : Duration
  impossibleMasks : List Buttons

/-- When the buttons have changed. -/
structure ButtonDebouncer where
  threshold : Duration
  lastState : Buttons
  lastChange : Fin maxTrackedButtons → Option Instant
  outputState : Buttons

namespace ButtonDebouncer

/-- `ButtonDebouncer::new`. -/
def new (threshold : Duration) : ButtonDebouncer where
  threshold := threshold
  lastState := 0
  lastChange := fun _ => none
  outputState := 0

/-- The bit of a button. -/
def maskOf (i : Fin maxTrackedButtons) : Buttons :=
  1#32 <<< i.val

/-- The first half of the body of the loop: a button that changed takes the time. -/
def noteChange (now : Instant) (changed : Buttons) (self : ButtonDebouncer)
    (i : Fin maxTrackedButtons) : ButtonDebouncer :=
  if changed &&& maskOf i ≠ 0 then
    { self with lastChange := Function.update self.lastChange i (some now) }
  else self

/-- The second half: a button that has been steady for long enough is accepted. -/
def acceptSteady (now : Instant) (raw : Buttons) (self : ButtonDebouncer)
    (i : Fin maxTrackedButtons) : ButtonDebouncer :=
  match self.lastChange i with
  | none => self
  | some changeTime =>
      if self.threshold ≤ durationSince now changeTime then
        { self with
          outputState :=
            if raw &&& maskOf i ≠ 0 then self.outputState ||| maskOf i
            else self.outputState &&& ~~~maskOf i }
      else self

/-- One turn of the loop. -/
def filterButton (now : Instant) (raw changed : Buttons) (self : ButtonDebouncer)
    (i : Fin maxTrackedButtons) : ButtonDebouncer :=
  (self.noteChange now changed i).acceptSteady now raw i

/-- `ButtonDebouncer::filter`. -/
def filter (self : ButtonDebouncer) (now : Instant) (raw : Buttons) : ButtonDebouncer × Buttons :=
  let changed := raw ^^^ self.lastState
  let self := (List.finRange maxTrackedButtons).foldl (filterButton now raw changed) self
  ({ self with lastState := raw }, self.outputState)

end ButtonDebouncer

/-- The masks, and the last valid state. -/
structure ImpossibleStateDetector where
  impossibleMasks : List Buttons
  lastValidState : Buttons

namespace ImpossibleStateDetector

/-- `ImpossibleStateDetector::new`. -/
def new (impossibleMasks : List Buttons) : ImpossibleStateDetector where
  impossibleMasks := impossibleMasks
  lastValidState := 0

/-- `u32::count_ones`. -/
def countOnes (mask : Buttons) : Nat :=
  (List.finRange 32).countP fun i => mask.getLsbD i.val

/-- Whether all of two or more buttons of a mask are down. -/
def isImpossible (self : ImpossibleStateDetector) (state : Buttons) : Bool :=
  self.impossibleMasks.any fun mask => state &&& mask == mask && 1 < countOnes mask

/-- `ImpossibleStateDetector::filter`. -/
def filter (self : ImpossibleStateDetector) (state : Buttons) : ImpossibleStateDetector × Buttons :=
  if self.isImpossible state then (self, self.lastValidState)
  else ({ self with lastValidState := state }, state)

end ImpossibleStateDetector

/-- The counts of a filter. -/
structure GhostFilterStats where
  totalSamples : Nat
  totalFiltered : Nat
  debounceFiltered : Nat
  impossibleFiltered : Nat

/-- `GhostFilterStats::default`. -/
def GhostFilterStats.default : GhostFilterStats where
  totalSamples := 0
  totalFiltered := 0
  debounceFiltered := 0
  impossibleFiltered := 0

/-- Both, with the statistics. -/
structure GhostInputFilter where
  debouncer : ButtonDebouncer
  impossibleDetector : ImpossibleStateDetector
  stats : GhostFilterStats

namespace GhostInputFilter

/-- A filter with the settings of a device. -/
def withConfig (config : GhostFilterConfig) : GhostInputFilter where
  debouncer := .new config.debounceThreshold
  impossibleDetector := .new config.impossibleMasks
  stats := .default

/-- `GhostInputFilter::filter`. -/
def filter (self : GhostInputFilter) (now : Instant) (raw : Buttons) : GhostInputFilter × Buttons :=
  let (debouncer, debounced) := self.debouncer.filter now raw
  let (detector, filtered) := self.impossibleDetector.filter debounced
  let stats :=
    { totalSamples := self.stats.totalSamples + 1
      totalFiltered := self.stats.totalFiltered + if raw ≠ filtered then 1 else 0
      debounceFiltered := self.stats.debounceFiltered + if raw ≠ debounced then 1 else 0
      impossibleFiltered :=
        self.stats.impossibleFiltered + if debounced ≠ filtered then 1 else 0 }
  ({ debouncer := debouncer, impossibleDetector := detector, stats := stats }, filtered)

end GhostInputFilter

end OpenFlight.Hid
