import OpenFlight.Core.Prim

/-!
# Recording and Playback of an Axis

A recording of timed samples, and a player that gives them out again window by
window.

A recording is as long as its latest sample is late. A player has a position in
time and a place in the list of samples, and each call moves both: it gives out
the samples from the place on whose time lies before the end of the window, as
many as the caller's 32 slots hold. A looping player whose window reaches the
end of the recording gives out what is left of it, starts again at the first
sample and goes on to where the window ends.

## Main definitions

* `AxisSample`, `AxisRecording`: The data.
* `advance`, `isFinished`: The calls.
-/

namespace OpenFlight.Axis

/-- A value at a time. -/
structure AxisSample where
  timestampUs : UInt64
  axisIndex : UInt8
  value : F32
deriving DecidableEq

/-- Samples, and the time they span. -/
structure AxisRecording where
  samples : List AxisSample
  durationUs : UInt64

namespace AxisRecording

/-- A recording without samples. -/
def new : AxisRecording :=
  { samples := []
    durationUs := 0 }

/-- One more sample. -/
def record (recording : AxisRecording) (timestampUs : UInt64) (axisIndex : UInt8) (value : F32) :
    AxisRecording :=
  { samples := recording.samples ++
      [{ timestampUs := timestampUs, axisIndex := axisIndex, value := value }]
    durationUs := if timestampUs > recording.durationUs then timestampUs else recording.durationUs }

/-- The recording of the samples, one after the other. -/
def recordAll (samples : List AxisSample) : AxisRecording :=
  samples.foldl (fun recording s => recording.record s.timestampUs s.axisIndex s.value) .new

end AxisRecording

/-- `u64::saturating_add`. -/
def saturatingAddUs (a b : UInt64) : UInt64 :=
  UInt64.ofNat (min (a.toNat + b.toNat) (2 ^ 64 - 1))

/-- A player. -/
structure AxisPlayback where
  recording : AxisRecording
  currentUs : UInt64
  sampleIndex : ℕ
  looping : Bool

/-- The samples from a place on, up to the first at whose time the loop stops and
    no more than there is room for, and the place after them. -/
def collect (samples : List AxisSample) (stop : UInt64 → Bool) : ℕ → ℕ → ℕ × List AxisSample
  | 0, sampleIndex => (sampleIndex, [])
  | room + 1, sampleIndex =>
      match samples[sampleIndex]? with
      | some sample =>
          if stop sample.timestampUs then (sampleIndex, [])
          else
            let rest := collect samples stop room (sampleIndex + 1)
            (rest.1, sample :: rest.2)
      | none => (sampleIndex, [])

namespace AxisPlayback

/-- A player at the start. -/
def new (recording : AxisRecording) (looping : Bool) : AxisPlayback :=
  { recording := recording
    currentUs := 0
    sampleIndex := 0
    looping := looping }

/-- Playback from the current position for a time, with the samples that are
    written to the caller's 32 slots; their number is returned. -/
def advance (playback : AxisPlayback) (deltaUs : UInt64) : AxisPlayback × List AxisSample :=
  let windowEnd := saturatingAddUs playback.currentUs deltaUs
  let duration := playback.recording.durationUs
  let samples := playback.recording.samples
  if playback.looping ∧ 0 < duration ∧ duration ≤ windowEnd then
    let tail := collect samples (fun ts => duration < ts) 32 playback.sampleIndex
    let newPos := windowEnd % duration
    let head := collect samples (fun ts => newPos ≤ ts) (32 - tail.2.length) 0
    ({ playback with currentUs := newPos, sampleIndex := head.1 }, tail.2 ++ head.2)
  else
    let window := collect samples (fun ts => windowEnd ≤ ts) 32 playback.sampleIndex
    ({ playback with currentUs := windowEnd, sampleIndex := window.1 }, window.2)

/-- Whether all of it was played. -/
def isFinished (playback : AxisPlayback) : Bool :=
  !playback.looping && playback.recording.durationUs ≤ playback.currentUs

end AxisPlayback

end OpenFlight.Axis
