import Mathlib.Algebra.Order.Field.Rat

/-!
# Pipeline Nodes

The nodes of an axis pipeline, and what each of them does to a frame.

A node has its configuration in its fields and its runtime state in a buffer
that `init_state` writes. Into the same buffer goes a copy of the
configuration, for the step functions that have no node to ask. `step_soa` is
free to read either: the deadzone and the curve read the node, the slew limiter
and the filter the copy.

Numbers are exact rationals, and `powf` is a parameter. The padding of the
records is left out. `Node` has the nodes without lists in their configuration:
the detents stand on their own, and mixers are not modelled.

## Main definitions

* `DeadzoneNode`, `CurveNode`, `SlewNode`, `FilterNode`: The nodes.
* `Node`, `CompiledState`: Any node, and its state.
-/

namespace OpenFlight.Axis

/-- A sample on its way through the pipeline. -/
structure AxisFrame where
  inRaw : ℚ
  out : ℚ
  dInDt : ℚ
  tsMonoNs : UInt64
deriving DecidableEq

/-- A frame whose output is its input. -/
def AxisFrame.new (input : ℚ) (timestampNs : UInt64) : AxisFrame :=
  { inRaw := input
    out := input
    dInDt := 0
    tsMonoNs := timestampNs }

/-- `f32::signum`. -/
def signum (q : ℚ) : ℚ :=
  if q < 0 then -1 else 1

/-- Nanoseconds as seconds. -/
def seconds (ns : UInt64) : ℚ :=
  ns.toNat / 1000000000

/-- No output for small inputs. -/
structure DeadzoneNode where
  threshold : ℚ
  thresholdNeg : Option ℚ

/-- A dead zone in the buffer. -/
structure DeadzoneCompiledState where
  threshold : ℚ
  thresholdNeg : ℚ

namespace DeadzoneNode

/-- Nothing within the zone, the rest stretched over the range. -/
def step (node : DeadzoneNode) (frame : AxisFrame) : AxisFrame :=
  let threshold := if frame.out < 0 then node.thresholdNeg.getD node.threshold else node.threshold
  if |frame.out| < threshold then { frame with out := 0 }
  else { frame with out := signum frame.out * ((|frame.out| - threshold) / (1 - threshold)) }

/-- The thresholds of both sides. -/
def initState (node : DeadzoneNode) : DeadzoneCompiledState :=
  { threshold := node.threshold
    thresholdNeg := node.thresholdNeg.getD node.threshold }

/-- `step_soa`: the state is not read. -/
def stepSoa (node : DeadzoneNode) (frame : AxisFrame) (state : DeadzoneCompiledState) :
    AxisFrame × DeadzoneCompiledState :=
  (node.step frame, state)

end DeadzoneNode

/-- An exponential curve. -/
structure CurveNode where
  expo : ℚ

/-- A curve in the buffer. -/
structure CurveCompiledState where
  expo : ℚ
  exponent : ℚ

namespace CurveNode

variable (powf : ℚ → ℚ → ℚ)

/-- The output bent by its exponent, its sign kept. -/
def step (node : CurveNode) (frame : AxisFrame) : AxisFrame :=
  if node.expo = 0 then frame
  else { frame with out := signum frame.out * powf |frame.out| (1 + node.expo) }

/-- The exponent of a curve. -/
def initState (node : CurveNode) : CurveCompiledState :=
  { expo := node.expo
    exponent := 1 + node.expo }

/-- `step_soa`: the state is not read. -/
def stepSoa (node : CurveNode) (frame : AxisFrame) (state : CurveCompiledState) :
    AxisFrame × CurveCompiledState :=
  (node.step powf frame, state)

end CurveNode

/-- A limit on the rate of change. -/
structure SlewNode where
  rateLimit : ℚ
  attackRate : Option ℚ

/-- A slew limit in the buffer. -/
structure SlewCompiledState where
  rateLimit : ℚ
  attackRate : ℚ
  lastOutput : ℚ
  lastTimeNs : UInt64

namespace SlewNode

/-- One rate for both directions. -/
def new (rateLimit : ℚ) : SlewNode :=
  { rateLimit := max rateLimit 0
    attackRate := none }

/-- A limit with two rates. -/
def asymmetric (attackRate decayRate : ℚ) : SlewNode :=
  { rateLimit := max decayRate 0
    attackRate := some (max attackRate 0) }

/-- A limiter that has seen no frame. -/
def initState (node : SlewNode) : SlewCompiledState :=
  { rateLimit := node.rateLimit
    attackRate := node.attackRate.getD node.rateLimit
    lastOutput := 0
    lastTimeNs := 0 }

/-- `step_soa`: the node is not read. -/
def stepSoa (_node : SlewNode) (frame : AxisFrame) (state : SlewCompiledState) :
    AxisFrame × SlewCompiledState :=
  if state.lastTimeNs = 0 then
    (frame, { state with lastOutput := frame.out, lastTimeNs := frame.tsMonoNs })
  else
    -- No time has passed where the timestamps are equal or go backwards.
    let dtS := if frame.tsMonoNs > state.lastTimeNs
      then seconds (frame.tsMonoNs - state.lastTimeNs) else 0
    let desiredChange := frame.out - state.lastOutput
    let rate := if signum desiredChange = signum frame.out then state.attackRate
      else state.rateLimit
    let maxChange := rate * dtS
    let out := if |desiredChange| > maxChange
      then state.lastOutput + signum desiredChange * maxChange else frame.out
    ({ frame with out := out },
      { state with lastOutput := out, lastTimeNs := frame.tsMonoNs })

end SlewNode

/-- A low-pass filter that may reject spikes. -/
structure FilterNode where
  alpha : ℚ
  spikeThreshold : Option ℚ
  maxSpikeCount : UInt8

/-- A filter in the buffer. -/
structure FilterCompiledState where
  alpha : ℚ
  spikeThreshold : ℚ
  maxSpikeCount : UInt8
  prevOutput : ℚ
  lastRaw : ℚ
  spikeCount : UInt8
  initialized : Bool

/-- `u8::saturating_add` of one. -/
def saturatingSucc (n : UInt8) : UInt8 :=
  if n = 255 then 255 else n + 1

namespace FilterNode

/-- A filter that rejects spikes. -/
def withSpikeRejection (alpha threshold : ℚ) : FilterNode :=
  { alpha := min (max alpha 0) 1
    spikeThreshold := some (max threshold 0)
    maxSpikeCount := 3 }

/-- A filter that has seen no frame. -/
def initState (node : FilterNode) : FilterCompiledState :=
  { alpha := node.alpha
    spikeThreshold := node.spikeThreshold.getD 0
    maxSpikeCount := node.maxSpikeCount
    prevOutput := 0
    lastRaw := 0
    spikeCount := 0
    initialized := false }

/-- Whether the input is accepted, and the count of spikes after it. -/
def acceptInput (state : FilterCompiledState) (input : ℚ) : Bool × UInt8 :=
  if state.spikeThreshold > 0 then
    if |input - state.lastRaw| > state.spikeThreshold then
      let spikeCount := saturatingSucc state.spikeCount
      if spikeCount ≥ state.maxSpikeCount then (true, 0) else (false, spikeCount)
    else (true, 0)
  else (true, state.spikeCount)

/-- `step_soa`: the node is not read. -/
def stepSoa (_node : FilterNode) (frame : AxisFrame) (state : FilterCompiledState) :
    AxisFrame × FilterCompiledState :=
  let input := frame.out
  if !state.initialized then
    (frame, { state with prevOutput := input, lastRaw := input, initialized := true })
  else
    let (accepted, spikeCount) := acceptInput state input
    if accepted then
      let out := state.alpha * input + (1 - state.alpha) * state.prevOutput
      ({ frame with out := out },
        { state with spikeCount := spikeCount, prevOutput := out, lastRaw := input })
    else
      ({ frame with out := state.prevOutput }, { state with spikeCount := spikeCount })

end FilterNode

/-- The nodes of a pipeline. -/
inductive Node
  | deadzone (node : DeadzoneNode)
  | curve (node : CurveNode)
  | slew (node : SlewNode)
  | filter (node : FilterNode)

/-- The state of a node in the buffer. -/
inductive CompiledState
  | deadzone (state : DeadzoneCompiledState)
  | curve (state : CurveCompiledState)
  | slew (state : SlewCompiledState)
  | filter (state : FilterCompiledState)

/-- A step on a frame and the state of one node. -/
abbrev StepFn := AxisFrame → CompiledState → AxisFrame × CompiledState

namespace Node

/-- The name of a node's kind. -/
def nodeType : Node → String
  | .deadzone _ => "deadzone"
  | .curve _ => "curve"
  | .slew _ => "slew"
  | .filter _ => "filter"

/-- `state_size`: the bytes that the record takes up. -/
def stateSize : Node → ℕ
  | .deadzone _ => 8
  | .curve _ => 8
  | .slew _ => 24
  | .filter _ => 32

/-- The first state of a compiled node. -/
def initState : Node → CompiledState
  | .deadzone node => .deadzone node.initState
  | .curve node => .curve node.initState
  | .slew node => .slew node.initState
  | .filter node => .filter node.initState

/-- `step_soa`. A node is never given the state of another kind. -/
def stepSoa (powf : ℚ → ℚ → ℚ) : Node → StepFn
  | .deadzone node, frame, .deadzone state => (node.stepSoa frame state).map id .deadzone
  | .curve node, frame, .curve state => (node.stepSoa powf frame state).map id .curve
  | .slew node, frame, .slew state => (node.stepSoa frame state).map id .slew
  | .filter node, frame, .filter state => (node.stepSoa frame state).map id .filter
  | _, frame, state => (frame, state)

end Node

/-- What a detent is for. -/
inductive DetentRole
  | idle
  | taxi
  | takeoff
  | climb
  | cruise
  | approach
  | landing
  | reverse
  | emergency
  | custom (id : UInt8)

/-- A detent, and how far it reaches. -/
structure DetentZone where
  center : ℚ
  halfWidth : ℚ
  hysteresis : ℚ
  role : DetentRole
  snapToCenter : Bool

namespace DetentZone

/-- A zone within the range of the axis. -/
def new (center halfWidth hysteresis : ℚ) (role : DetentRole) : DetentZone :=
  { center := min (max center (-1)) 1
    halfWidth := max halfWidth 0
    hysteresis := max hysteresis 0
    role := role
    snapToCenter := true }

/-- Whether a position enters the zone. -/
def containsEntry (zone : DetentZone) (position : ℚ) : Bool :=
  |position - zone.center| ≤ zone.halfWidth

/-- Whether a position has not left the zone yet. -/
def containsExit (zone : DetentZone) (position : ℚ) : Bool :=
  |position - zone.center| ≤ zone.halfWidth + zone.hysteresis

end DetentZone

/-- A change of the active detent. -/
structure DetentEvent where
  timestampNs : UInt64
  fromDetent : Option DetentRole
  toDetent : Option DetentRole
  position : ℚ

/-- `u32::MAX`, which stands for no detent. -/
def noDetent : UInt32 :=
  0xFFFFFFFF

/-- The active zone by its index. -/
structure DetentState where
  activeDetentIdx : UInt32
  lastPosition : ℚ
  lastEventNs : UInt64

/-- The detents of an axis. -/
structure DetentNode where
  zones : List DetentZone

namespace DetentNode

/-- The zones in the order of their centers, those of one center as they come. -/
def new (zones : List DetentZone) : DetentNode :=
  { zones := zones.mergeSort fun a b => a.center ≤ b.center }

/-- The first zone that a position enters. -/
def findEntryDetent (node : DetentNode) (position : ℚ) : Option ℕ :=
  node.zones.findIdx? fun zone => zone.containsEntry position

/-- Whether the active zone is kept. -/
def isWithinExitThreshold (node : DetentNode) (position : ℚ) (detentIdx : ℕ) : Bool :=
  match node.zones[detentIdx]? with
  | some zone => zone.containsExit position
  | none => false

/-- The role of a detent by its index. The source panics at an index that is not one of a zone. -/
def roleOf (node : DetentNode) (idx : UInt32) : Option DetentRole :=
  if idx ≠ noDetent then node.zones[idx.toNat]?.map DetentZone.role else none

/-- No detent is active. -/
def initState (_node : DetentNode) : DetentState :=
  { activeDetentIdx := noDetent
    lastPosition := 0
    lastEventNs := 0 }

/-- The detent after a frame: the one before it, as long as the position is within its exit
    threshold, or the first that the position enters. Its index is cut to 32 bits. -/
def newDetentIdx (node : DetentNode) (state : DetentState) (position : ℚ) : UInt32 :=
  if state.activeDetentIdx ≠ noDetent ∧
      node.isWithinExitThreshold position state.activeDetentIdx.toNat then
    state.activeDetentIdx
  else
    match node.findEntryDetent position with
    | some idx => UInt32.ofNat idx
    | none => noDetent

/-- `step_soa`, with the event that is handed to the sender. -/
def stepSoa (node : DetentNode) (frame : AxisFrame) (state : DetentState) :
    AxisFrame × DetentState × Option DetentEvent :=
  let position := frame.out
  let newIdx := node.newDetentIdx state position
  let out :=
    if newIdx ≠ noDetent then
      match node.zones[newIdx.toNat]? with
      | some zone => if zone.snapToCenter then zone.center else frame.out
      | none => frame.out
    else frame.out
  if newIdx ≠ state.activeDetentIdx then
    ({ frame with out := out },
      { activeDetentIdx := newIdx, lastPosition := position, lastEventNs := frame.tsMonoNs },
      some
        { timestampNs := frame.tsMonoNs
          fromDetent := node.roleOf state.activeDetentIdx
          toDetent := node.roleOf newIdx
          position := position })
  else
    ({ frame with out := out }, { state with lastPosition := position }, none)

end DetentNode

end OpenFlight.Axis
