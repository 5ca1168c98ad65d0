import OpenFlight.Core.Axis.Nodes
import OpenFlight.Lib.Overlay

/-!
# The Axis Pipeline and its Compiler

Nodes compiled to step functions, and frames processed by either.

The compiler generates a step function for each node and lays the states of
the nodes out in one buffer, each at an offset that is a multiple of the size
of a cache line. A pipeline that knows its nodes processes a frame by calling
them; one that does not calls the step functions. A step function has nothing
but the buffer to read its configuration from.

The buffer is the records that were written to it, by offset. What the bytes
of a record are, and that it is as large as `stateSize` says, is left to the
layout of records that the source asks for.

Where the buffer lies is a matter of its own, in machine words. It is allocated,
and when its address is no multiple of 64 it is made larger, so that it can be
started at such an address: the bytes before that are drained, and what is
behind the size wanted is cut off. Making it larger may move it. The addresses
are chosen by the allocator, so they come in. Draining moves the bytes that are
left to the front of the allocation; the address of a buffer stays what it was.
Additions wrap.

## Main definitions

* `Pipeline`, `PipelineState`: A compiled pipeline and its runtime state.
* `StateSlot`, `StateLayout`, `layoutOf`: The offsets and sizes of the states.
-/

namespace OpenFlight.Axis

/-- `generate_deadzone_step_fn`. -/
def deadzoneStep : StepFn
  | frame, .deadzone config =>
      let threshold := if frame.out < 0 then config.thresholdNeg else config.threshold
      let out := if |frame.out| < threshold then 0
        else signum frame.out * ((|frame.out| - threshold) / (1 - threshold))
      ({ frame with out := out }, .deadzone config)
  | frame, state => (frame, state)

/-- `generate_curve_step_fn`. -/
def curveStep (powf : ℚ → ℚ → ℚ) : StepFn
  | frame, .curve config =>
      if config.expo = 0 then (frame, .curve config)
      else ({ frame with out := signum frame.out * powf |frame.out| config.exponent },
        .curve config)
  | frame, state => (frame, state)

/-- `generate_slew_step_fn`. -/
def slewStep : StepFn
  | frame, .slew state =>
      if state.lastTimeNs = 0 then
        (frame, .slew { state with lastOutput := frame.out, lastTimeNs := frame.tsMonoNs })
      else
        let out :=
          if frame.tsMonoNs > state.lastTimeNs then
            let dtS := seconds (frame.tsMonoNs - state.lastTimeNs)
            let desiredChange := frame.out - state.lastOutput
            let rate := if signum desiredChange = signum frame.out then state.attackRate
              else state.rateLimit
            let maxChange := rate * dtS
            if |desiredChange| > maxChange then
              state.lastOutput + signum desiredChange * maxChange
            else frame.out
          -- The limiter is passed by where no time has passed.
          else frame.out
        ({ frame with out := out },
          .slew { state with lastOutput := out, lastTimeNs := frame.tsMonoNs })
  | frame, state => (frame, state)

/-- `generate_filter_step_fn`. -/
def filterStep : StepFn
  | frame, .filter state =>
      let accept (state : FilterCompiledState) : AxisFrame × CompiledState :=
        let out := state.alpha * frame.out + (1 - state.alpha) * state.prevOutput
        ({ frame with out := out },
          .filter { state with prevOutput := out, lastRaw := frame.out })
      if !state.initialized then
        (frame,
          .filter { state with prevOutput := frame.out, lastRaw := frame.out, initialized := true })
      else if state.spikeThreshold > 0 then
        if |frame.out - state.lastRaw| > state.spikeThreshold then
          let counted := { state with spikeCount := saturatingSucc state.spikeCount }
          if counted.spikeCount ≥ counted.maxSpikeCount then
            accept { counted with spikeCount := 0 }
          else ({ frame with out := counted.prevOutput }, .filter counted)
        else accept { state with spikeCount := 0 }
      else accept state
  | frame, state => (frame, state)

/-- `generate_detent_step_fn` and `generate_mixer_step_fn`. -/
def noStep : StepFn :=
  fun frame state => (frame, state)

/-- A node, and where its state lies. -/
structure NodeMetadata where
  nodeId : UInt32
  nodeType : String
  stateOffset : ℕ
  stateSize : ℕ

/-- The step functions, and the nodes if they are known. -/
structure Pipeline where
  stepFunctions : List StepFn
  nodeMetadata : List NodeMetadata
  totalStateSize : ℕ
  sourceNodes : Option (List Node)

/-- Why a state does not fit. -/
inductive PipelineError
  | metadataMismatch
  | alignmentError
deriving DecidableEq

/-- The text of an error. -/
def PipelineError.display : PipelineError → String
  | .metadataMismatch => "Pipeline metadata mismatch"
  | .alignmentError => "State buffer alignment error"

/-- Why nothing was compiled. -/
inductive CompileError
  | emptyPipeline
  | stateLayout (message : String)
  | functionGeneration

/-- The records in the state buffer, by offset. -/
abbrev StateBuffer := HashMap ℕ CompiledState

/-- The buffer with the offsets in it. -/
structure PipelineState where
  stateBuffer : StateBuffer
  stateOffsets : List ℕ

/-- The next multiple of 64. -/
def alignTo64 (size : ℕ) : ℕ :=
  (size + 63) / 64 * 64

theorem le_alignTo64 (size : ℕ) : size ≤ alignTo64 size := by
  unfold alignTo64
  omega

namespace Pipeline

/-- A pipeline without steps. -/
def new : Pipeline :=
  { stepFunctions := []
    nodeMetadata := []
    totalStateSize := 0
    sourceNodes := none }

/-- One more step function. -/
def addCompiledNode (p : Pipeline) (stepFn : StepFn) (nodeId : UInt32) (nodeType : String)
    (stateSize : ℕ) : Pipeline :=
  let stateOffset := alignTo64 p.totalStateSize
  { p with
    stepFunctions := p.stepFunctions ++ [stepFn]
    nodeMetadata := p.nodeMetadata ++ [⟨nodeId, nodeType, stateOffset, stateSize⟩]
    totalStateSize := stateOffset + stateSize }

/-- Every step has its data, aligned to eight bytes. -/
def validate (p : Pipeline) : Except PipelineError Unit :=
  if p.stepFunctions.length ≠ p.nodeMetadata.length then .error .metadataMismatch
  else if p.nodeMetadata.any fun data => data.stateOffset % 8 != 0 then .error .alignmentError
  else .ok ()

/-- The offsets of the states. -/
def stateOffsets (p : Pipeline) : List ℕ :=
  p.nodeMetadata.map NodeMetadata.stateOffset

/-- The state of every node at its offset. -/
def initWithNodes (nodes : List Node) (offsets : List ℕ) : StateBuffer :=
  (nodes.zip offsets).foldl (fun buffer e => buffer.insert e.2 e.1.initState) ∅

/-- The state that the nodes ask for. -/
def createState (p : Pipeline) : PipelineState :=
  { stateBuffer := match p.sourceNodes with
      | some nodes => initWithNodes nodes p.stateOffsets
      | none => ∅
    stateOffsets := p.stateOffsets }

/-- A step at an offset of the buffer. -/
def stepAt (stepFn : StepFn) (offset : ℕ) (s : AxisFrame × StateBuffer) : AxisFrame × StateBuffer :=
  match s.2.lookup offset with
  | some state => ((stepFn s.1 state).1, s.2.insert offset (stepFn s.1 state).2)
  | none => s

/-- The loop of `process` over the nodes. -/
def processNodes (powf : ℚ → ℚ → ℚ) (nodes : List Node) (offsets : List ℕ)
    (s : AxisFrame × StateBuffer) : AxisFrame × StateBuffer :=
  (nodes.zip offsets).foldl (fun s e => stepAt (e.1.stepSoa powf) e.2 s) s

/-- The loop of `process` over the step functions. -/
def processFunctions (functions : List StepFn) (offsets : List ℕ) (s : AxisFrame × StateBuffer) :
    AxisFrame × StateBuffer :=
  (functions.zip offsets).foldl (fun s e => stepAt e.1 e.2 s) s

/-- One frame through the pipeline. -/
def process (powf : ℚ → ℚ → ℚ) (p : Pipeline) (state : PipelineState) (frame : AxisFrame) :
    PipelineState × AxisFrame :=
  let result := match p.sourceNodes with
    | some nodes => processNodes powf nodes state.stateOffsets (frame, state.stateBuffer)
    | none => processFunctions p.stepFunctions state.stateOffsets (frame, state.stateBuffer)
  ({ state with stateBuffer := result.2 }, result.1)

/-- The pipeline without its nodes, which is left to its step functions. -/
def withoutSourceNodes (p : Pipeline) : Pipeline :=
  { p with sourceNodes := none }

end Pipeline

/-- The step function of a node. -/
def generateStepFunction (powf : ℚ → ℚ → ℚ) (node : Node) : Except CompileError StepFn :=
  match node.nodeType with
  | "deadzone" => .ok deadzoneStep
  | "curve" => .ok (curveStep powf)
  | "slew" => .ok slewStep
  | "detent" => .ok noStep
  | "mixer" => .ok noStep
  | "filter" => .ok filterStep
  | _ => .error .functionGeneration

/-- The loop of `compile`. -/
def compileNodes (powf : ℚ → ℚ → ℚ) : List Node → UInt32 → Pipeline → Except CompileError Pipeline
  | [], _, p => .ok p
  | node :: rest, nodeId, p =>
      match generateStepFunction powf node with
      | .error e => .error e
      | .ok stepFn =>
          compileNodes powf rest (nodeId + 1)
            (p.addCompiledNode stepFn nodeId node.nodeType node.stateSize)

/-- The compiler. -/
def compile (powf : ℚ → ℚ → ℚ) (nodes : List Node) : Except CompileError Pipeline :=
  if nodes.isEmpty then .error .emptyPipeline
  else match compileNodes powf nodes 1 .new with
    | .error e => .error e
    | .ok p =>
        let compiled := { p with sourceNodes := some nodes }
        match compiled.validate with
        | .ok () => .ok compiled
        | .error e => .error (.stateLayout e.display)

/-- Where the state of a node lies. -/
structure StateSlot where
  stateOffset : UInt64
  stateSize : UInt64

/-- The slots, and how long they are together. -/
structure StateLayout where
  slots : List StateSlot
  totalStateSize : UInt64

/-- `align_to_64`, in machine words. -/
def alignWord (size : UInt64) : UInt64 :=
  (size + 63) &&& ~~~63

namespace StateLayout

/-- A layout without slots. -/
def new : StateLayout :=
  { slots := [], totalStateSize := 0 }

/-- `add_compiled_node`, as far as the layout goes. -/
def addCompiledNode (layout : StateLayout) (stateSize : UInt64) : StateLayout :=
  let stateOffset := alignWord layout.totalStateSize
  { slots := layout.slots ++ [⟨stateOffset, stateSize⟩]
    totalStateSize := stateOffset + stateSize }

end StateLayout

/-- The layout of nodes with these state sizes. -/
def layoutOf (sizes : List UInt64) : StateLayout :=
  sizes.foldl StateLayout.addCompiledNode .new

/-- A vector of bytes and the address of its first byte. -/
structure StateVec where
  base : UInt64
  bytes : List UInt8

/-- `isize::MAX`, which no vector may be larger than. -/
def isizeMax : ℕ := 2 ^ 63 - 1

/-- `vec![0u8; size]`, at an address. -/
def zeroed (base size : UInt64) : Option StateVec :=
  if size.toNat ≤ isizeMax then some ⟨base, List.replicate size.toNat 0⟩ else none

/-- `Vec::resize`, after which the vector is at an address. -/
def StateVec.resize (vec : StateVec) (base size : UInt64) : Option StateVec :=
  if size.toNat ≤ isizeMax then
    some ⟨base, vec.bytes.take size.toNat ++ List.replicate (size.toNat - vec.bytes.length) 0⟩
  else none

/-- `Vec::drain` of the bytes before an index. -/
def StateVec.drain (vec : StateVec) (stop : UInt64) : Option StateVec :=
  if stop.toNat ≤ vec.bytes.length then some { vec with bytes := vec.bytes.drop stop.toNat }
  else none

/-- `Vec::truncate`. -/
def StateVec.truncate (vec : StateVec) (size : UInt64) : StateVec :=
  { vec with bytes := vec.bytes.take size.toNat }

/-- The buffer of `create_state`, with the addresses of the first allocation and of the
    second one. Without memory or past the end of the vector there is none. -/
def createBuffer (totalStateSize first second : UInt64) : Option StateVec := do
  let alignedSize := alignWord (max totalStateSize 64)
  let stateBuffer ← zeroed first alignedSize
  let alignment := stateBuffer.base % 64
  if alignment ≠ 0 then
    let extra := 64 - alignment
    let stateBuffer ← stateBuffer.resize second (alignedSize + extra)
    let newPtr := stateBuffer.base
    let alignedOffset := ((newPtr + 63) &&& ~~~63) - newPtr
    let stateBuffer ← stateBuffer.drain alignedOffset
    return stateBuffer.truncate alignedSize
  else return stateBuffer

end OpenFlight.Axis
