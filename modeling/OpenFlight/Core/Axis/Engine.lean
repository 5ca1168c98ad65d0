import OpenFlight.Core.Axis.Pipeline
import OpenFlight.Core.Prim

/-!
# The Axis Engine

The engine that runs the pipeline of an axis and takes new pipelines in between
two frames.

A new pipeline is validated and kept as pending; the next frame makes it the
active one before it is processed. The version of a pipeline is one more than
the number of swaps, as the counters have it when the pipeline comes in.

The calls do not contend for locks here, so no `try_lock` fails. The counters
are those that the calls read or write, as words that wrap around; the conflict
detector, the annotator and the allocation checks are left out. A call takes as
an input what the source measures: the time that a frame took, and the size of
the buffer that a new state has.

## Main definitions

* `EngineConfig`, `CompiledPipeline`, `AxisEngine`: The engine.
* `EngineOp`, `engineStep`: The calls as steps of a machine.
-/

namespace OpenFlight.Axis

/-- `delta_time_from`, in seconds. -/
def AxisFrame.deltaTimeFrom (frame previous : AxisFrame) : ℚ :=
  if frame.tsMonoNs > previous.tsMonoNs then seconds (frame.tsMonoNs - previous.tsMonoNs) else 0

/-- The change of the raw input over time. -/
def AxisFrame.updateDerivative (frame previous : AxisFrame) : AxisFrame :=
  let dt := frame.deltaTimeFrom previous
  { frame with dInDt := if dt > 0 then (frame.inRaw - previous.inRaw) / dt else 0 }

/-- The counters, and what changes them. -/
structure RuntimeCounters where
  framesProcessed : UInt64
  pipelineSwaps : UInt64
  deadlineMisses : UInt64
  maxFrameTimeUs : UInt32
  avgFrameTimeUs : UInt32
  capabilityClampEvents : UInt64

namespace RuntimeCounters

/-- All counters at zero. -/
def new : RuntimeCounters :=
  { framesProcessed := 0
    pipelineSwaps := 0
    deadlineMisses := 0
    maxFrameTimeUs := 0
    avgFrameTimeUs := 0
    capabilityClampEvents := 0 }

/-- `record_frame_time`: the average is a moving one with a weight of a tenth. -/
def recordFrameTime (counters : RuntimeCounters) (duration : Duration) : RuntimeCounters :=
  let micros := UInt32.ofNat (duration / 1000)
  { counters with
    maxFrameTimeUs := if micros > counters.maxFrameTimeUs then micros
      else counters.maxFrameTimeUs
    avgFrameTimeUs := if counters.avgFrameTimeUs = 0 then micros
      else UInt32.ofNat ((counters.avgFrameTimeUs.toNat * 9 + micros.toNat) / 10)
    framesProcessed := counters.framesProcessed + 1 }

/-- All counters at zero again. -/
def reset (_counters : RuntimeCounters) : RuntimeCounters :=
  .new

end RuntimeCounters

/-- What an engine checks and counts. -/
structure EngineConfig where
  maxFrameTimeUs : UInt32
  enableCounters : Bool

/-- A pipeline with its buffer and version. -/
structure CompiledPipeline where
  pipeline : Pipeline
  state : PipelineState
  version : UInt64

/-- Why a new pipeline is refused. -/
inductive EngineCompileError
  | pipeline (error : PipelineError)
  | invalidState

/-- The text of an error. -/
def EngineCompileError.display : EngineCompileError → String
  | .pipeline error => "Pipeline validation failed: " ++ error.display
  | .invalidState => "Invalid state configuration"

/-- An update of this engine is pending or failed. -/
inductive UpdateResult
  | success
  | pending
  | failed (message : String)
  | rejected (message : String)
deriving DecidableEq

/-- `maxAxisOutput` is the limit of the capability mode. -/
structure AxisEngine where
  activePipeline : Option CompiledPipeline
  pendingPipeline : Option CompiledPipeline
  config : EngineConfig
  counters : RuntimeCounters
  lastFrame : Option AxisFrame
  swapAckCounter : UInt64
  maxAxisOutput : ℚ

namespace AxisEngine

/-- `with_config`, in the mode without restrictions. -/
def withConfig (config : EngineConfig) : AxisEngine :=
  { activePipeline := none
    pendingPipeline := none
    config := config
    counters := .new
    lastFrame := none
    swapAckCounter := 0
    maxAxisOutput := 1 }

/-- `compile_and_validate`, with the size of the buffer of the new state. -/
def compileAndValidate (engine : AxisEngine) (pipeline : Pipeline) (bufferSize : ℕ) :
    Except EngineCompileError CompiledPipeline :=
  match pipeline.validate with
  | .error error => .error (.pipeline error)
  | .ok () =>
      if bufferSize = 0 then .error .invalidState
      else
        .ok
          { pipeline := pipeline
            state := pipeline.createState
            version := engine.counters.pipelineSwaps + 1 }

/-- A new pipeline waits for the next frame. -/
def updatePipeline (engine : AxisEngine) (pipeline : Pipeline) (bufferSize : ℕ) :
    AxisEngine × UpdateResult :=
  match engine.compileAndValidate pipeline bufferSize with
  | .ok compiled => ({ engine with pendingPipeline := some compiled }, .pending)
  | .error error => (engine, .failed error.display)

/-- The pipeline that waits becomes active. -/
def trySwapPipeline (engine : AxisEngine) : AxisEngine :=
  match engine.pendingPipeline with
  | some newPipeline =>
      { engine with
        activePipeline := some newPipeline
        pendingPipeline := none
        swapAckCounter := engine.swapAckCounter + 1
        counters := { engine.counters with
          pipelineSwaps := engine.counters.pipelineSwaps + 1 } }
  | none => engine

/-- `process_frame` of the active pipeline, where there is one. -/
def processFrame (powf : ℚ → ℚ → ℚ) (engine : AxisEngine) (frame : AxisFrame) :
    AxisEngine × AxisFrame :=
  match engine.activePipeline with
  | some active =>
      let result := active.pipeline.process powf active.state frame
      ({ engine with activePipeline := some { active with state := result.1 } }, result.2)
  | none => (engine, frame)

/-- The output is cut to the limit. -/
def applyCapabilityClamps (engine : AxisEngine) (frame : AxisFrame) : AxisEngine × AxisFrame :=
  if |frame.out| > engine.maxAxisOutput then
    ({ engine with
        counters := { engine.counters with
          capabilityClampEvents := engine.counters.capabilityClampEvents + 1 } },
      { frame with out := signum frame.out * engine.maxAxisOutput })
  else (engine, frame)

/-- The counters and the time of a frame. -/
def recordTiming (engine : AxisEngine) (elapsed : Duration) : AxisEngine :=
  if engine.config.enableCounters then
    let counters := engine.counters.recordFrameTime elapsed
    { engine with
      counters :=
        if elapsed / 1000 > engine.config.maxFrameTimeUs.toNat then
          { counters with deadlineMisses := counters.deadlineMisses + 1 }
        else counters }
  else engine

/-- One frame through the active pipeline. -/
def process (powf : ℚ → ℚ → ℚ) (engine : AxisEngine) (frame : AxisFrame) (elapsed : Duration) :
    AxisEngine × AxisFrame :=
  let derived :=
    match engine.lastFrame with
    | some last => frame.updateDerivative last
    | none => frame
  let processed := engine.trySwapPipeline.processFrame powf derived
  let clamped := processed.1.applyCapabilityClamps processed.2
  ({ clamped.1.recordTiming elapsed with lastFrame := some clamped.2 }, clamped.2)

/-- The counters start again. -/
def resetCounters (engine : AxisEngine) : AxisEngine :=
  { engine with counters := engine.counters.reset }

/-- The version of the active pipeline. -/
def activeVersion (engine : AxisEngine) : Option UInt64 :=
  engine.activePipeline.map CompiledPipeline.version

/-- How many swaps were made. -/
def swapAckCount (engine : AxisEngine) : UInt64 :=
  engine.swapAckCounter

end AxisEngine

/-- The calls. -/
inductive EngineOp
  | updatePipeline (pipeline : Pipeline) (bufferSize : ℕ)
  | process (frame : AxisFrame) (elapsed : Duration)
  | resetCounters

/-- One call. -/
def engineStep (powf : ℚ → ℚ → ℚ) (engine : AxisEngine) : EngineOp → AxisEngine
  | .updatePipeline pipeline bufferSize => (engine.updatePipeline pipeline bufferSize).1
  | .process frame elapsed => (engine.process powf frame elapsed).1
  | .resetCounters => engine.resetCounters

end OpenFlight.Axis
