import OpenFlight.Core.Axis.Pipeline
import OpenFlight.Lib.Run

/-!
# Compiled Steps and their Nodes

What the compiler makes of a list of nodes, and when a step function does what
its node does.

A step function and its node agree on a state that carries the configuration
of the node, with one exception. Where a slew limiter sees a timestamp that is
not later than the one before, the node lets no time pass and holds its last
output, and the step function lets the frame pass. So the two agree exactly
where the frame is at the last output already (`slewStep_eq_iff`), and `Timely`
is that condition on a state and a frame that reaches it.

The compiler gives every node an offset of its own: a state takes up some
room, and the next one starts behind it.

## Main definitions

* `compiledStep`: The step function of a node.

## Theorems

* `stepSoa_configured`: A step keeps the configuration.
* `compile_eq`: What the compiler makes of some nodes.
-/

namespace OpenFlight.Axis

section

variable (powf : ℚ → ℚ → ℚ)

/-- The step function of a node. -/
def compiledStep : Node → StepFn
  | .deadzone _ => deadzoneStep
  | .curve _ => curveStep powf
  | .slew _ => slewStep
  | .filter _ => filterStep

variable (node : Node)

theorem generateStepFunction_eq :
    generateStepFunction powf node = .ok (compiledStep powf node) := by
  cases node <;> rfl

/-- The state is one of the node's kind and carries its configuration. -/
def Node.Configured : Node → CompiledState → Prop
  | .deadzone node, .deadzone state => state = node.initState
  | .curve node, .curve state => state = node.initState
  | .slew node, .slew state =>
      state.rateLimit = node.rateLimit ∧ state.attackRate = node.attackRate.getD node.rateLimit
  | .filter node, .filter state =>
      state.alpha = node.alpha ∧ state.spikeThreshold = node.spikeThreshold.getD 0 ∧
        state.maxSpikeCount = node.maxSpikeCount
  | _, _ => False

theorem initState_configured : node.Configured node.initState := by
  cases node with
  | deadzone node => exact rfl
  | curve node => exact rfl
  | slew node => exact ⟨rfl, rfl⟩
  | filter node => exact ⟨rfl, rfl, rfl⟩

/-- A frame that reaches a slew limiter comes after the last one, or finds its
    output where it would be held. -/
def Timely (frame : AxisFrame) : CompiledState → Prop
  | .slew state =>
      state.lastTimeNs = 0 ∨ state.lastTimeNs < frame.tsMonoNs ∨ frame.out = state.lastOutput
  | _ => True

/-- A limiter that lets no time pass holds its last output. -/
theorem stepSoa_held (node : SlewNode) (frame : AxisFrame) (state : SlewCompiledState)
    (hstarted : state.lastTimeNs ≠ 0) (hstale : ¬ state.lastTimeNs < frame.tsMonoNs) :
    node.stepSoa frame state =
      ({ frame with out := state.lastOutput }, { state with lastTimeNs := frame.tsMonoNs }) := by
  -- With no time passed, the change allowed is zero, so any change is cut to none.
  have hout : (if |frame.out - state.lastOutput| > 0 then state.lastOutput else frame.out) =
      state.lastOutput := by
    by_cases h : frame.out = state.lastOutput
    · rw [h, ite_self]
    · rw [if_pos (abs_pos.mpr (sub_ne_zero.mpr h))]
  simp only [SlewNode.stepSoa, hstarted, gt_iff_lt, hstale, if_false, mul_zero, add_zero]
  rw [hout]

variable (frame : AxisFrame)

/-- The step function lets the frame pass. -/
theorem slewStep_passed (state : SlewCompiledState) (hstarted : state.lastTimeNs ≠ 0)
    (hstale : ¬ state.lastTimeNs < frame.tsMonoNs) :
    slewStep frame (.slew state) =
      (frame, .slew { state with lastOutput := frame.out, lastTimeNs := frame.tsMonoNs }) := by
  simp only [slewStep, hstarted, gt_iff_lt, hstale, if_false]

/-- The two limiters agree exactly under the guard. -/
theorem slewStep_eq_iff (node : SlewNode) (frame : AxisFrame) (state : SlewCompiledState) :
    slewStep frame (.slew state) = (Node.slew node).stepSoa powf frame (.slew state) ↔
      Timely frame (.slew state) := by
  rw [Node.stepSoa, Timely]
  by_cases hfirst : state.lastTimeNs = 0
  · simp [slewStep, SlewNode.stepSoa, hfirst]
  · -- After the first frame the two differ only where no time passes.
    by_cases hlater : state.lastTimeNs < frame.tsMonoNs
    · simp [slewStep, SlewNode.stepSoa, hfirst, hlater]
    · rw [slewStep_passed frame state hfirst hlater, stepSoa_held node frame state hfirst hlater]
      rcases frame with ⟨inRaw, out, dInDt, tsMonoNs⟩
      rcases state with ⟨rateLimit, attackRate, lastOutput, lastTimeNs⟩
      have hnot : ¬ lastTimeNs < tsMonoNs := hlater
      have hne : ¬ lastTimeNs = 0 := hfirst
      -- What is left of the two results is the output and the remembered output.
      simp [hnot, hne]

/-- A step function does to a state that carries the configuration what the node does. -/
theorem compiledStep_eq (state : CompiledState) (hstate : node.Configured state)
    (htimely : Timely frame state) :
    compiledStep powf node frame state = node.stepSoa powf frame state := by
  cases node with
  | deadzone node =>
      cases state with
      | deadzone state =>
          rw [show state = node.initState from hstate]
          simp only [compiledStep, deadzoneStep, Node.stepSoa, DeadzoneNode.stepSoa,
            DeadzoneNode.step, DeadzoneNode.initState]
          -- Inside or outside the deadzone, and on either side of it.
          split <;> split <;> rfl
      | curve | slew | filter => exact hstate.elim
  | curve node =>
      cases state with
      | curve state =>
          rw [show state = node.initState from hstate]
          -- A curve without expo passes the frame on in both.
          by_cases hlinear : node.expo = 0
          · simp [compiledStep, curveStep, Node.stepSoa, CurveNode.stepSoa, CurveNode.step,
              CurveNode.initState, hlinear]
          · simp [compiledStep, curveStep, Node.stepSoa, CurveNode.stepSoa, CurveNode.step,
              CurveNode.initState, hlinear]
      | deadzone | slew | filter => exact hstate.elim
  | slew node =>
      cases state with
      | slew state => exact (slewStep_eq_iff powf node frame state).mpr htimely
      | deadzone | curve | filter => exact hstate.elim
  | filter node =>
      cases state with
      | filter state =>
          simp only [compiledStep, filterStep, Node.stepSoa, FilterNode.stepSoa,
            FilterNode.acceptInput]
          -- The two decide in the same order, so one split settles both.
          split
          · rfl
          · split
            · split
              · split <;> rfl
              · rfl
            · rfl
      | deadzone | curve | slew => exact hstate.elim

/-- A step keeps the configuration in the state. -/
theorem stepSoa_configured (state : CompiledState) (hstate : node.Configured state) :
    node.Configured (node.stepSoa powf frame state).2 := by
  cases node with
  | deadzone node =>
      cases state with
      | deadzone state => exact hstate
      | curve | slew | filter => exact hstate.elim
  | curve node =>
      cases state with
      | curve state => exact hstate
      | deadzone | slew | filter => exact hstate.elim
  | slew node =>
      cases state with
      | slew state =>
          simp only [Node.stepSoa, SlewNode.stepSoa]
          split <;> exact hstate
      | deadzone | curve | filter => exact hstate.elim
  | filter node =>
      cases state with
      | filter state =>
          -- The branches write outputs and counts, and no configuration.
          simp only [Node.stepSoa, FilterNode.stepSoa]
          split
          · exact hstate
          · split <;> exact hstate
      | deadzone | curve | slew => exact hstate.elim

theorem stepSoa_tsMonoNs (state : CompiledState) :
    (node.stepSoa powf frame state).1.tsMonoNs = frame.tsMonoNs := by
  cases node with
  | deadzone node =>
      cases state with
      | deadzone state =>
          simp only [Node.stepSoa, DeadzoneNode.stepSoa, DeadzoneNode.step]
          split <;> split <;> rfl
      | curve | slew | filter => rfl
  | curve node =>
      cases state with
      | curve state =>
          simp only [Node.stepSoa, CurveNode.stepSoa, CurveNode.step]
          split <;> rfl
      | deadzone | slew | filter => rfl
  | slew node =>
      cases state with
      | slew state =>
          simp only [Node.stepSoa, SlewNode.stepSoa]
          split <;> rfl
      | deadzone | curve | filter => rfl
  | filter node =>
      cases state with
      | filter state =>
          simp only [Node.stepSoa, FilterNode.stepSoa]
          split
          · rfl
          · split <;> rfl
      | deadzone | curve | slew => rfl

/-- A limiter notes the time of every frame. -/
theorem stepSoa_lastTimeNs (state : CompiledState) (hstate : node.Configured state)
    (after : SlewCompiledState) (h : (node.stepSoa powf frame state).2 = .slew after) :
    after.lastTimeNs = frame.tsMonoNs := by
  cases node with
  | slew node =>
      cases state with
      | slew state =>
          simp only [Node.stepSoa, SlewNode.stepSoa] at h
          split at h
          · rw [← CompiledState.slew.inj h]
          · rw [← CompiledState.slew.inj h]
      | deadzone | curve | filter => exact hstate.elim
  | deadzone node =>
      cases state with
      | deadzone state => exact absurd h (by simp [Node.stepSoa])
      | curve | slew | filter => exact hstate.elim
  | curve node =>
      cases state with
      | curve state => exact absurd h (by simp [Node.stepSoa])
      | deadzone | slew | filter => exact hstate.elim
  | filter node =>
      cases state with
      | filter state => exact absurd h (by simp [Node.stepSoa])
      | deadzone | curve | slew => exact hstate.elim

end

section

/-- The offsets of some nodes in a buffer that is filled up to a size. -/
def offsetsFrom (size : ℕ) : List Node → List ℕ
  | [] => []
  | node :: rest => alignTo64 size :: offsetsFrom (alignTo64 size + node.stateSize) rest

/-- The nodes with their offsets. -/
def layout (nodes : List Node) : List (Node × ℕ) :=
  nodes.zip (offsetsFrom 0 nodes)

theorem length_offsetsFrom (size : ℕ) (nodes : List Node) :
    (offsetsFrom size nodes).length = nodes.length := by
  induction nodes generalizing size with
  | nil => rfl
  | cons node rest ih => rw [offsetsFrom, List.length_cons, ih, List.length_cons]

theorem le_of_mem_offsetsFrom (size : ℕ) (nodes : List Node) (offset : ℕ)
    (h : offset ∈ offsetsFrom size nodes) : size ≤ offset := by
  induction nodes generalizing size with
  | nil => exact absurd h List.not_mem_nil
  | cons node rest ih =>
      have hle := le_alignTo64 size
      rcases List.mem_cons.mp h with rfl | hrest
      · exact hle
      · have := ih _ hrest
        omega

/-- A state takes up some room, so the next one stands elsewhere. -/
theorem nodup_offsetsFrom (size : ℕ) (nodes : List Node) : (offsetsFrom size nodes).Nodup := by
  induction nodes generalizing size with
  | nil => exact List.nodup_nil
  | cons node rest ih =>
      refine List.nodup_cons.mpr ⟨fun hmem => ?_, ih _⟩
      have hle := le_of_mem_offsetsFrom _ rest _ hmem
      -- The next state begins behind this one, which takes up at least one byte.
      have hroom : 0 < node.stateSize := by
        cases node <;> simp [Node.stateSize]
      omega

/-- No two nodes share an offset. -/
theorem nodup_layout (nodes : List Node) : ((layout nodes).map Prod.snd).Nodup := by
  rw [layout, List.map_snd_zip (by rw [length_offsetsFrom])]
  exact nodup_offsetsFrom 0 nodes

/-- The node at an offset is the only one there. -/
theorem eq_of_mem_layout (nodes : List Node) (e e' : Node × ℕ) (he : e ∈ layout nodes)
    (he' : e' ∈ layout nodes) (h : e.2 = e'.2) : e = e' :=
  List.inj_on_of_nodup_map (nodup_layout nodes) he he' h

variable (powf : ℚ → ℚ → ℚ)

/-- What the loop of the compiler adds to a pipeline. -/
theorem compileNodes_eq (nodes : List Node) (nodeId : UInt32) (p : Pipeline) :
    ∃ p', compileNodes powf nodes nodeId p = .ok p' ∧
      p'.stepFunctions = p.stepFunctions ++ nodes.map (compiledStep powf) ∧
      p'.stateOffsets = p.stateOffsets ++ offsetsFrom p.totalStateSize nodes := by
  induction nodes generalizing nodeId p with
  | nil => exact ⟨p, rfl, (List.append_nil _).symm, (List.append_nil _).symm⟩
  -- The induction is on the nodes that are left, for any pipeline built so far.
  | cons node rest ih =>
      rcases ih (nodeId + 1) (p.addCompiledNode (compiledStep powf node) nodeId node.nodeType
        node.stateSize) with ⟨p', hcompiled, hfunctions, hoffsets⟩
      refine ⟨p', ?_, ?_, ?_⟩
      · rw [compileNodes, generateStepFunction_eq]
        exact hcompiled
      · rw [hfunctions, Pipeline.addCompiledNode, List.append_assoc]
        rfl
      · rw [hoffsets, Pipeline.addCompiledNode, Pipeline.stateOffsets, List.map_append,
          List.append_assoc]
        rfl

/-- What the compiler makes of some nodes. -/
theorem compile_eq (nodes : List Node) (p : Pipeline) (h : compile powf nodes = .ok p) :
    p.stepFunctions = nodes.map (compiledStep powf) ∧ p.stateOffsets = offsetsFrom 0 nodes ∧
      p.sourceNodes = some nodes := by
  rcases compileNodes_eq powf nodes 1 .new with ⟨p', hcompiled, hfunctions, hoffsets⟩
  unfold compile at h
  split at h
  · exact absurd h (by simp)
  · rw [hcompiled] at h
    dsimp only at h
    split at h
    · rw [← Except.ok.inj h]
      exact ⟨hfunctions, hoffsets, rfl⟩
    · exact absurd h (by simp)

end

end OpenFlight.Axis
