import OpenFlight.Theory.Axis.CompiledSteps

/-!
# Compiled Pipelines Do What the Nodes Do

When a pipeline gives the same output through its step functions as through its
nodes, whatever frames it is given.

That a node finds its own configuration in the buffer is an invariant of both
ways of processing (`Bound`), since no two nodes share an offset. Under it, the
loops over the nodes and over the step functions take the same steps as long
as every frame that reaches a slew limiter meets the guard (`TimelyFrame`), and
so do the runs over the frames.

## Main definitions

* `Bound`, `Ready`: The configuration of the nodes is in the buffer.
* `TimelyAt`, `TimelyFrame`: The guard along the loop.

## Theorems

* `compiled_eq_nodes`: The outputs along a run.
* `compiled_ne_nodes`: A run with equal timestamps.
-/

namespace OpenFlight.Axis

section

variable (powf : ℚ → ℚ → ℚ) (nodes : List Node)

/-- Every node finds a state with its configuration at its offset. -/
def Bound (buffer : StateBuffer) : Prop :=
  ∀ e ∈ layout nodes, ∃ state, buffer.lookup e.2 = some state ∧ e.1.Configured state

theorem lookup_initWithNodes (e : Node × ℕ) (he : e ∈ layout nodes) :
    (Pipeline.initWithNodes nodes (offsetsFrom 0 nodes)).lookup e.2 = some e.1.initState := by
  -- The initial buffer is written at distinct offsets, so each write is read back.
  have hwritten : Pipeline.initWithNodes nodes (offsetsFrom 0 nodes) =
      insertSome ∅ ((layout nodes).map fun e => (e.2, some e.1.initState)) := by
    rw [insertSome, List.foldl_map]
    rfl
  have hnodup : (((layout nodes).map fun e => (e.2, some e.1.initState)).map Prod.fst).Nodup := by
    rw [List.map_map]
    exact nodup_layout nodes
  rw [hwritten, lookup_insertSome_of_mem ∅ _ hnodup e.2 (some e.1.initState)
    (List.mem_map.mpr ⟨e, he, rfl⟩)]
  rfl

theorem initWithNodes_bound : Bound nodes (Pipeline.initWithNodes nodes (offsetsFrom 0 nodes)) :=
  fun e he => ⟨e.1.initState, lookup_initWithNodes nodes e he, initState_configured e.1⟩

/-- A node at its offset. -/
def nodeStep (s : AxisFrame × StateBuffer) (e : Node × ℕ) : AxisFrame × StateBuffer :=
  Pipeline.stepAt (e.1.stepSoa powf) e.2 s

/-- Its step function there. -/
def functionStep (s : AxisFrame × StateBuffer) (e : Node × ℕ) : AxisFrame × StateBuffer :=
  Pipeline.stepAt (compiledStep powf e.1) e.2 s

variable (s : AxisFrame × StateBuffer)

/-- The loops of `process` are runs over the layout. -/
theorem processNodes_eq_run : Pipeline.processNodes powf nodes (offsetsFrom 0 nodes) s =
      run (nodeStep powf) s (layout nodes) := rfl

theorem processFunctions_eq_run :
    Pipeline.processFunctions (nodes.map (compiledStep powf)) (offsetsFrom 0 nodes) s =
      run (functionStep powf) s (layout nodes) := by
  rw [Pipeline.processFunctions, List.zip_map_left, List.foldl_map]
  rfl

/-- The guard on a frame that reaches a node. -/
def TimelyAt (s : AxisFrame × StateBuffer) (e : Node × ℕ) : Prop :=
  ∀ state, s.2.lookup e.2 = some state → Timely s.1 state

/-- The guard on a frame that enters the pipeline. -/
def TimelyFrame (state : PipelineState) (frame : AxisFrame) : Prop :=
  StepsMeet (nodeStep powf) TimelyAt (frame, state.stateBuffer) (layout nodes)

theorem nodeStep_of_lookup (e : Node × ℕ) (state : CompiledState)
    (h : s.2.lookup e.2 = some state) :
    nodeStep powf s e =
      ((e.1.stepSoa powf s.1 state).1, s.2.insert e.2 (e.1.stepSoa powf s.1 state).2) := by
  rw [nodeStep, Pipeline.stepAt, h]

theorem nodeStep_bound (e : Node × ℕ) (he : e ∈ layout nodes) (h : Bound nodes s.2) :
    Bound nodes (nodeStep powf s e).2 := by
  rcases h e he with ⟨state, hlookup, hstate⟩
  rw [nodeStep_of_lookup powf s e state hlookup]
  intro e' he'
  -- Two nodes at one offset are one node, since the offsets differ.
  by_cases heq : e'.2 = e.2
  · rw [eq_of_mem_layout nodes e' e he' he heq]
    exact ⟨_, Finmap.lookup_insert _, stepSoa_configured powf e.1 s.1 state hstate⟩
  · rw [Finmap.lookup_insert_of_ne _ heq]
    exact h e' he'

theorem functionStep_eq (e : Node × ℕ) (he : e ∈ layout nodes) (h : Bound nodes s.2)
    (htimely : TimelyAt s e) : functionStep powf s e = nodeStep powf s e := by
  rcases h e he with ⟨state, hlookup, hstate⟩
  rw [nodeStep_of_lookup powf s e state hlookup, functionStep, Pipeline.stepAt, hlookup]
  dsimp only
  rw [compiledStep_eq powf e.1 s.1 state hstate (htimely state hlookup)]

/-- One frame comes out of both loops alike, and so does the buffer. -/
theorem processFunctions_eq (state : PipelineState) (frame : AxisFrame)
    (h : Bound nodes state.stateBuffer) (htimely : TimelyFrame powf nodes state frame) :
    Pipeline.processFunctions (nodes.map (compiledStep powf)) (offsetsFrom 0 nodes)
        (frame, state.stateBuffer) =
      Pipeline.processNodes powf nodes (offsetsFrom 0 nodes) (frame, state.stateBuffer) := by
  rw [processFunctions_eq_run, processNodes_eq_run]
  -- Both loops go through the same list, and each step agrees under the guard.
  exact run_eq_of_stepsMeet (nodeStep powf) (functionStep powf) (fun s => Bound nodes s.2)
    TimelyAt (layout nodes) (fun e he s => nodeStep_bound powf nodes s e he)
    (fun e he s => functionStep_eq powf nodes s e he) _ h htimely

/-- A state that the pipeline made, or came to by processing. -/
structure Ready (state : PipelineState) : Prop where
  offsets : state.stateOffsets = offsetsFrom 0 nodes
  bound : Bound nodes state.stateBuffer

variable {nodes} {p : Pipeline}

section

variable (hp : compile powf nodes = .ok p)

include hp

theorem createState_eq : p.createState =
      ⟨Pipeline.initWithNodes nodes (offsetsFrom 0 nodes), offsetsFrom 0 nodes⟩ := by
  rcases compile_eq powf nodes p hp with ⟨-, hoffsets, hnodes⟩
  rw [Pipeline.createState, hnodes, hoffsets]

theorem createState_ready : Ready nodes p.createState := by
  rw [createState_eq powf hp]
  exact ⟨rfl, initWithNodes_bound nodes⟩

section

variable (state : PipelineState) (frame : AxisFrame) (h : Ready nodes state)

include state frame h

theorem process_eq : p.process powf state frame = ({ state with
          stateBuffer := (run (nodeStep powf) (frame, state.stateBuffer) (layout nodes)).2 },
        (run (nodeStep powf) (frame, state.stateBuffer) (layout nodes)).1) := by
  rcases compile_eq powf nodes p hp with ⟨-, -, hnodes⟩
  rw [Pipeline.process, hnodes, h.offsets]
  rfl

theorem process_ready : Ready nodes (p.process powf state frame).1 := by
  rw [process_eq powf hp state frame h]
  refine ⟨h.offsets, ?_⟩
  exact run_invariant_of_mem (nodeStep powf) (fun s => Bound nodes s.2) (layout nodes)
    (fun e he s => nodeStep_bound powf nodes s e he) (frame, state.stateBuffer) h.bound

theorem process_withoutSourceNodes (htimely : TimelyFrame powf nodes state frame) :
    p.withoutSourceNodes.process powf state frame = p.process powf state frame := by
  rcases compile_eq powf nodes p hp with ⟨hfunctions, -, hnodes⟩
  rw [Pipeline.process, Pipeline.process, Pipeline.withoutSourceNodes, hnodes]
  dsimp only
  rw [hfunctions, h.offsets, processFunctions_eq powf nodes state frame h.bound htimely]

end

end

end

section

variable (powf : ℚ → ℚ → ℚ) (nodes : List Node)

theorem stepAt_lookup_of_ne (stepFn : StepFn) (s : AxisFrame × StateBuffer) (offset other : ℕ)
    (h : other ≠ offset) :
    (Pipeline.stepAt stepFn offset s).2.lookup other = s.2.lookup other := by
  rw [Pipeline.stepAt]
  split
  · exact Finmap.lookup_insert_of_ne _ h
  · rfl

theorem nodeStep_lookup_of_ne (s : AxisFrame × StateBuffer) (e : Node × ℕ) (offset : ℕ)
    (h : offset ≠ e.2) : (nodeStep powf s e).2.lookup offset = s.2.lookup offset :=
  stepAt_lookup_of_ne (e.1.stepSoa powf) s e.2 offset h

/-- Steps at other offsets leave the record at an offset alone. -/
theorem run_lookup_of_not_mem (step : AxisFrame × StateBuffer → Node × ℕ → AxisFrame × StateBuffer)
    (hstep : ∀ s e offset, offset ≠ e.2 → (step s e).2.lookup offset = s.2.lookup offset)
    (l : List (Node × ℕ)) (s : AxisFrame × StateBuffer) (offset : ℕ)
    (h : offset ∉ l.map Prod.snd) : (run step s l).2.lookup offset = s.2.lookup offset := by
  induction l generalizing s with
  | nil => rfl
  | cons e rest ih =>
      rw [List.map_cons, List.mem_cons, not_or] at h
      rw [run_cons, ih _ h.2, hstep s e offset h.1]

/-- A slew limiter at the offset ran last at a time. -/
def RanAt (buffer : StateBuffer) (time : UInt64) (e : Node × ℕ) : Prop :=
  ∀ state, buffer.lookup e.2 = some (.slew state) → state.lastTimeNs = time

theorem nodeStep_tsMonoNs (s : AxisFrame × StateBuffer) (e : Node × ℕ) :
    (nodeStep powf s e).1.tsMonoNs = s.1.tsMonoNs := by
  -- No node writes the timestamp of the frame.
  rw [nodeStep, Pipeline.stepAt]
  split
  · exact stepSoa_tsMonoNs powf e.1 s.1 _
  · rfl

theorem nodeStep_ranAt (s : AxisFrame × StateBuffer) (e : Node × ℕ) (he : e ∈ layout nodes)
    (h : Bound nodes s.2) : RanAt (nodeStep powf s e).2 s.1.tsMonoNs e := by
  rcases h e he with ⟨state, hlookup, hstate⟩
  intro after hafter
  rw [nodeStep_of_lookup powf s e state hlookup, Finmap.lookup_insert, Option.some_inj] at hafter
  exact stepSoa_lastTimeNs powf e.1 s.1 state hstate after hafter

/-- The limiters have run at one time, and the frame is later: it meets the
    guard at each of them, and leaves them all at its own time. -/
theorem run_timely (prev : UInt64) (l : List (Node × ℕ)) (hl : ∀ e ∈ l, e ∈ layout nodes)
    (hnodup : (l.map Prod.snd).Nodup) (s : AxisFrame × StateBuffer) (h : Bound nodes s.2)
    (hlater : prev = 0 ∨ prev < s.1.tsMonoNs) (hran : ∀ e ∈ l, RanAt s.2 prev e) :
    StepsMeet (nodeStep powf) TimelyAt s l ∧
      ∀ e ∈ l, RanAt (run (nodeStep powf) s l).2 s.1.tsMonoNs e := by
  induction l generalizing s with
  | nil => exact ⟨trivial, fun e he => absurd he List.not_mem_nil⟩
  | cons e rest ih =>
      rw [List.map_cons, List.nodup_cons] at hnodup
      have he := hl e List.mem_cons_self
      -- The offsets differ, so this step does not write to any later record.
      have hother : ∀ e' ∈ rest, e'.2 ≠ e.2 := fun e' he' heq =>
        hnodup.1 (heq ▸ List.mem_map_of_mem he')
      have hrest := ih (fun e' he' => hl e' (List.mem_cons_of_mem e he')) hnodup.2
        (nodeStep powf s e) (nodeStep_bound powf nodes s e he h)
        (by rw [nodeStep_tsMonoNs]; exact hlater) (fun e' he' state hlookup => by
          rw [nodeStep_lookup_of_ne powf s e e'.2 (hother e' he')] at hlookup
          exact hran e' (List.mem_cons_of_mem e he') state hlookup)
      rw [nodeStep_tsMonoNs] at hrest
      refine ⟨⟨fun state hlookup => ?_, hrest.1⟩, fun e' he' => ?_⟩
      · cases state with
        | slew state =>
            have htime := hran e List.mem_cons_self state hlookup
            rw [Timely, htime]
            exact hlater.imp_right .inl
        | deadzone | curve | filter => trivial
      · rcases List.mem_cons.mp he' with rfl | hmem
        · -- The nodes behind this one do not write to its record.
          intro state hlookup
          rw [run_cons, run_lookup_of_not_mem (nodeStep powf) (nodeStep_lookup_of_ne powf) rest _ _
            hnodup.1] at hlookup
          exact nodeStep_ranAt powf nodes s e' he h state hlookup
        · exact hrest.2 e' hmem

/-- A timestamp of zero counts as none, and any other one is earlier than the next. -/
def Increasing (timestamps : List UInt64) : Prop :=
  timestamps.IsChain fun earlier later => earlier = 0 ∨ earlier < later

variable {nodes} {p : Pipeline}

theorem stepsMeet_of_increasing (hp : compile powf nodes = .ok p) (prev : UInt64)
    (state : PipelineState) (frames : List AxisFrame) (h : Ready nodes state)
    (hran : ∀ e ∈ layout nodes, RanAt state.stateBuffer prev e)
    (hincreasing : Increasing (prev :: frames.map AxisFrame.tsMonoNs)) :
    StepsMeet (fun state frame => (p.process powf state frame).1) (TimelyFrame powf nodes)
      state frames := by
  induction frames generalizing prev state with
  | nil => trivial
  | cons frame rest ih =>
      rw [List.map_cons, Increasing, List.isChain_cons_cons] at hincreasing
      have htimely := run_timely powf nodes prev (layout nodes) (fun e he => he)
        (nodup_layout nodes) (frame, state.stateBuffer) h.bound hincreasing.1 hran
      -- After the frame, every limiter has its timestamp, which the next one exceeds.
      refine ⟨htimely.1, ih frame.tsMonoNs _ (process_ready powf hp state frame h) ?_
        hincreasing.2⟩
      dsimp only
      rw [process_eq powf hp state frame h]
      exact htimely.2

/-- Timestamps that increase meet the guard all along. -/
theorem timely_of_increasing (hp : compile powf nodes = .ok p) (frames : List AxisFrame)
    (h : Increasing (frames.map AxisFrame.tsMonoNs)) :
    StepsMeet (fun state frame => (p.process powf state frame).1) (TimelyFrame powf nodes)
      p.createState frames := by
  -- A new state has not seen a frame, which is what a time of zero stands for.
  refine stepsMeet_of_increasing powf hp 0 _ frames (createState_ready powf hp) ?_ ?_
  · rw [createState_eq powf hp]
    intro e he state hlookup
    rw [lookup_initWithNodes nodes e he, Option.some_inj] at hlookup
    cases hnode : e.1 with
    | slew node =>
        rw [hnode] at hlookup
        rw [← CompiledState.slew.inj hlookup]
        rfl
    | deadzone | curve | filter =>
        rw [hnode] at hlookup
        exact absurd hlookup (by simp [Node.initState])
  · cases frames with
    | nil => exact List.isChain_singleton 0
    | cons frame rest => exact List.isChain_cons_cons.mpr ⟨.inl rfl, h⟩

end

/-- Frame by frame, a compiled pipeline gives the same output through its step functions as through
    its nodes, along a run of frames that all meet the guard where they reach a slew limiter. -/
theorem compiled_eq_nodes (powf : ℚ → ℚ → ℚ) {nodes : List Node} {p : Pipeline}
    (hp : compile powf nodes = .ok p) (frames : List AxisFrame)
    (h : StepsMeet (fun state frame => (p.process powf state frame).1) (TimelyFrame powf nodes)
      p.createState frames) :
    responses (p.withoutSourceNodes.process powf) p.createState frames =
      responses (p.process powf) p.createState frames :=
  responses_eq_of_stepsMeet (p.process powf) (p.withoutSourceNodes.process powf) (Ready nodes)
    (TimelyFrame powf nodes) (process_ready powf hp) (process_withoutSourceNodes powf hp) _ frames
    (createState_ready powf hp) h

/-- A limiter of one unit per second behind a deadzone. -/
def limitedNodes : List Node :=
  [.deadzone ⟨1 / 10, none⟩, .slew ⟨1, none⟩]

def limitedPipeline : Pipeline :=
  { stepFunctions := [deadzoneStep, slewStep]
    nodeMetadata := [⟨1, "deadzone", 0, 8⟩, ⟨2, "slew", 64, 24⟩]
    totalStateSize := 88
    sourceNodes := some limitedNodes }

/-- Two frames, and the second one is a millisecond later. -/
theorem compiled_eq_nodes_later :
    responses (limitedPipeline.withoutSourceNodes.process fun x _ => x)
        limitedPipeline.createState [.new 0 1, .new 1 1000001] =
      responses (limitedPipeline.process fun x _ => x)
        limitedPipeline.createState [.new 0 1, .new 1 1000001] := by
  have hp : compile (fun x _ => x) limitedNodes = .ok limitedPipeline := rfl
  refine compiled_eq_nodes (fun x _ => x) hp _ (timely_of_increasing _ hp _ ?_)
  exact List.isChain_cons_cons.mpr ⟨.inr (by decide), List.isChain_singleton _⟩

/-- The second one has the timestamp of the first. -/
theorem compiled_ne_nodes : responses (limitedPipeline.withoutSourceNodes.process fun x _ => x)
        limitedPipeline.createState [.new 0 1, .new 1 1] ≠
      responses (limitedPipeline.process fun x _ => x)
        limitedPipeline.createState [.new 0 1, .new 1 1] := by
  decide +kernel

end OpenFlight.Axis
