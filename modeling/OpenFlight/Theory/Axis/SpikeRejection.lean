import Mathlib.Tactic.Linarith
import Mathlib.Tactic.Ring
import OpenFlight.Core.Axis.Nodes
import OpenFlight.Lib.Run

/-!
# Spikes That Leave No Trace

What the spike rejection of the filter does to the outputs around a spike, and
where the outputs lie.

A rejected frame changes nothing in the state of the filter but the count of
spikes, and the next frame that is not a spike sets that to zero. So a few
spikes can be taken out of the input without the filter ever showing it, as
long as none of them is accepted. The filter accepts a spike when it is the
last of as many in a row as `maxSpikeCount` says, and spikes that were rejected
just before count too: taking out the end of a row of spikes that is long
enough is taking out one that was accepted.

What the filter puts out is the first input mixed with the accepted ones. With
a smoothing factor from zero to one it lies between two of them.

## Main definitions

* `filterFrame`: One frame, with the frame that comes out.
* `Filtered`, `filteredStep`: The filter, the inputs it has accepted and the
  frames it has rejected since.

## Theorems

* `spikes_leave_no_trace`: Both halves, over every run.
* `accepted_spike_leaves_trace`: A row of spikes of which the last is accepted.
-/

namespace OpenFlight.Axis

/-- One frame, with the frame that comes out. -/
def filterFrame (node : FilterNode) (state : FilterCompiledState) (frame : AxisFrame) :
    FilterCompiledState × AxisFrame :=
  (node.stepSoa frame state).swap

/-- A filter, the inputs that it has accepted, the latest first, and the number
    of frames in a row that it has rejected since. -/
structure Filtered where
  state : FilterCompiledState
  accepted : List ℚ
  rejected : ℕ

def Filtered.new (node : FilterNode) : Filtered :=
  { state := node.initState
    accepted := []
    rejected := 0 }

/-- One frame, which the filter accepts when it is the first or by its own test. -/
def filteredStep (node : FilterNode) (filter : Filtered) (frame : AxisFrame) : Filtered :=
  let next := (filterFrame node filter.state frame).1
  if filter.state.initialized = false ∨
      (FilterNode.acceptInput filter.state frame.out).1 = true then
    { state := next
      accepted := frame.out :: filter.accepted
      rejected := 0 }
  else
    { state := next
      accepted := filter.accepted
      rejected := filter.rejected + 1 }

/-- The outputs of the frames around a part of the input are those of the input without it. -/
def SpikesUnseen (node : FilterNode) (pre spikes rest : List AxisFrame) : Prop :=
  let outputs := responses (filterFrame node) node.initState (pre ++ spikes ++ rest)
  outputs.take pre.length ++ outputs.drop (pre.length + spikes.length) =
    responses (filterFrame node) node.initState (pre ++ rest)

instance (node : FilterNode) (pre spikes rest : List AxisFrame) :
    Decidable (SpikesUnseen node pre spikes rest) :=
  inferInstanceAs (Decidable (_ = _))

/-- A value that is neither below all of the inputs nor above all of them. -/
def Between (inputs : List ℚ) (q : ℚ) : Prop :=
  (∃ a ∈ inputs, a ≤ q) ∧ ∃ b ∈ inputs, q ≤ b

instance (inputs : List ℚ) (q : ℚ) : Decidable (Between inputs q) :=
  inferInstanceAs (Decidable (_ ∧ _))

/-- What holds of a filter in every run: its configuration, and what its state
    says about the frames so far. -/
structure FilterLaw (node : FilterNode) (filter : Filtered) : Prop where
  alpha : filter.state.alpha = node.alpha
  threshold : filter.state.spikeThreshold = node.spikeThreshold.getD 0
  maxSpikeCount : filter.state.maxSpikeCount = node.maxSpikeCount
  spikeCount : filter.state.spikeCount.toNat = filter.rejected
  initialized : filter.state.initialized = !filter.accepted.isEmpty
  fresh : filter.state.initialized = false → filter.rejected = 0
  lastRaw : ∀ last ∈ filter.accepted.head?, filter.state.lastRaw = last

theorem toNat_saturatingSucc (n : UInt8) : (saturatingSucc n).toNat = min (n.toNat + 1) 255 := by
  have hlt := n.toNat_lt
  unfold saturatingSucc
  split_ifs with h
  · rw [h]
    rfl
  · have hne : n.toNat ≠ 255 := fun heq => h (UInt8.toNat_inj.mp heq)
    rw [UInt8.toNat_add, show (1 : UInt8).toNat = 1 from rfl]
    omega

section

variable (node : FilterNode) (state : FilterCompiledState) (frame : AxisFrame)

theorem filterFrame_new (h : state.initialized = false) : filterFrame node state frame =
      ({ state with prevOutput := frame.out, lastRaw := frame.out, initialized := true },
        frame) := by
  unfold filterFrame FilterNode.stepSoa
  rw [if_pos (by rw [h]; rfl)]
  rfl

/-- An accepted frame is mixed with the output before it. -/
theorem filterFrame_accepted (h : state.initialized = true) (hthreshold : 0 < state.spikeThreshold)
    (haccept : (FilterNode.acceptInput state frame.out).1 = true) :
    filterFrame node state frame =
      ({ state with
          spikeCount := 0
          prevOutput := state.alpha * frame.out + (1 - state.alpha) * state.prevOutput
          lastRaw := frame.out },
        { frame with out := state.alpha * frame.out + (1 - state.alpha) * state.prevOutput }) := by
  have hcount : FilterNode.acceptInput state frame.out = (true, 0) := by
    unfold FilterNode.acceptInput at haccept ⊢
    rw [if_pos hthreshold] at haccept ⊢
    dsimp only at haccept ⊢
    split_ifs at haccept ⊢ <;> rfl
  unfold filterFrame FilterNode.stepSoa
  rw [if_neg (by rw [h]; decide), hcount]
  rfl

/-- A rejected frame is answered with the output before it, and counted. -/
theorem filterFrame_rejected (h : state.initialized = true) (hthreshold : 0 < state.spikeThreshold)
    (hreject : (FilterNode.acceptInput state frame.out).1 = false) :
    filterFrame node state frame =
      ({ state with spikeCount := saturatingSucc state.spikeCount },
        { frame with out := state.prevOutput }) := by
  have hcount :
      FilterNode.acceptInput state frame.out = (false, saturatingSucc state.spikeCount) := by
    unfold FilterNode.acceptInput at hreject ⊢
    rw [if_pos hthreshold] at hreject ⊢
    dsimp only at hreject ⊢
    split_ifs at hreject ⊢
    rfl
  unfold filterFrame FilterNode.stepSoa
  rw [if_neg (by rw [h]; decide), hcount]
  rfl

/-- A frame is rejected when it is a spike and one too few in a row. -/
theorem acceptInput_eq_false (hthreshold : 0 < state.spikeThreshold)
    (hspike : state.spikeThreshold < |frame.out - state.lastRaw|)
    (hfew : state.spikeCount.toNat + 1 < state.maxSpikeCount.toNat) :
    (FilterNode.acceptInput state frame.out).1 = false := by
  unfold FilterNode.acceptInput
  rw [if_pos hthreshold, if_pos hspike]
  dsimp only
  rw [if_neg]
  refine UInt8.not_le.mpr (UInt8.lt_iff_toNat_lt.mpr ?_)
  rw [toNat_saturatingSucc]
  omega

/-- A rejected frame adds one to the count, which was not yet at its end. -/
theorem toNat_saturatingSucc_of_rejected (hthreshold : 0 < state.spikeThreshold)
    (hreject : (FilterNode.acceptInput state frame.out).1 = false) :
    (saturatingSucc state.spikeCount).toNat = state.spikeCount.toNat + 1 := by
  have hfew : ¬ saturatingSucc state.spikeCount ≥ state.maxSpikeCount := by
    intro hmany
    unfold FilterNode.acceptInput at hreject
    rw [if_pos hthreshold] at hreject
    dsimp only at hreject
    rw [if_pos hmany, ite_self] at hreject
    exact absurd hreject (by decide)
  have hlt := UInt8.lt_iff_toNat_lt.mp (UInt8.not_le.mp hfew)
  have hmax := state.maxSpikeCount.toNat_lt
  rw [toNat_saturatingSucc] at hlt ⊢
  omega

theorem acceptInput_eq_true (hnear : |frame.out - state.lastRaw| ≤ state.spikeThreshold) :
    (FilterNode.acceptInput state frame.out).1 = true := by
  unfold FilterNode.acceptInput
  rw [if_neg (not_lt_of_ge hnear)]
  split_ifs <;> rfl

end

section

variable (node : FilterNode)

/-- A row of spikes too short to be accepted leaves the state but for the count. -/
theorem run_filterFrame_spikes (spikes : List AxisFrame) (state : FilterCompiledState)
    (h : state.initialized = true) (hthreshold : 0 < state.spikeThreshold)
    (hspikes : ∀ f ∈ spikes, state.spikeThreshold < |f.out - state.lastRaw|)
    (hfew : state.spikeCount.toNat + spikes.length < state.maxSpikeCount.toNat) :
    ∃ count, run (fun s f => (filterFrame node s f).1) state spikes =
      { state with spikeCount := count } := by
  induction spikes generalizing state with
  | nil => exact ⟨state.spikeCount, rfl⟩
  | cons spike rest ih =>
      rw [List.length_cons] at hfew
      have hreject := acceptInput_eq_false state spike hthreshold
        (hspikes spike List.mem_cons_self) (by omega)
      rw [run_cons, filterFrame_rejected node state spike h hthreshold hreject]
      refine ih { state with spikeCount := saturatingSucc state.spikeCount } h hthreshold
        (fun f hf => hspikes f (List.mem_cons_of_mem spike hf)) ?_
      dsimp only
      rw [toNat_saturatingSucc]
      omega

/-- A frame that is not a spike does not see the count. -/
theorem filterFrame_count (state : FilterCompiledState) (frame : AxisFrame) (count : UInt8)
    (h : state.initialized = true) (hthreshold : 0 < state.spikeThreshold)
    (hnear : |frame.out - state.lastRaw| ≤ state.spikeThreshold) :
    filterFrame node { state with spikeCount := count } frame = filterFrame node state frame := by
  rw [filterFrame_accepted node state frame h hthreshold (acceptInput_eq_true state frame hnear),
    filterFrame_accepted node { state with spikeCount := count } frame h hthreshold
      (acceptInput_eq_true { state with spikeCount := count } frame hnear)]

theorem filterLaw_new : FilterLaw node (.new node) where
  alpha := rfl
  threshold := rfl
  maxSpikeCount := rfl
  spikeCount := rfl
  initialized := rfl
  fresh := fun _ => rfl
  lastRaw := fun _ h => absurd h (Option.not_mem_none _)

/-- Every frame keeps the law: the cases are those of the filter. -/
theorem filterLaw_step (hthreshold : 0 < node.spikeThreshold.getD 0) (filter : Filtered)
    (frame : AxisFrame) (h : FilterLaw node filter) :
    FilterLaw node (filteredStep node filter frame) := by
  have hpos : 0 < filter.state.spikeThreshold := by
    rw [h.threshold]
    exact hthreshold
  unfold filteredStep
  by_cases hinit : filter.state.initialized = true
  · by_cases haccept : (FilterNode.acceptInput filter.state frame.out).1 = true
    · rw [if_pos (Or.inr haccept), filterFrame_accepted node filter.state frame hinit hpos haccept]
      exact ⟨h.alpha, h.threshold, h.maxSpikeCount, rfl, hinit, fun _ => rfl,
        fun last hl => Option.some.inj hl⟩
    · have hreject := Bool.eq_false_of_not_eq_true haccept
      rw [if_neg (by rw [hinit, hreject]; decide),
        filterFrame_rejected node filter.state frame hinit hpos hreject]
      -- The state's count has not come to its end, so it goes up with the ghost's.
      refine ⟨h.alpha, h.threshold, h.maxSpikeCount, ?_, h.initialized,
        fun hnew => absurd (hinit.symm.trans hnew) (by decide), h.lastRaw⟩
      exact (toNat_saturatingSucc_of_rejected filter.state frame hpos hreject).trans
        (congrArg (· + 1) h.spikeCount)
  · have hnew := Bool.eq_false_of_not_eq_true hinit
    rw [if_pos (Or.inl hnew), filterFrame_new node filter.state frame hnew]
    exact ⟨h.alpha, h.threshold, h.maxSpikeCount, h.spikeCount.trans (h.fresh hnew), rfl,
      fun _ => rfl, fun last hl => Option.some.inj hl⟩

theorem filterLaw_run (hthreshold : 0 < node.spikeThreshold.getD 0) (frames : List AxisFrame) :
    FilterLaw node (run (filteredStep node) (.new node) frames) :=
  run_invariant _ _ (filterLaw_step node hthreshold) _ _ (filterLaw_new node)

/-- The ghost run goes through the states of the filter. -/
theorem run_filteredStep_state (frames : List AxisFrame) (filter : Filtered) :
    (run (filteredStep node) filter frames).state =
      run (fun s f => (filterFrame node s f).1) filter.state frames := by
  induction frames generalizing filter with
  | nil => rfl
  | cons frame rest ih =>
      rw [run_cons, run_cons, ih]
      unfold filteredStep
      split_ifs <;> rfl

/-- Spikes after an accepted input, with those rejected just before too few to be
    accepted, and before a frame that is not a spike. -/
theorem spikesUnseen_of_few (hthreshold : 0 < node.spikeThreshold.getD 0)
    (pre spikes rest : List AxisFrame) (back : AxisFrame) (last : ℚ)
    (hlast : (run (filteredStep node) (.new node) pre).accepted.head? = some last)
    (hspikes : ∀ f ∈ spikes, node.spikeThreshold.getD 0 < |f.out - last|)
    (hback : |back.out - last| ≤ node.spikeThreshold.getD 0)
    (hfew : (run (filteredStep node) (.new node) pre).rejected + spikes.length
      < node.maxSpikeCount.toNat) :
    SpikesUnseen node pre spikes (back :: rest) := by
  have hlaw := filterLaw_run node hthreshold pre
  have hraw := hlaw.lastRaw last hlast
  have hinit := hlaw.initialized
  have hpos := hthreshold
  have hstate : (run (filteredStep node) (.new node) pre).state =
      run (fun s f => (filterFrame node s f).1) node.initState pre :=
    run_filteredStep_state node pre (.new node)
  -- What is asked of the frames, as conditions on the state that they find.
  rw [List.isEmpty_eq_false_iff_exists_mem.mpr ⟨last, List.mem_of_mem_head? hlast⟩] at hinit
  rw [← hlaw.threshold, ← hraw] at hspikes hback
  rw [← hlaw.threshold] at hpos
  rw [← hlaw.spikeCount, ← hlaw.maxSpikeCount] at hfew
  rw [hstate] at hspikes hback hfew hinit hpos
  rcases run_filterFrame_spikes node spikes _ hinit hpos hspikes hfew with ⟨count, hcount⟩
  -- After the spikes only the count is different, and the frame after them does not see it.
  unfold SpikesUnseen
  dsimp only
  rw [List.append_assoc, responses_append, responses_append, responses_append,
    List.take_left' (length_responses _ _ _), ← List.append_assoc,
    List.drop_left' (by rw [List.length_append, length_responses, length_responses]),
    hcount, responses, responses, filterFrame_count node _ back count hinit hpos hback]

variable (inputs : List ℚ)

/-- A mixture of an input and a value above one of the inputs is above one. -/
theorem exists_le_mix (alpha x q : ℚ) (h0 : 0 ≤ alpha) (h1 : alpha ≤ 1) (h : ∃ a ∈ inputs, a ≤ q) :
    ∃ a ∈ x :: inputs, a ≤ alpha * x + (1 - alpha) * q := by
  rcases h with ⟨a, ha, haq⟩
  have hrest : 0 ≤ 1 - alpha := sub_nonneg.mpr h1
  rcases le_total a x with hax | hxa
  · refine ⟨a, List.mem_cons_of_mem x ha, ?_⟩
    calc a = alpha * a + (1 - alpha) * a := by ring
      _ ≤ alpha * x + (1 - alpha) * q :=
          add_le_add (mul_le_mul_of_nonneg_left hax h0) (mul_le_mul_of_nonneg_left haq hrest)
  · refine ⟨x, List.mem_cons_self, ?_⟩
    calc x = alpha * x + (1 - alpha) * x := by ring
      _ ≤ alpha * x + (1 - alpha) * q :=
          add_le_add le_rfl (mul_le_mul_of_nonneg_left (hxa.trans haq) hrest)

theorem between_neg (q : ℚ) : Between (inputs.map (- ·)) (-q) ↔ Between inputs q := by
  simp only [Between, List.mem_map, exists_exists_and_eq_and, neg_le_neg_iff]
  exact and_comm

/-- Mixing with an accepted input keeps a value between the accepted ones. -/
theorem between_mix (alpha x q : ℚ) (h0 : 0 ≤ alpha) (h1 : alpha ≤ 1) (h : Between inputs q) :
    Between (x :: inputs) (alpha * x + (1 - alpha) * q) := by
  refine ⟨exists_le_mix inputs alpha x q h0 h1 h.1, ?_⟩
  -- From above it is the same with all signs changed.
  obtain ⟨a, ha, hle⟩ := exists_le_mix (inputs.map (- ·)) alpha (-x) (-q) h0 h1
    ((between_neg inputs q).mpr h).1
  rw [← List.map_cons, List.mem_map] at ha
  rcases ha with ⟨b, hb, rfl⟩
  exact ⟨b, hb, by linarith⟩

section

variable (hthreshold : 0 < node.spikeThreshold.getD 0) (h0 : 0 ≤ node.alpha) (h1 : node.alpha ≤ 1)

include hthreshold h0 h1

/-- Every frame that the filter has seen, or sees next, is answered with a value
    between the accepted inputs. -/
theorem between_step (filter : Filtered) (frame : AxisFrame) (h : FilterLaw node filter)
    (hbetween : filter.state.initialized = true → Between filter.accepted filter.state.prevOutput) :
    Between (filteredStep node filter frame).accepted (filterFrame node filter.state frame).2.out ∧
      (filteredStep node filter frame).state.prevOutput =
        (filterFrame node filter.state frame).2.out := by
  have hpos : 0 < filter.state.spikeThreshold := by
    rw [h.threshold]
    exact hthreshold
  unfold filteredStep
  by_cases hinit : filter.state.initialized = true
  · by_cases haccept : (FilterNode.acceptInput filter.state frame.out).1 = true
    · rw [if_pos (Or.inr haccept), filterFrame_accepted node filter.state frame hinit hpos haccept]
      refine ⟨?_, rfl⟩
      dsimp only
      rw [h.alpha]
      exact between_mix filter.accepted node.alpha frame.out _ h0 h1 (hbetween hinit)
    · have hreject := Bool.eq_false_of_not_eq_true haccept
      rw [if_neg (by rw [hinit, hreject]; decide),
        filterFrame_rejected node filter.state frame hinit hpos hreject]
      exact ⟨hbetween hinit, rfl⟩
  · have hnew := Bool.eq_false_of_not_eq_true hinit
    rw [if_pos (Or.inl hnew), filterFrame_new node filter.state frame hnew]
    exact ⟨⟨⟨frame.out, List.mem_cons_self, le_rfl⟩, ⟨frame.out, List.mem_cons_self, le_rfl⟩⟩, rfl⟩

/-- Every output of a run lies between the inputs accepted until then. -/
theorem stepsMeet_between (frames : List AxisFrame) : StepsMeet (filteredStep node)
      (fun filter frame => Between (filteredStep node filter frame).accepted
        (filterFrame node filter.state frame).2.out)
      (.new node) frames := by
  refine stepsMeet_of_mem (filteredStep node)
    (fun filter => FilterLaw node filter ∧ (filter.state.initialized = true →
      Between filter.accepted filter.state.prevOutput)) _ frames ?_ _
    ⟨filterLaw_new node, fun h => absurd h Bool.false_ne_true⟩
  intro frame _ filter hfilter
  have hstep := between_step node hthreshold h0 h1 filter frame hfilter.1 hfilter.2
  refine ⟨hstep.1, filterLaw_step node hthreshold filter frame hfilter.1, fun _ => ?_⟩
  rw [hstep.2]
  exact hstep.1

end

end

/-- For every node with a spike threshold and every sequence of frames: spikes that follow an
    accepted input and are followed by a frame that is none can be taken out unseen, when together
    with the frames rejected just before them they are fewer than `maxSpikeCount`; and with a
    smoothing factor from zero to one every output lies between the inputs accepted until then. -/
theorem spikes_leave_no_trace (node : FilterNode) (threshold : ℚ)
    (hnode : node.spikeThreshold = some threshold) (hthreshold : 0 < threshold) :
    (∀ pre spikes rest back last,
      (run (filteredStep node) (.new node) pre).accepted.head? = some last →
      (∀ f ∈ spikes, threshold < |f.out - last|) → |back.out - last| ≤ threshold →
      (run (filteredStep node) (.new node) pre).rejected + spikes.length
        < node.maxSpikeCount.toNat →
      SpikesUnseen node pre spikes (back :: rest)) ∧
    (0 ≤ node.alpha → node.alpha ≤ 1 → ∀ frames, StepsMeet (filteredStep node)
      (fun filter frame => Between (filteredStep node filter frame).accepted
        (filterFrame node filter.state frame).2.out)
      (.new node) frames) := by
  have hget : node.spikeThreshold.getD 0 = threshold := by rw [hnode, Option.getD_some]
  have hpos : 0 < node.spikeThreshold.getD 0 := by rwa [hget]
  refine ⟨?_, fun h0 h1 frames => stepsMeet_between node hpos h0 h1 frames⟩
  intro pre spikes rest back last hlast hspikes hback hfew
  rw [← hget] at hspikes hback
  exact spikesUnseen_of_few node hpos pre spikes rest back last hlast hspikes hback hfew

/-- One spike of the constructor's filter, between two frames at rest. -/
theorem spike_of_constructor_leaves_no_trace :
    SpikesUnseen (.withSpikeRejection (1 / 2) (1 / 2)) [.new 0 1] [.new 1 2] [.new 0 3] :=
  (spikes_leave_no_trace (.withSpikeRejection (1 / 2) (1 / 2)) (1 / 2) (by decide +kernel)
    (by norm_num)).1 [.new 0 1] [.new 1 2] [] (.new 0 3) 0 (by decide +kernel)
    (by decide +kernel) (by decide +kernel) (by decide +kernel)

/-- With a count of two, the second of two spikes is accepted: it is one spike
    after the accepted input, and taking it out changes the outputs. A smoothing
    factor of two takes the output beyond the inputs. -/
theorem accepted_spike_leaves_trace :
    (let node : FilterNode :=
        { alpha := 1 / 2, spikeThreshold := some (1 / 2), maxSpikeCount := 2 };
      (run (filteredStep node) (.new node) [.new 0 1, .new 1 2]).accepted.head? = some 0 ∧
        (1 / 2 < |(1 : ℚ) - 0|) ∧ (|(0 : ℚ) - 0| ≤ 1 / 2) ∧ [AxisFrame.new 1 3].length < 2 ∧
        ¬ SpikesUnseen node [.new 0 1, .new 1 2] [.new 1 3] [.new 0 4]) ∧
    (let node : FilterNode := { alpha := 2, spikeThreshold := some (1 / 2), maxSpikeCount := 2 };
      ¬ StepsMeet (filteredStep node)
          (fun filter frame => Between (filteredStep node filter frame).accepted
            (filterFrame node filter.state frame).2.out)
          (.new node) [.new 0 1, .new (1 / 4) 2]) := by
  decide +kernel

end OpenFlight.Axis
