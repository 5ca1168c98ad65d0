import OpenFlight.Core.Axis.Engine
import OpenFlight.Lib.Run

/-!
# The Versions of a Pipeline

When a version tells the active pipeline from all that were active before.

A new pipeline takes its version from the counter of swaps when it comes in,
and nothing but a swap, or a reset, changes that counter before it is made
active. As long as there is no reset, the version of the active pipeline is the
number of swaps, and so the versions are the numbers from one on. A reset
before the first swap changes nothing. After any other, the next pipelines that
come in get the versions that earlier ones have had; a pipeline that was
pending then still has one of its own.

What the calls do with versions is seen in a small part of the engine, its
`swapView`, and frames have no part in it but for the swap.

## Main definitions

* `Swapped`, `swapStep`: The engine with the history of its swaps.
* `VersionLaw`: What a call owes.

## Theorems

* `versions_identify_iff`: The law along every run.
* `reset_reuses_version`: A run in which a version comes back.
-/

namespace OpenFlight.Axis

/-- The active and the pending pipeline with their versions, the counter of swaps
    and the count of acknowledged ones. -/
structure SwapView where
  active : Option (Pipeline × UInt64)
  pending : Option (Pipeline × UInt64)
  swaps : UInt64
  acks : UInt64

def CompiledPipeline.numbered (compiled : CompiledPipeline) : Pipeline × UInt64 :=
  (compiled.pipeline, compiled.version)

def AxisEngine.swapView (engine : AxisEngine) : SwapView :=
  { active := engine.activePipeline.map CompiledPipeline.numbered
    pending := engine.pendingPipeline.map CompiledPipeline.numbered
    swaps := engine.counters.pipelineSwaps
    acks := engine.swapAckCounter }

/-- The pending pipeline becomes the active one. -/
def SwapView.swap (view : SwapView) : SwapView :=
  match view.pending with
  | some new =>
      { active := some new
        pending := none
        swaps := view.swaps + 1
        acks := view.acks + 1 }
  | none => view

section

variable (powf : ℚ → ℚ → ℚ) (engine : AxisEngine) (frame : AxisFrame)

theorem activeVersion_eq : engine.activeVersion = engine.swapView.active.map Prod.snd := by
  unfold AxisEngine.activeVersion AxisEngine.swapView
  rw [Option.map_map]
  rfl

theorem trySwapPipeline_swapView : engine.trySwapPipeline.swapView = engine.swapView.swap := by
  cases hpending : engine.pendingPipeline with
  | none => simp only [AxisEngine.trySwapPipeline, AxisEngine.swapView, SwapView.swap, hpending,
      Option.map_none]
  | some new => simp only [AxisEngine.trySwapPipeline, AxisEngine.swapView, SwapView.swap, hpending,
      Option.map_some, Option.map_none]

theorem processFrame_swapView : (engine.processFrame powf frame).1.swapView = engine.swapView := by
  unfold AxisEngine.processFrame
  cases hactive : engine.activePipeline with
  | none => rfl
  | some active =>
      unfold AxisEngine.swapView
      rw [hactive]
      rfl

theorem applyCapabilityClamps_swapView :
    (engine.applyCapabilityClamps frame).1.swapView = engine.swapView := by
  unfold AxisEngine.applyCapabilityClamps
  split_ifs <;> rfl

theorem recordTiming_swapView (elapsed : Duration) :
    (engine.recordTiming elapsed).swapView = engine.swapView := by
  dsimp only [AxisEngine.recordTiming, RuntimeCounters.recordFrameTime]
  split_ifs <;> rfl

/-- A frame makes the pending pipeline the active one, and the rest of it leaves
    the versions alone. -/
theorem process_swapView (elapsed : Duration) :
    (engine.process powf frame elapsed).1.swapView = engine.swapView.swap := by
  have hlast : ∀ (e : AxisEngine) (last : Option AxisFrame),
      { e with lastFrame := last }.swapView = e.swapView := fun _ _ => rfl
  dsimp only [AxisEngine.process]
  rw [hlast, recordTiming_swapView, applyCapabilityClamps_swapView, processFrame_swapView,
    trySwapPipeline_swapView]

/-- A pipeline that comes in is pending, under the next number of the counter. -/
theorem updatePipeline_swapView (pipeline : Pipeline) (bufferSize : ℕ) :
    (engine.updatePipeline pipeline bufferSize).1.swapView =
      if (engine.updatePipeline pipeline bufferSize).2 = .pending then
        { engine.swapView with pending := some (pipeline, engine.swapView.swaps + 1) }
      else engine.swapView := by
  unfold AxisEngine.updatePipeline AxisEngine.compileAndValidate
  cases pipeline.validate with
  | error error => rfl
  | ok _ =>
      dsimp only
      by_cases hsize : bufferSize = 0
      · rw [if_pos hsize]
        rfl
      · rw [if_neg hsize]
        rfl

end

/-- The engine, the pipeline of the latest successful update that no frame has
    taken up, the versions of the pipelines that have been active, and how many
    swaps there were. `resetSince` says that a reset has come after a swap, `late`
    that the pipeline that waits has come in after such a reset. -/
structure Swapped where
  engine : AxisEngine
  updated : Option Pipeline
  versions : List UInt64
  swaps : ℕ
  resetSince : Bool
  late : Bool

def Swapped.new (config : EngineConfig) : Swapped :=
  { engine := .withConfig config
    updated := none
    versions := []
    swaps := 0
    resetSince := false
    late := false }

/-- The pipeline that a call makes the active one. -/
def Swapped.taken (s : Swapped) : EngineOp → Option Pipeline
  | .process _ _ => s.updated
  | _ => none

/-- One call, with what it adds to the history. -/
def swapStep (powf : ℚ → ℚ → ℚ) (s : Swapped) (op : EngineOp) : Swapped :=
  let engine := engineStep powf s.engine op
  match op with
  | .updatePipeline pipeline bufferSize =>
      if (s.engine.updatePipeline pipeline bufferSize).2 = .pending then
        { s with engine := engine, updated := some pipeline, late := s.resetSince }
      else { s with engine := engine }
  | .process _ _ =>
      match s.updated with
      | some _ =>
          { s with
            engine := engine
            updated := none
            versions := engine.activeVersion.toList ++ s.versions
            swaps := s.swaps + 1 }
      | none => { s with engine := engine }
  | .resetCounters =>
      { s with engine := engine, resetSince := s.resetSince || decide (0 < s.swaps) }

/-- What a call owes. -/
structure VersionLaw (powf : ℚ → ℚ → ℚ) (s : Swapped) (op : EngineOp) : Prop where
  acked : (swapStep powf s op).engine.swapAckCount.toNat = (swapStep powf s op).swaps
  /-- A swap makes the pipeline of the latest update active, under a version above
      all that were active before. -/
  swapped : ∀ pipeline ∈ s.taken op, ∃ version,
    (swapStep powf s op).engine.swapView.active = some (pipeline, version) ∧
      ∀ old ∈ s.versions, old < version
  /-- No other call changes the active pipeline or its version. -/
  kept : s.taken op = none →
    (swapStep powf s op).engine.swapView.active = s.engine.swapView.active

/-- A pipeline that a frame takes up has not come in after a reset that came after
    a swap, and the swaps can still be counted. -/
def KeepsOrder (s : Swapped) (op : EngineOp) : Prop :=
  (s.taken op).isSome = true → s.late = false ∧ s.swaps + 1 < 2 ^ 64

/-- The versions are numbers of swaps. -/
structure Numbered (s : Swapped) : Prop where
  acks : s.engine.swapView.acks.toNat = s.swaps
  updated : s.engine.swapView.pending.map Prod.fst = s.updated
  versions_le : ∀ version ∈ s.versions, version.toNat ≤ s.swaps
  newest : 0 < s.swaps → ∃ version ∈ s.versions, version.toNat = s.swaps
  /-- Without a reset the counter is the number of swaps; after one it is behind. -/
  counter : s.resetSince = false → s.engine.swapView.swaps.toNat = s.swaps
  behind : s.resetSince = true → s.engine.swapView.swaps.toNat < s.swaps
  /-- The pipeline that waits has the next number, or one that is used up. -/
  next : s.late = false → ∀ entry ∈ s.engine.swapView.pending,
    entry.2 = UInt64.ofNat (s.swaps + 1)
  used : s.late = true → ∀ entry ∈ s.engine.swapView.pending,
    entry.2.toNat ≤ s.swaps ∧ 0 < s.swaps

section

variable (powf : ℚ → ℚ → ℚ) (s : Swapped)

theorem numbered_new (config : EngineConfig) : Numbered (.new config) where
  acks := rfl
  updated := rfl
  versions_le := fun _ h => absurd h List.not_mem_nil
  newest := fun h => absurd h (Nat.lt_irrefl 0)
  counter := fun _ => rfl
  behind := fun h => absurd h Bool.false_ne_true
  next := fun _ _ h => absurd h (Option.not_mem_none _)
  used := fun h => absurd h Bool.false_ne_true

/-- The engine after a frame that takes up a pipeline. -/
theorem swapStep_process (frame : AxisFrame) (elapsed : Duration) (pipeline : Pipeline)
    (version : UInt64) (hupdated : s.updated = some pipeline)
    (hpending : s.engine.swapView.pending = some (pipeline, version)) :
    (swapStep powf s (.process frame elapsed)).engine.swapView =
        { active := some (pipeline, version)
          pending := none
          swaps := s.engine.swapView.swaps + 1
          acks := s.engine.swapView.acks + 1 } ∧
      (swapStep powf s (.process frame elapsed)).versions = version :: s.versions ∧
      (swapStep powf s (.process frame elapsed)).swaps = s.swaps + 1 ∧
      (swapStep powf s (.process frame elapsed)).updated = none ∧
      (swapStep powf s (.process frame elapsed)).resetSince = s.resetSince := by
  have hview := process_swapView powf s.engine frame elapsed
  rw [SwapView.swap, hpending] at hview
  dsimp only [swapStep, engineStep]
  rw [hupdated]
  dsimp only
  rw [activeVersion_eq, hview]
  exact ⟨rfl, rfl, rfl, rfl, rfl⟩

/-- Any other call leaves the active pipeline, the history and the count of acknowledged swaps. -/
theorem swapStep_other (op : EngineOp) (h : Numbered s) (hop : s.taken op = none) :
    (swapStep powf s op).engine.swapView.active = s.engine.swapView.active ∧
      (swapStep powf s op).engine.swapView.acks = s.engine.swapView.acks ∧
      (swapStep powf s op).versions = s.versions ∧
      (swapStep powf s op).swaps = s.swaps := by
  cases op with
  | updatePipeline pipeline bufferSize =>
      have hview := updatePipeline_swapView s.engine pipeline bufferSize
      dsimp only [swapStep, engineStep]
      split_ifs at hview ⊢ with hpending
      · have hactive := congrArg SwapView.active hview
        have hacks := congrArg SwapView.acks hview
        exact ⟨hactive, hacks, rfl, rfl⟩
      · exact ⟨congrArg SwapView.active hview, congrArg SwapView.acks hview, rfl, rfl⟩
  | process frame elapsed =>
      have hupdated : s.updated = none := hop
      have hnone : s.engine.swapView.pending = none :=
        Option.map_eq_none_iff.mp (h.updated.trans hupdated)
      have hview := process_swapView powf s.engine frame elapsed
      rw [SwapView.swap, hnone] at hview
      dsimp only [swapStep, engineStep]
      rw [hupdated]
      exact ⟨congrArg SwapView.active hview, congrArg SwapView.acks hview, rfl, rfl⟩
  | resetCounters => exact ⟨rfl, rfl, rfl, rfl⟩

/-- The number that a pipeline gets when it comes in. -/
theorem numbered_update (h : Numbered s) :
    (s.resetSince = false → s.engine.swapView.swaps + 1 = UInt64.ofNat (s.swaps + 1)) ∧
      (s.resetSince = true →
        (s.engine.swapView.swaps + 1).toNat ≤ s.swaps ∧ 0 < s.swaps) := by
  refine ⟨fun hnever => ?_, fun hreset => ?_⟩
  · rw [← h.counter hnever, ← UInt64.toNat_inj, UInt64.toNat_add, UInt64.toNat_ofNat']
    rfl
  · have hbehind := h.behind hreset
    have hmod := Nat.mod_le (s.engine.swapView.swaps.toNat + (1 : UInt64).toNat) (2 ^ 64)
    rw [UInt64.toNat_add]
    have hone : (1 : UInt64).toNat = 1 := rfl
    omega

/-- One call keeps the law exactly under the condition. -/
theorem versionLaw_iff (op : EngineOp) (h : Numbered s) :
    VersionLaw powf s op ↔ KeepsOrder s op := by
  cases htaken : s.taken op with
  | none =>
      rcases swapStep_other powf s op h htaken with ⟨hactive, hacks, hversions, hswaps⟩
      refine iff_of_true ⟨?_, ?_, fun _ => hactive⟩ fun hsome => ?_
      · exact (congrArg UInt64.toNat hacks).trans (h.acks.trans hswaps.symm)
      · rw [htaken]
        exact fun _ hmem => absurd hmem (Option.not_mem_none _)
      · rw [htaken] at hsome
        exact absurd hsome Bool.false_ne_true
  | some pipeline =>
      -- Only a frame takes up a pipeline, and what it takes up was pending.
      obtain ⟨frame, elapsed, rfl⟩ : ∃ frame elapsed, op = .process frame elapsed := by
        cases op with
        | process frame elapsed => exact ⟨frame, elapsed, rfl⟩
        | updatePipeline _ _ => exact absurd htaken nofun
        | resetCounters => exact absurd htaken nofun
      obtain ⟨⟨_, version⟩, hpending, rfl⟩ :=
        Option.map_eq_some_iff.mp (h.updated.trans htaken)
      obtain ⟨hview, hversions, hswaps, -, -⟩ :=
        swapStep_process powf s frame elapsed _ version htaken hpending
      have hacks : (swapStep powf s (.process frame elapsed)).engine.swapAckCount.toNat =
          (s.swaps + 1) % 2 ^ 64 := by
        have hone : (1 : UInt64).toNat = 1 := rfl
        change (swapStep powf s (.process frame elapsed)).engine.swapView.acks.toNat = _
        rw [hview, UInt64.toNat_add, h.acks, hone]
      constructor
      · intro hlaw _
        rcases hlaw.swapped _ htaken with ⟨version', hnew, hmore⟩
        have hacked := hlaw.acked
        rw [hacks, hswaps] at hacked
        -- The acknowledged swaps are a remainder, so a count equal to it has not wrapped.
        have hsmall : s.swaps + 1 < 2 ^ 64 := hacked ▸ Nat.mod_lt _ (by decide)
        refine ⟨?_, hsmall⟩
        by_contra hlate
        rcases h.used (Bool.eq_true_of_not_eq_false hlate) _ hpending with ⟨hle, hpos⟩
        rcases h.newest hpos with ⟨old, hold, heq⟩
        -- The active version is the number of swaps, and the new one is no more.
        have hlt := UInt64.lt_iff_toNat_lt.mp (hmore old hold)
        rw [hview] at hnew
        have hversion : version = version' := congrArg Prod.snd (Option.some.inj hnew)
        rw [heq, ← hversion] at hlt
        exact absurd hlt (Nat.not_lt.mpr hle)
      · intro hkeeps
        rcases hkeeps (by rw [htaken]; rfl) with ⟨hearly, hsmall⟩
        refine ⟨?_, fun p hp => ⟨version, ?_, fun old hold => ?_⟩, fun hnone => ?_⟩
        · rw [hacks, hswaps, Nat.mod_eq_of_lt hsmall]
        · rw [hview, Option.some.inj (htaken.symm.trans hp)]
        · have hnext := h.next hearly _ hpending
          have hle := h.versions_le old hold
          dsimp only at hnext
          rw [UInt64.lt_iff_toNat_lt, hnext, UInt64.toNat_ofNat_of_lt' hsmall]
          omega
        · exact absurd (htaken.symm.trans hnone) (Option.some_ne_none _)

theorem numbered_updatePipeline (pipeline : Pipeline) (bufferSize : ℕ) (h : Numbered s) :
    Numbered (swapStep powf s (.updatePipeline pipeline bufferSize)) := by
  have hview := updatePipeline_swapView s.engine pipeline bufferSize
  rcases numbered_update s h with ⟨hnext, hused⟩
  dsimp only [swapStep, engineStep]
  split_ifs at hview ⊢ with hpending
  · refine ⟨?_, ?_, h.versions_le, h.newest, ?_, ?_, fun hnever entry hentry => ?_,
      fun hreset entry hentry => ?_⟩ <;> dsimp only at *
    · rw [hview]
      exact h.acks
    · rw [hview]
      rfl
    · rw [hview]
      exact h.counter
    · rw [hview]
      exact h.behind
    · rw [hview] at hentry
      rw [← Option.some.inj hentry]
      exact hnext hnever
    · rw [hview] at hentry
      rw [← Option.some.inj hentry]
      exact hused hreset
  · refine ⟨?_, ?_, h.versions_le, h.newest, ?_, ?_, ?_, ?_⟩ <;> dsimp only <;> rw [hview]
    · exact h.acks
    · exact h.updated
    · exact h.counter
    · exact h.behind
    · exact h.next
    · exact h.used

/-- A frame that takes up a pipeline that was pending before any reset. -/
theorem numbered_process (frame : AxisFrame) (elapsed : Duration) (h : Numbered s)
    (hkeeps : KeepsOrder s (.process frame elapsed)) :
    Numbered (swapStep powf s (.process frame elapsed)) := by
  cases hupdated : s.updated with
  | none =>
      have hnone : s.engine.swapView.pending = none :=
        Option.map_eq_none_iff.mp (h.updated.trans hupdated)
      have hview := process_swapView powf s.engine frame elapsed
      rw [SwapView.swap, hnone] at hview
      dsimp only [swapStep, engineStep]
      rw [hupdated]
      refine ⟨?_, ?_, h.versions_le, h.newest, ?_, ?_, ?_, ?_⟩ <;> dsimp only <;> rw [hview]
      · exact h.acks
      · rw [hnone]
        rfl
      · exact h.counter
      · exact h.behind
      · exact h.next
      · exact h.used
  | some pipeline =>
      rcases hkeeps (Option.isSome_iff_exists.mpr ⟨pipeline, hupdated⟩) with ⟨hearly, hsmall⟩
      obtain ⟨⟨_, version⟩, hpending, rfl⟩ :=
        Option.map_eq_some_iff.mp (h.updated.trans hupdated)
      obtain ⟨hview, hversions, hswaps, hnone, hreset⟩ :=
        swapStep_process powf s frame elapsed _ version hupdated hpending
      have hversion : version.toNat = s.swaps + 1 := by
        rw [show version = _ from h.next hearly _ hpending, UInt64.toNat_ofNat_of_lt' hsmall]
      have hone : (1 : UInt64).toNat = 1 := rfl
      refine ⟨?_, ?_, ?_, ?_, ?_, ?_, ?_, ?_⟩
      · rw [hview, hswaps, UInt64.toNat_add, h.acks, hone, Nat.mod_eq_of_lt hsmall]
      · rw [hview, hnone]
        rfl
      · rw [hversions, hswaps, List.forall_mem_cons]
        exact ⟨hversion.le, fun old hold => (h.versions_le old hold).trans (Nat.le_succ _)⟩
      · rw [hversions, hswaps]
        exact fun _ => ⟨version, List.mem_cons_self, hversion⟩
      · rw [hview, hswaps, hreset]
        intro hnever
        rw [UInt64.toNat_add, h.counter hnever, hone, Nat.mod_eq_of_lt hsmall]
      · rw [hview, hswaps, hreset]
        intro hbehind
        -- A counter that is behind stays so, since both go up by one.
        have hlt := h.behind hbehind
        rw [UInt64.toNat_add, hone, Nat.mod_eq_of_lt (by omega)]
        omega
      · rw [hview]
        exact fun _ _ hentry => absurd hentry (Option.not_mem_none _)
      · rw [hview]
        exact fun _ _ hentry => absurd hentry (Option.not_mem_none _)

theorem numbered_resetCounters (h : Numbered s) : Numbered (swapStep powf s .resetCounters) where
  acks := h.acks
  updated := h.updated
  versions_le := h.versions_le
  newest := h.newest
  counter := fun hnever => by
    have hpos := of_decide_eq_false (Bool.or_eq_false_iff.mp hnever).2
    exact (Nat.eq_zero_of_not_pos hpos).symm
  behind := fun hreset => by
    rcases Bool.or_eq_true_iff.mp hreset with hbefore | hpos
    · exact Nat.zero_lt_of_lt (h.behind hbefore)
    · exact of_decide_eq_true hpos
  next := h.next
  used := h.used

/-- Every call under the condition keeps the invariant. -/
theorem numbered_step (op : EngineOp) (h : Numbered s) (hkeeps : KeepsOrder s op) :
    Numbered (swapStep powf s op) := by
  cases op with
  | updatePipeline pipeline bufferSize => exact numbered_updatePipeline powf s pipeline bufferSize h
  | process frame elapsed => exact numbered_process powf s frame elapsed h hkeeps
  | resetCounters => exact numbered_resetCounters powf s h

end

/-- In every run, each swap makes the pipeline of the latest update active under a
    version above all before it, and the acknowledged swaps are all of them,
    exactly when no frame takes up a pipeline that has come in after a reset that
    came after a swap, and there are fewer than `2 ^ 64` swaps. -/
theorem versions_identify_iff (powf : ℚ → ℚ → ℚ) (config : EngineConfig) (ops : List EngineOp) :
    StepsMeet (swapStep powf) (VersionLaw powf) (.new config) ops ↔
      StepsMeet (swapStep powf) KeepsOrder (.new config) ops :=
  stepsMeet_iff_of_keeps (swapStep powf) Numbered _ _
    (fun s op h hlaw => numbered_step powf s op h ((versionLaw_iff powf s op h).mp hlaw))
    (fun s op h => versionLaw_iff powf s op h) _ ops (numbered_new config)

/-- A pipeline with one deadzone. -/
def oneDeadzone : Pipeline :=
  { stepFunctions := [deadzoneStep]
    nodeMetadata := [⟨1, "deadzone", 0, 8⟩]
    totalStateSize := 8
    sourceNodes := some [.deadzone ⟨1 / 10, none⟩] }

/-- After a swap and a reset, the next pipeline has the version of the first. -/
theorem reset_reuses_version :
    compile (fun x _ => x) [.deadzone ⟨1 / 10, none⟩] = .ok oneDeadzone ∧
    ¬ StepsMeet (swapStep fun x _ => x) (VersionLaw fun x _ => x)
        (.new { maxFrameTimeUs := 500, enableCounters := true })
        [.updatePipeline oneDeadzone 64, .process (.new 0 1) 0, .resetCounters,
          .updatePipeline oneDeadzone 64, .process (.new 0 2) 0] := by
  refine ⟨rfl, fun h => ?_⟩
  rcases h.2.2.2.2.1.swapped oneDeadzone rfl with ⟨version, hactive, hmore⟩
  have hversion := congrArg (Option.map Prod.snd) hactive
  rw [Option.map_some] at hversion
  have hone : some version = some 1 := by
    rw [← hversion]
    decide +kernel
  exact absurd (hmore 1 (by decide +kernel)) (by rw [Option.some.inj hone]; decide)

end OpenFlight.Axis
