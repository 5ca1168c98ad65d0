import Mathlib.Tactic.Linarith
import OpenFlight.Core.Axis.Nodes
import OpenFlight.Lib.Run

/-!
# The Events of Detents

What the events of a detent node say about one another, the output and the
way the axis has gone.

A zone is left farther from its center than it is entered, by its hysteresis.
So between the event of entering a zone and the one of leaving it the position
has moved by more than that, however the zones lie over one another. The
invariant behind it, `Entered`, is that the last event is the one that entered
the active zone, at a position that the zone has.

The node keeps the active zone as an index of 32 bits. The index of a zone that
is found farther back in the list is cut, and the node then takes another zone
for the one it has entered. `FoundInRange` says that this does not happen, which
a list of at most `2 ^ 32` zones is enough for. The last index stands for no
detent, so the zone there is never entered.

## Main definitions

* `Detented`, `detentStep`: The node's state and its last event.
* `DetentLaws`: What a frame owes.

## Theorems

* `detents_do_not_chatter`: The laws, along every run under the condition.
* `cut_detent_index_chatters`: A run in which they do not hold.
-/

namespace OpenFlight.Axis

/-- A detent node between two frames, with the last event it has sent. -/
structure Detented where
  state : DetentState
  last : Option DetentEvent

def Detented.new (node : DetentNode) : Detented :=
  { state := node.initState
    last := none }

/-- One frame. -/
def detentStep (node : DetentNode) (detented : Detented) (frame : AxisFrame) : Detented :=
  let result := node.stepSoa frame detented.state
  { state := result.2.1
    last := result.2.2.or detented.last }

/-- The detent where the last event has led. -/
def Detented.current (detented : Detented) : Option DetentRole :=
  detented.last.bind DetentEvent.toDetent

/-- The zone with the index, where it is one of a zone. -/
def DetentNode.zoneAt (node : DetentNode) (idx : UInt32) : Option DetentZone :=
  if idx ≠ noDetent then node.zones[idx.toNat]? else none

/-- What a frame owes. -/
structure DetentLaws (node : DetentNode) (detented : Detented) (frame : AxisFrame) : Prop where
  /-- There is an event exactly when the active detent changes. -/
  reported : (node.stepSoa frame detented.state).2.2.isSome = true ↔
    (node.stepSoa frame detented.state).2.1.activeDetentIdx ≠ detented.state.activeDetentIdx
  /-- An event leaves the detent where the last one has led. -/
  chained : ∀ event ∈ (node.stepSoa frame detented.state).2.2,
    event.fromDetent = detented.current
  active_lt : (node.stepSoa frame detented.state).2.1.activeDetentIdx ≠ noDetent →
    (node.stepSoa frame detented.state).2.1.activeDetentIdx.toNat < node.zones.length
  snapped : ∀ zone ∈ node.zoneAt (node.stepSoa frame detented.state).2.1.activeDetentIdx,
    zone.snapToCenter = true → (node.stepSoa frame detented.state).1.out = zone.center
  /-- An event that leaves a zone is farther from the one that entered it than
      the hysteresis. -/
  moved : ∀ event ∈ (node.stepSoa frame detented.state).2.2,
    ∀ zone ∈ node.zoneAt detented.state.activeDetentIdx,
      ∃ entry ∈ detented.last, entry.toDetent = some zone.role ∧
        zone.hysteresis < |event.position - entry.position|

/-- Where the frame is not within the exit threshold of the active zone, the zone
    that it enters has an index of 32 bits. -/
def FoundInRange (node : DetentNode) (detented : Detented) (frame : AxisFrame) : Prop :=
  (∀ zone ∈ node.zoneAt detented.state.activeDetentIdx, zone.containsExit frame.out = false) →
    ∀ idx ∈ node.findEntryDetent frame.out, idx < 2 ^ 32

/-- The last event entered the active zone, at a position in it; without an
    active zone it entered none. -/
structure Entered (node : DetentNode) (detented : Detented) : Prop where
  of_none : detented.state.activeDetentIdx = noDetent → detented.current = none
  of_active : detented.state.activeDetentIdx ≠ noDetent →
    ∃ zone ∈ node.zoneAt detented.state.activeDetentIdx, ∃ entry ∈ detented.last,
      entry.toDetent = some zone.role ∧ zone.containsEntry entry.position = true

/-- From a position within the entry threshold to one beyond the exit threshold
    it is farther than the hysteresis. -/
theorem lt_abs_sub_of_exit (zone : DetentZone) (entry exit : ℚ)
    (hentry : zone.containsEntry entry = true) (hexit : zone.containsExit exit = false) :
    zone.hysteresis < |exit - entry| := by
  have hin : |entry - zone.center| ≤ zone.halfWidth := of_decide_eq_true hentry
  have hout : zone.halfWidth + zone.hysteresis < |exit - zone.center| :=
    not_le.mp (of_decide_eq_false hexit)
  have htriangle := abs_sub_le exit entry zone.center
  linarith

section

variable (node : DetentNode) (state : DetentState) (frame : AxisFrame)

theorem mem_zoneAt (idx : UInt32) (zone : DetentZone) :
    zone ∈ node.zoneAt idx ↔ idx ≠ noDetent ∧ node.zones[idx.toNat]? = some zone := by
  unfold DetentNode.zoneAt
  split_ifs with h
  · exact (and_iff_right h).symm
  · exact iff_of_false (Option.not_mem_none zone) fun hzone => h hzone.1

theorem roleOf_eq (idx : UInt32) : node.roleOf idx = (node.zoneAt idx).map DetentZone.role := by
  unfold DetentNode.roleOf DetentNode.zoneAt
  split_ifs <;> rfl

theorem stepSoa_activeDetentIdx :
    (node.stepSoa frame state).2.1.activeDetentIdx = node.newDetentIdx state frame.out := by
  dsimp only [DetentNode.stepSoa]
  by_cases hsame : node.newDetentIdx state frame.out = state.activeDetentIdx
  · rw [if_neg (not_not.mpr hsame), hsame]
  · rw [if_pos hsame]

theorem stepSoa_event : (node.stepSoa frame state).2.2 =
      if node.newDetentIdx state frame.out ≠ state.activeDetentIdx then
        some
          { timestampNs := frame.tsMonoNs
            fromDetent := node.roleOf state.activeDetentIdx
            toDetent := node.roleOf (node.newDetentIdx state frame.out)
            position := frame.out }
      else none := by
  dsimp only [DetentNode.stepSoa]
  split_ifs <;> rfl

theorem detent_stepSoa_out : (node.stepSoa frame state).1.out =
      match node.zoneAt (node.newDetentIdx state frame.out) with
      | some zone => if zone.snapToCenter then zone.center else frame.out
      | none => frame.out := by
  dsimp only [DetentNode.stepSoa, DetentNode.zoneAt]
  split_ifs <;> rfl

/-- A zone that is not within its exit threshold is one that the node leaves. -/
theorem not_within_of_exit (idx : UInt32) (position : ℚ)
    (h : ¬ (idx ≠ noDetent ∧ node.isWithinExitThreshold position idx.toNat = true)) :
    ∀ zone ∈ node.zoneAt idx, zone.containsExit position = false := by
  intro zone hzone
  rcases (mem_zoneAt node idx zone).mp hzone with ⟨hidx, hget⟩
  have hout := (not_and.mp h) hidx
  unfold DetentNode.isWithinExitThreshold at hout
  rw [hget] at hout
  exact Bool.eq_false_of_not_eq_true hout

/-- The active zone after a frame: the one before, which is not left, or one that
    the frame enters. -/
theorem newDetentIdx_cases (hfound : (∀ zone ∈ node.zoneAt state.activeDetentIdx,
        zone.containsExit frame.out = false) →
      ∀ idx ∈ node.findEntryDetent frame.out, idx < 2 ^ 32) :
    (node.newDetentIdx state frame.out = state.activeDetentIdx ∧
        state.activeDetentIdx ≠ noDetent) ∨
      ((∀ zone ∈ node.zoneAt state.activeDetentIdx, zone.containsExit frame.out = false) ∧
        (node.newDetentIdx state frame.out = noDetent ∨
          ∃ zone ∈ node.zoneAt (node.newDetentIdx state frame.out),
            zone.containsEntry frame.out = true)) := by
  unfold DetentNode.newDetentIdx
  by_cases hstay : state.activeDetentIdx ≠ noDetent ∧
      node.isWithinExitThreshold frame.out state.activeDetentIdx.toNat = true
  · rw [if_pos hstay]
    exact Or.inl ⟨rfl, hstay.1⟩
  · have hleft := not_within_of_exit node state.activeDetentIdx frame.out hstay
    rw [if_neg hstay]
    refine Or.inr ⟨hleft, ?_⟩
    cases hfind : node.findEntryDetent frame.out with
    | none => exact Or.inl rfl
    | some idx =>
        dsimp only
        by_cases hlast : UInt32.ofNat idx = noDetent
        · exact Or.inl hlast
        · -- An index of 32 bits is not cut, so the zone is the one that was found.
          have hidx : (UInt32.ofNat idx).toNat = idx :=
            UInt32.toNat_ofNat_of_lt' (hfound hleft idx hfind)
          rcases List.findIdx?_eq_some_iff_getElem.mp hfind with ⟨hlt, hentry, -⟩
          refine Or.inr ⟨node.zones[idx], (mem_zoneAt node _ _).mpr ⟨hlast, ?_⟩, hentry⟩
          rw [hidx, List.getElem?_eq_getElem hlt]

/-- An event tells of a detent that changes, so the detent before it is left. -/
theorem event_eq_some (event : DetentEvent) (h : event ∈ (node.stepSoa frame state).2.2) :
    node.newDetentIdx state frame.out ≠ state.activeDetentIdx ∧
      event.fromDetent = node.roleOf state.activeDetentIdx ∧
      event.toDetent = node.roleOf (node.newDetentIdx state frame.out) ∧
      event.position = frame.out := by
  rw [stepSoa_event] at h
  split_ifs at h with hchanged
  · rcases Option.some.inj h with rfl
    exact ⟨hchanged, rfl, rfl, rfl⟩
  · exact absurd h (Option.not_mem_none event)

end

section

variable (node : DetentNode)

theorem entered_new : Entered node (.new node) :=
  ⟨fun _ => rfl, fun h => absurd rfl h⟩

variable (detented : Detented)

/-- With the invariant, the active zone is where the last event has led. -/
theorem roleOf_active (h : Entered node detented) :
    node.roleOf detented.state.activeDetentIdx = detented.current := by
  rw [roleOf_eq]
  by_cases hnone : detented.state.activeDetentIdx = noDetent
  · rw [h.of_none hnone, DetentNode.zoneAt, if_neg (not_not.mpr hnone), Option.map_none]
  · rcases h.of_active hnone with ⟨zone, hzone, entry, hentry, hto, -⟩
    rw [Option.mem_def] at hzone hentry
    rw [hzone, Option.map_some, Detented.current, hentry, Option.bind_some, hto]

variable (frame : AxisFrame)

section

variable (h : Entered node detented) (hfound : FoundInRange node detented frame)

include h hfound

/-- Every frame whose zone is found in range keeps the invariant. -/
theorem entered_step : Entered node (detentStep node detented frame) := by
  have hactive := stepSoa_activeDetentIdx node detented.state frame
  have hevent := stepSoa_event node detented.state frame
  by_cases hsame : node.newDetentIdx detented.state frame.out = detented.state.activeDetentIdx
  · -- No event, and the active zone stays.
    rw [if_neg (not_not.mpr hsame)] at hevent
    have hlast : (detentStep node detented frame).last = detented.last := by
      dsimp only [detentStep]
      rw [hevent, Option.none_or]
    rw [hsame] at hactive
    refine ⟨fun hnone => ?_, fun hsome => ?_⟩
    · rw [Detented.current, hlast]
      exact h.of_none (hactive.symm.trans hnone)
    · rw [hlast, show (detentStep node detented frame).state.activeDetentIdx
        = detented.state.activeDetentIdx from hactive]
      exact h.of_active fun hnone => hsome (hactive.trans hnone)
  · -- The event of this frame is the last one now.
    rw [if_pos hsame] at hevent
    have hlast := congrArg (fun event => event.or detented.last) hevent
    dsimp only [Option.some_or] at hlast
    refine ⟨fun hnone => ?_, fun hsome => ?_⟩
    · have hnew := hactive.symm.trans hnone
      rw [Detented.current, show (detentStep node detented frame).last = _ from hlast,
        Option.bind_some]
      dsimp only
      rw [hnew]
      rfl
    · rcases newDetentIdx_cases node detented.state frame hfound with hstay | ⟨-, hnone | hentered⟩
      · exact absurd hstay.1 hsame
      · exact absurd (hactive.trans hnone) hsome
      · rcases hentered with ⟨zone, hzone, hentry⟩
        refine ⟨zone, ?_, _, hlast, ?_, hentry⟩
        · rw [show (detentStep node detented frame).state.activeDetentIdx = _ from hactive]
          exact hzone
        · dsimp only
          rw [roleOf_eq, Option.mem_def.mp hzone, Option.map_some]

/-- What the invariant gives for a frame whose zone is found in range. -/
theorem detentLaws_of_entered : DetentLaws node detented frame where
  reported := by
    rw [stepSoa_event, stepSoa_activeDetentIdx]
    split_ifs with hchanged
    · exact iff_of_true rfl hchanged
    · exact iff_of_false (by decide) hchanged
  chained := fun event hevent =>
    (event_eq_some node detented.state frame event hevent).2.1.trans
      (roleOf_active node detented h)
  active_lt := by
    rw [stepSoa_activeDetentIdx]
    intro hsome
    have hzone : ∃ zone, zone ∈ node.zoneAt (node.newDetentIdx detented.state frame.out) := by
      rcases newDetentIdx_cases node detented.state frame hfound with hstay | ⟨-, hnone | hentered⟩
      · rcases h.of_active hstay.2 with ⟨zone, hzone, -⟩
        rw [hstay.1]
        exact ⟨zone, hzone⟩
      · exact absurd hnone hsome
      · rcases hentered with ⟨zone, hzone, -⟩
        exact ⟨zone, hzone⟩
    rcases hzone with ⟨zone, hzone⟩
    rcases List.getElem?_eq_some_iff.mp ((mem_zoneAt node _ zone).mp hzone).2 with ⟨hlt, -⟩
    exact hlt
  snapped := by
    rw [stepSoa_activeDetentIdx, detent_stepSoa_out]
    intro zone hzone hsnap
    rw [Option.mem_def.mp hzone]
    exact if_pos hsnap
  moved := by
    intro event hevent zone hzone
    rcases event_eq_some node detented.state frame event hevent with ⟨hchanged, -, -, hposition⟩
    have hactive := ((mem_zoneAt node _ zone).mp hzone).1
    rcases h.of_active hactive with ⟨active, hactiveZone, entry, hentry, hto, hinside⟩
    obtain rfl : active = zone := Option.mem_unique hactiveZone hzone
    refine ⟨entry, hentry, hto, ?_⟩
    rw [hposition]
    refine lt_abs_sub_of_exit active entry.position frame.out hinside ?_
    -- The frame leaves the zone, or there would be no event.
    rcases newDetentIdx_cases node detented.state frame hfound with hstay | ⟨hleft, -⟩
    · exact absurd hstay.1 hchanged
    · exact hleft active hzone

/-- One frame: the laws, and the invariant after it. -/
theorem laws_step :
    DetentLaws node detented frame ∧ Entered node (detentStep node detented frame) :=
  ⟨detentLaws_of_entered node detented frame h hfound, entered_step node detented frame h hfound⟩

end

/-- In every run in which no frame enters a zone whose index is cut, each event leaves the detent
    where the one before it has led, the active index is one of a zone, the output snaps to the
    center of the active zone, and from the event that enters a zone to the one that leaves it the
    position has moved by more than the hysteresis. -/
theorem detents_do_not_chatter (frames : List AxisFrame)
    (h : StepsMeet (detentStep node) (FoundInRange node) (.new node) frames) :
    StepsMeet (detentStep node) (DetentLaws node) (.new node) frames :=
  stepsMeet_of_stepsMeet (detentStep node) (Entered node) _ _ (laws_step node) _ frames
    (entered_new node) h

/-- In a list of at most `2 ^ 32` zones every zone is found in range. -/
theorem foundInRange_of_few_zones (hfew : node.zones.length ≤ 2 ^ 32) (frames : List AxisFrame) :
    StepsMeet (detentStep node) (FoundInRange node) (.new node) frames := by
  refine stepsMeet_of_mem (detentStep node) (fun _ => True) _ frames
    (fun frame _ detented _ => ⟨fun _ idx hidx => ?_, trivial⟩) _ trivial
  rcases List.findIdx?_eq_some_iff_getElem.mp hidx with ⟨hlt, -⟩
  omega

end

theorem detents_do_not_chatter_idle :
    StepsMeet (detentStep (.mk [.new (-1) (1 / 10) (1 / 20) .idle]))
      (DetentLaws (.mk [.new (-1) (1 / 10) (1 / 20) .idle]))
      (.new (.mk [.new (-1) (1 / 10) (1 / 20) .idle])) [.new (-1) 1, .new 0 2] :=
  detents_do_not_chatter (.mk [.new (-1) (1 / 10) (1 / 20) .idle]) [.new (-1) 1, .new 0 2]
    (foundInRange_of_few_zones _ (by decide) _)

section

variable (count : ℕ) (front back : DetentZone)

/-- The node with a zone at the end of a list of equal ones, before it in order. -/
def crowdedNode : DetentNode :=
  .new (List.replicate count front ++ [back])

variable (horder : front.center ≤ back.center)
include horder

theorem crowdedNode_zones :
    (crowdedNode count front back).zones = List.replicate count front ++ [back] := by
  refine List.mergeSort_of_pairwise (List.pairwise_append.mpr ⟨?_, List.pairwise_singleton _ _, ?_⟩)
  · exact List.pairwise_replicate.mpr (Or.inr (decide_eq_true le_rfl))
  · intro a ha b hb
    rw [List.eq_of_mem_replicate ha, List.mem_singleton.mp hb]
    exact decide_eq_true horder

theorem find_crowdedNode (position : ℚ) (hfront : front.containsEntry position = false) :
    (crowdedNode count front back).findEntryDetent position =
      if back.containsEntry position then some count else none := by
  unfold DetentNode.findEntryDetent
  rw [crowdedNode_zones count front back horder, List.findIdx?_append, List.findIdx?_replicate,
    hfront]
  cases hback : back.containsEntry position <;> simp [hback]

theorem zoneAt_crowdedNode (hcount : 0 < count) :
    (crowdedNode count front back).zoneAt 0 = some front := by
  have hlt : (0 : UInt32).toNat < (List.replicate count front).length := by
    rw [List.length_replicate]
    exact hcount
  rw [DetentNode.zoneAt, if_pos (by decide), crowdedNode_zones count front back horder,
    List.getElem?_append_left hlt, List.getElem?_eq_getElem hlt, List.getElem_replicate]

/-- A zone whose index is cut to zero is taken for the first one. -/
theorem newDetentIdx_crowdedNode (hcut : UInt32.ofNat count = 0) (state : DetentState)
    (position : ℚ) (hnone : state.activeDetentIdx = noDetent)
    (hfront : front.containsEntry position = false)
    (hback : back.containsEntry position = true) :
    (crowdedNode count front back).newDetentIdx state position = 0 := by
  unfold DetentNode.newDetentIdx
  rw [if_neg fun h => h.1 hnone, find_crowdedNode count front back horder position hfront,
    if_pos hback]
  exact hcut

/-- The first zone is left where the position is in none. -/
theorem newDetentIdx_crowdedNode_left (hcount : 0 < count) (state : DetentState)
    (position : ℚ) (hfirst : state.activeDetentIdx = 0)
    (hexit : front.containsExit position = false)
    (hfront : front.containsEntry position = false)
    (hback : back.containsEntry position = false) :
    (crowdedNode count front back).newDetentIdx state position = noDetent := by
  have hget : (crowdedNode count front back).zones[(0 : UInt32).toNat]? = some front :=
    ((mem_zoneAt _ 0 front).mp (zoneAt_crowdedNode count front back horder hcount)).2
  unfold DetentNode.newDetentIdx DetentNode.isWithinExitThreshold
  rw [hfirst, hget, find_crowdedNode count front back horder position hfront, hback]
  simp only [hexit, Bool.false_eq_true, and_false, if_false]

/-- Entering the zone at the end is taken for entering the first one, and this is
    left again within its hysteresis. -/
theorem crowdedNode_chatters (hcount : 0 < count) (hcut : UInt32.ofNat count = 0)
    (first second : AxisFrame) (hentry : back.containsEntry first.out = true)
    (hfirst : front.containsEntry first.out = false)
    (hexit : front.containsExit second.out = false)
    (hsecond : front.containsEntry second.out = false)
    (hleft : back.containsEntry second.out = false)
    (hnear : |second.out - first.out| ≤ front.hysteresis) :
    ¬ StepsMeet (detentStep (crowdedNode count front back))
        (DetentLaws (crowdedNode count front back)) (.new (crowdedNode count front back))
        [first, second] := by
  intro h
  have hlaws := h.2.1.moved
  -- The first frame enters the zone at the end and makes the first zone active.
  have hnew := newDetentIdx_crowdedNode count front back horder hcut
    (crowdedNode count front back).initState first.out rfl hfirst hentry
  have hactive : (detentStep (crowdedNode count front back)
      (.new (crowdedNode count front back)) first).state.activeDetentIdx = 0 :=
    (stepSoa_activeDetentIdx _ _ _).trans hnew
  have hevent := stepSoa_event (crowdedNode count front back)
    (crowdedNode count front back).initState first
  -- The second is in no zone, so there is an event that leaves the first one.
  have hgone := newDetentIdx_crowdedNode_left count front back horder hcount _ second.out hactive
    hexit hsecond hleft
  have hchanged : (0 : UInt32) ≠ (crowdedNode count front back).initState.activeDetentIdx :=
    show (0 : UInt32) ≠ noDetent by decide
  rw [hnew, if_pos hchanged] at hevent
  rw [stepSoa_event, hgone, hactive, if_pos (by decide)] at hlaws
  obtain ⟨entry, hlast, -, hfar⟩ := hlaws _ rfl front
    (zoneAt_crowdedNode count front back horder hcount)
  have hlastEvent : (detentStep (crowdedNode count front back)
      (.new (crowdedNode count front back)) first).last = _ :=
    congrArg (fun event => event.or none) hevent
  rw [hlastEvent] at hlast
  rcases Option.some.inj hlast with rfl
  exact absurd hnear (not_le_of_gt hfar)

end

/-- Behind `2 ^ 32` zones at one end, a zone at the other: entering it is taken for
    entering one of those, and left again within their hysteresis. -/
theorem cut_detent_index_chatters : ¬ StepsMeet
        (detentStep (crowdedNode (2 ^ 32) (.new (-1) 0 1 .idle) (.new 1 (1 / 10) 1 .takeoff)))
        (DetentLaws (crowdedNode (2 ^ 32) (.new (-1) 0 1 .idle) (.new 1 (1 / 10) 1 .takeoff)))
        (.new (crowdedNode (2 ^ 32) (.new (-1) 0 1 .idle) (.new 1 (1 / 10) 1 .takeoff)))
        [.new 1 1, .new (4 / 5) 2] :=
  crowdedNode_chatters (2 ^ 32) (.new (-1) 0 1 .idle) (.new 1 (1 / 10) 1 .takeoff)
    (by decide +kernel) (Nat.two_pow_pos 32) rfl (.new 1 1) (.new (4 / 5) 2) (by decide +kernel)
    (by decide +kernel) (by decide +kernel) (by decide +kernel) (by decide +kernel)
    (by decide +kernel)

end OpenFlight.Axis
