import Mathlib.Data.List.Chain
import Mathlib.Tactic.Linarith
import OpenFlight.Core.Axis.ThrottleZone
import OpenFlight.Lib.Run

/-!
# The Events of a Throttle Zone

When the events of a zone tell where the throttle is.

The processor keeps one value for all its zones, that of the last call, so a
crossing that a call does not report is not reported later either. A call that
crosses many zones at once reports the first four of them. An event zone is
faithful, its events entered and exited in turn and the last of them in
agreement with the value, exactly as long as no call crosses it together with
four zones before it.

An event names its zone, and zones may share a name. So the events of a zone
are told apart here by its place in the configuration; `indexedEvents` are the
events of the processor with these places.

## Main definitions

* `Reported`, `reportStep`: The processor, and what a zone has reported.
* `Faithful`: The events of a zone agree with the value.

## Theorems

* `faithful_iff`: A zone is faithful exactly under `NotCrowdedOut`, along every
  run.
* `fifth_zone_not_reported`: A run in which a zone is not.
-/

namespace OpenFlight.Axis

/-- The zones that a call crosses, with their places, of which the first is given. -/
def placedCrossings (zones : List ThrottleZone) (first : ℕ) (prev clamped : ℚ) :
    List (ℕ × ZoneEvent) :=
  (zones.zipIdx first).filterMap fun entry =>
    (entry.1.crossing prev clamped).map fun event => (entry.2, event)

/-- The events of a call with the places of their zones. -/
def indexedEvents (zones : List ThrottleZone) (prev clamped : ℚ) : List (ℕ × ZoneEvent) :=
  (placedCrossings zones 0 prev clamped).take 4

/-- The events of a call that are those of the zone at a place. -/
def eventsOf (zones : List ThrottleZone) (place : ℕ) (prev clamped : ℚ) : List ZoneEvent :=
  ((indexedEvents zones prev clamped).filter fun entry => entry.1 = place).map Prod.snd

/-- The zones that a call crosses. -/
def crossings (zones : List ThrottleZone) (prev clamped : ℚ) : List ZoneEvent :=
  zones.filterMap fun zone => zone.crossing prev clamped

section

variable (prev clamped : ℚ)

section

variable (zones : List ThrottleZone)

include zones

/-- The loop reports the first four crossings. -/
theorem emitEvents_eq (n : ℕ) :
    emitEvents prev clamped zones n = (crossings zones prev clamped).take (4 - n) := by
  induction zones generalizing n with
  | nil => rw [crossings, List.filterMap_nil, List.take_nil, emitEvents]
  | cons zone rest ih =>
      rw [emitEvents, crossings, List.filterMap_cons]
      split_ifs with hfull
      · rw [Nat.sub_eq_zero_of_le hfull, List.take_zero]
      · cases zone.crossing prev clamped with
        | none => exact ih n
        | some event =>
            have hleft : 4 - n = 4 - (n + 1) + 1 := by omega
            dsimp only
            rw [ih, hleft, List.take_succ_cons, crossings]

/-- Leaving the places out. -/
theorem map_snd_placedCrossings (first : ℕ) :
    (placedCrossings zones first prev clamped).map Prod.snd = crossings zones prev clamped := by
  have hplaces : ∀ entry : ThrottleZone × ℕ,
      ((entry.1.crossing prev clamped).map fun event => (entry.2, event)).map Prod.snd =
        entry.1.crossing prev clamped := by
    intro entry
    rw [Option.map_map]
    exact Option.map_id'
  rw [placedCrossings, List.map_filterMap, crossings]
  simp only [hplaces]
  conv_rhs => rw [← List.zipIdx_map_fst first zones, List.filterMap_map]
  rfl

/-- The events with their places are those that the processor reports. -/
theorem map_snd_indexedEvents :
    (indexedEvents zones prev clamped).map Prod.snd = emitEvents prev clamped zones 0 := by
  rw [emitEvents_eq, indexedEvents, List.map_take, map_snd_placedCrossings]

theorem mem_placedCrossings (first : ℕ) (entry : ℕ × ZoneEvent)
    (h : entry ∈ placedCrossings zones first prev clamped) :
    first ≤ entry.1 ∧ entry.1 < first + zones.length := by
  rcases List.mem_filterMap.mp h with ⟨placed, hplaced, hentry⟩
  rcases Option.map_eq_some_iff.mp hentry with ⟨event, -, rfl⟩
  have hbounds := List.mem_zipIdx hplaced
  exact ⟨hbounds.1, hbounds.2.1⟩

end

theorem placedCrossings_append (before after : List ThrottleZone) (zone : ThrottleZone) :
    placedCrossings (before ++ zone :: after) 0 prev clamped =
      placedCrossings before 0 prev clamped ++
        (((zone.crossing prev clamped).map fun event => (before.length, event)).toList ++
          placedCrossings after (before.length + 1) prev clamped) := by
  unfold placedCrossings
  rw [List.zipIdx_append, List.filterMap_append, List.zipIdx_cons, List.filterMap_cons,
    Nat.zero_add]
  cases zone.crossing prev clamped <;> rfl

/-- A zone is reported when fewer than four zones before it are crossed. -/
theorem eventsOf_eq (before after : List ThrottleZone) (zone : ThrottleZone) :
    eventsOf (before ++ zone :: after) before.length prev clamped =
      if (crossings before prev clamped).length < 4
        then (zone.crossing prev clamped).toList else [] := by
  have hlength : (placedCrossings before 0 prev clamped).length =
      (crossings before prev clamped).length := by
    rw [← map_snd_placedCrossings prev clamped before 0, List.length_map]
  -- The zones on either side have other places.
  have hbefore : ∀ k, ((placedCrossings before 0 prev clamped).take k).filter
      (fun entry => entry.1 = before.length) = [] := by
    intro k
    refine List.filter_eq_nil_iff.mpr fun entry hentry => ?_
    have hbounds := mem_placedCrossings prev clamped before 0 entry (List.mem_of_mem_take hentry)
    exact fun h => absurd (of_decide_eq_true h) (by omega)
  have hafter : ∀ k, ((placedCrossings after (before.length + 1) prev clamped).take k).filter
      (fun entry => entry.1 = before.length) = [] := by
    intro k
    refine List.filter_eq_nil_iff.mpr fun entry hentry => ?_
    have hbounds := mem_placedCrossings prev clamped after _ entry (List.mem_of_mem_take hentry)
    exact fun h => absurd (of_decide_eq_true h) (by omega)
  rw [eventsOf, indexedEvents, placedCrossings_append, List.take_append, List.take_append,
    List.filter_append, List.filter_append, hbefore, hafter, hlength, List.nil_append,
    List.append_nil]
  cases zone.crossing prev clamped with
  | none =>
      rw [Option.map_none, Option.toList_none, Option.toList_none, List.take_nil, ite_self]
      rfl
  | some event =>
      rw [Option.map_some, Option.toList_some]
      split_ifs with hfew
      · rw [List.take_of_length_le (by rw [List.length_singleton]; omega)]
        simp
      · rw [Nat.sub_eq_zero_of_le (not_lt.mp hfew)]
        rfl

/-- Whether an enabled event zone is crossed, and which way. -/
theorem crossing_eq (zone : ThrottleZone) (henabled : zone.enabled = true)
    (hevent : zone.name.isEventZone = true) :
    (zone.crossing prev clamped).map ZoneEvent.entered =
      if zone.threshold ≤ prev ↔ zone.threshold ≤ clamped then none
        else some (decide (zone.threshold ≤ clamped)) := by
  unfold ThrottleZone.crossing
  rw [henabled, hevent]
  simp only [Bool.not_true, Bool.false_eq_true, if_false, ge_iff_le, ← not_le]
  by_cases hprev : zone.threshold ≤ prev <;> by_cases hnow : zone.threshold ≤ clamped <;>
    simp [hprev, hnow]

end

/-- A processor, and whether each event that the zone at a place has reported
    was one of entering. -/
structure Reported where
  processor : ThrottleZoneProcessor
  entered : List Bool

def Reported.new (config : ThrottleZoneConfig) : Reported :=
  { processor := .new config
    entered := [] }

/-- One call, with the events that it reports for the zone at the place. -/
def reportStep (place : ℕ) (reported : Reported) (input : ℚ) : Reported :=
  let events := eventsOf reported.processor.config.zones place reported.processor.prevValue
    (clampUnit input)
  { processor := (reported.processor.process input).1
    entered := reported.entered ++ events.map ZoneEvent.entered }

/-- The events of the zone are entered and exited in turn, entered first, and
    the last of them says where the value is. -/
structure Faithful (zone : ThrottleZone) (reported : Reported) : Prop where
  starts : reported.entered.head? ≠ some false
  alternates : reported.entered.IsChain (· ≠ ·)
  last_iff : reported.entered.getLast? = some true ↔ zone.threshold ≤ reported.processor.prevValue

instance (zone : ThrottleZone) (reported : Reported) : Decidable (Faithful zone reported) :=
  decidable_of_iff
    (reported.entered.head? ≠ some false ∧ reported.entered.IsChain (· ≠ ·) ∧
      (reported.entered.getLast? = some true ↔ zone.threshold ≤ reported.processor.prevValue))
    ⟨fun h => ⟨h.1, h.2.1, h.2.2⟩, fun h => ⟨h.starts, h.alternates, h.last_iff⟩⟩

/-- Where the call crosses the zone, it crosses fewer than four zones before it. -/
def NotCrowdedOut (before : List ThrottleZone) (zone : ThrottleZone) (reported : Reported)
    (input : ℚ) : Prop :=
  (zone.crossing reported.processor.prevValue (clampUnit input)).isSome = true →
    (crossings before reported.processor.prevValue (clampUnit input)).length < 4

variable (before : List ThrottleZone) (after : List ThrottleZone)

/-- What a zone has reported after a call. -/
theorem reportStep_entered (zone : ThrottleZone) (reported : Reported) (input : ℚ)
    (hzones : reported.processor.config.zones = before ++ zone :: after) :
    (reportStep before.length reported input).entered = reported.entered ++
      if (crossings before reported.processor.prevValue (clampUnit input)).length < 4
        then ((zone.crossing reported.processor.prevValue (clampUnit input)).map
          ZoneEvent.entered).toList
        else [] := by
  dsimp only [reportStep]
  rw [hzones, eventsOf_eq]
  split_ifs
  · rw [Option.toList_map]
  · rfl

/-- An event that tells of the value after one that told the opposite. -/
theorem turn_snoc (entered : List Bool) (now : Bool) (hstarts : entered.head? ≠ some false)
    (halternates : entered.IsChain (· ≠ ·)) (hlast : entered.getLast? = some true ↔ now = false) :
    (entered ++ [now]).head? ≠ some false ∧ (entered ++ [now]).IsChain (· ≠ ·) := by
  refine ⟨?_, List.isChain_append.mpr ⟨halternates, List.IsChain.singleton now, ?_⟩⟩
  · cases entered with
    | nil =>
        -- The first event: before it the value was outside, so it is of entering.
        have hnow : now ≠ false := fun h => absurd (hlast.mpr h) (by decide)
        exact fun h => hnow (Option.some.inj h)
    | cons first rest => exact hstarts
  · intro last hmem next hnext
    obtain rfl : now = next := Option.some.inj hnext
    rw [Option.mem_def] at hmem
    rw [hmem, Option.some.injEq] at hlast
    cases last <;> cases now <;> simp at hlast ⊢

section

variable (zone : ThrottleZone) (henabled : zone.enabled = true)
  (hevent : zone.name.isEventZone = true) (reported : Reported) (input : ℚ)
  (hzones : reported.processor.config.zones = before ++ zone :: after) (h : Faithful zone reported)

include zone henabled hevent reported input hzones h

/-- A call that reports the zone when it crosses it keeps the zone faithful. -/
theorem faithful_step (hok : NotCrowdedOut before zone reported input) :
    Faithful zone (reportStep before.length reported input) := by
  have hcrossing := crossing_eq reported.processor.prevValue (clampUnit input) zone henabled hevent
  have hentered := reportStep_entered before after zone reported input hzones
  by_cases hsame : zone.threshold ≤ reported.processor.prevValue ↔ zone.threshold ≤ clampUnit input
  · -- Nothing to report: the value is where it was.
    rw [if_pos hsame] at hcrossing
    rw [hcrossing, Option.toList_none, ite_self, List.append_nil] at hentered
    refine ⟨?_, ?_, ?_⟩
    · rw [hentered]
      exact h.starts
    · rw [hentered]
      exact h.alternates
    · rw [hentered]
      exact h.last_iff.trans hsame
  · rw [if_neg hsame] at hcrossing
    have hsome : (zone.crossing reported.processor.prevValue (clampUnit input)).isSome = true := by
      rw [← Option.isSome_map, hcrossing]
      rfl
    rw [if_pos (hok hsome), hcrossing, Option.toList_some] at hentered
    -- The zone is crossed, so the last event told the opposite.
    have hother : reported.entered.getLast? = some true ↔
        decide (zone.threshold ≤ clampUnit input) = false := by
      rw [h.last_iff, decide_eq_false_iff_not]
      tauto
    have hturn := turn_snoc reported.entered _ h.starts h.alternates hother
    rw [← hentered] at hturn
    refine ⟨hturn.1, hturn.2, ?_⟩
    rw [hentered, List.getLast?_append_of_ne_nil _ (List.cons_ne_nil _ _)]
    exact Option.some_inj.trans decide_eq_true_iff

/-- A call that crosses the zone and does not report it leaves its last event at
    odds with the value. -/
theorem not_faithful_step (hok : ¬ NotCrowdedOut before zone reported input) :
    ¬ Faithful zone (reportStep before.length reported input) := by
  have hcrossing := crossing_eq reported.processor.prevValue (clampUnit input) zone henabled hevent
  have hentered := reportStep_entered before after zone reported input hzones
  rcases Classical.not_imp.mp hok with ⟨hsome, hcrowded⟩
  rw [if_neg hcrowded, List.append_nil] at hentered
  intro hnext
  -- The next entry of the state would have to be on the same side, so nothing was crossed.
  have hsame :
      zone.threshold ≤ reported.processor.prevValue ↔ zone.threshold ≤ clampUnit input := by
    rw [← h.last_iff, ← hentered]
    exact hnext.last_iff
  rw [if_pos hsame, Option.map_eq_none_iff] at hcrossing
  rw [hcrossing] at hsome
  exact absurd hsome (by decide)

end

/-- Nothing has been reported yet, and the value is zero. -/
theorem faithful_new (config : ThrottleZoneConfig) (zone : ThrottleZone)
    (hpos : 0 < zone.threshold) : Faithful zone (.new config) :=
  ⟨nofun, List.IsChain.nil, iff_of_false nofun (not_le_of_gt hpos)⟩

/-- From any state in which the zone is faithful. -/
theorem always_faithful_iff (zone : ThrottleZone) (henabled : zone.enabled = true)
    (hevent : zone.name.isEventZone = true) (reported : Reported)
    (hzones : reported.processor.config.zones = before ++ zone :: after)
    (h : Faithful zone reported) (inputs : List ℚ) :
    Always (reportStep before.length) (Faithful zone) reported inputs ↔
      StepsMeet (reportStep before.length) (NotCrowdedOut before zone) reported inputs :=
  always_iff_stepsMeet (reportStep before.length)
    (fun reported => reported.processor.config.zones = before ++ zone :: after) _ _
    (fun _ _ h => h)
    (fun reported input hzones h => faithful_step before after zone henabled hevent reported input
      hzones h)
    (fun reported input hzones h => not_faithful_step before after zone henabled hevent reported
      input hzones h) _ inputs hzones h

/-- In every run, an enabled event zone with a threshold above zero is faithful after every call
    exactly when no call crosses it together with four event zones that come before it. -/
theorem faithful_iff (before after : List ThrottleZone) (zone : ThrottleZone)
    (henabled : zone.enabled = true) (hevent : zone.name.isEventZone = true)
    (hpos : 0 < zone.threshold) (inputs : List ℚ) :
    Always (reportStep before.length) (Faithful zone)
        (.new { zones := before ++ zone :: after }) inputs ↔
      StepsMeet (reportStep before.length) (NotCrowdedOut before zone)
        (.new { zones := before ++ zone :: after }) inputs :=
  always_faithful_iff before after zone henabled hevent (.new { zones := before ++ zone :: after })
    rfl (faithful_new _ zone hpos) inputs

theorem faithful_iff_between_zones :
    Always (reportStep 1) (Faithful { name := .afterburner, threshold := 9 / 10, enabled := true })
        (.new ((ThrottleZoneConfig.new.withMilPower (1 / 2)).withAfterburner (9 / 10))) [1, 0] ↔
      StepsMeet (reportStep 1)
        (NotCrowdedOut [{ name := .milPower, threshold := 1 / 2, enabled := true }]
          { name := .afterburner, threshold := 9 / 10, enabled := true })
        (.new ((ThrottleZoneConfig.new.withMilPower (1 / 2)).withAfterburner (9 / 10))) [1, 0] :=
  faithful_iff [{ name := .milPower, threshold := 1 / 2, enabled := true }] []
    { name := .afterburner, threshold := 9 / 10, enabled := true } rfl rfl (by norm_num) [1, 0]

/-- From idle to full throttle across five zones: the fifth has reported nothing,
    though the value is above its threshold. -/
theorem fifth_zone_not_reported :
    ¬ Always (reportStep 4) (Faithful { name := .custom 4, threshold := 1 / 2, enabled := true })
      (.new { zones := [
        { name := .custom 0, threshold := 1 / 10, enabled := true },
        { name := .custom 1, threshold := 2 / 10, enabled := true },
        { name := .custom 2, threshold := 3 / 10, enabled := true },
        { name := .custom 3, threshold := 4 / 10, enabled := true },
        { name := .custom 4, threshold := 1 / 2, enabled := true }] }) [1] := by
  intro h
  have hafter := h.2
  revert hafter
  unfold Always
  decide +kernel

end OpenFlight.Axis
