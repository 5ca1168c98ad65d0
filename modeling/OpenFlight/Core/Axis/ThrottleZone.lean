import Mathlib.Algebra.Order.Field.Rat
import Mathlib.Data.List.Basic

/-!
# Throttle Zones

Named zones on a throttle axis: a zone that cuts the output to zero, one that
saturates it, and zones that report when they are entered and left.

A call clamps the value, applies the first cut zone and the first saturation
zone that are enabled, and goes through the other zones in the order of the
configuration, comparing the value with that of the call before. It reports at
most four events, into an array of the caller's, and stops looking when it has
them. Numbers are exact rationals.

## Main definitions

* `ZoneName`, `ThrottleZone`, `ThrottleZoneConfig`: The configuration.
* `process`: A call.
-/

namespace OpenFlight.Axis

/-- The names of the zones. -/
inductive ZoneName
  | cut
  | max
  | milPower
  | afterburner
  | custom (index : UInt8)
deriving DecidableEq

/-- The zones that report events. -/
def ZoneName.isEventZone : ZoneName → Bool
  | .milPower => true
  | .afterburner => true
  | .custom _ => true
  | _ => false

/-- A zone from a threshold on. -/
structure ThrottleZone where
  name : ZoneName
  threshold : ℚ
  enabled : Bool

/-- A zone was entered, or left, with the value then. -/
structure ZoneEvent where
  zone : ZoneName
  entered : Bool
  value : ℚ

/-- The zones of a throttle. -/
structure ThrottleZoneConfig where
  zones : List ThrottleZone

namespace ThrottleZoneConfig

/-- No zones. -/
def new : ThrottleZoneConfig :=
  { zones := [] }

/-- The builders add an enabled zone at the end. -/
def withZone (config : ThrottleZoneConfig) (name : ZoneName) (threshold : ℚ) : ThrottleZoneConfig :=
  { zones := config.zones ++ [{ name := name, threshold := threshold, enabled := true }] }

/-- Add the zone of military power. -/
def withMilPower (config : ThrottleZoneConfig) (threshold : ℚ) : ThrottleZoneConfig :=
  config.withZone .milPower threshold

/-- Add the zone of the afterburner. -/
def withAfterburner (config : ThrottleZoneConfig) (threshold : ℚ) : ThrottleZoneConfig :=
  config.withZone .afterburner threshold

/-- The first enabled zone of a name. -/
def firstEnabled (config : ThrottleZoneConfig) (name : ZoneName) : Option ThrottleZone :=
  config.zones.find? fun zone => zone.name = name && zone.enabled

end ThrottleZoneConfig

/-- `f32::clamp` to the range from zero to one. -/
def clampUnit (input : ℚ) : ℚ :=
  if input < 0 then 0 else if input > 1 then 1 else input

/-- The event of one zone when the value goes from `prev` to `clamped`. -/
def ThrottleZone.crossing (zone : ThrottleZone) (prev clamped : ℚ) : Option ZoneEvent :=
  if !zone.enabled then none
  else if !zone.name.isEventZone then none
  else if prev < zone.threshold ∧ clamped ≥ zone.threshold then
    some { zone := zone.name, entered := true, value := clamped }
  else if clamped < zone.threshold ∧ prev ≥ zone.threshold then
    some { zone := zone.name, entered := false, value := clamped }
  else none

/-- The loop over the zones, with `n` events reported so far. -/
def emitEvents (prev clamped : ℚ) : List ThrottleZone → ℕ → List ZoneEvent
  | [], _ => []
  | zone :: rest, n =>
      if n ≥ 4 then []
      else
        match zone.crossing prev clamped with
        | some event => event :: emitEvents prev clamped rest (n + 1)
        | none => emitEvents prev clamped rest n

/-- The configuration and the value of the last call. -/
structure ThrottleZoneProcessor where
  config : ThrottleZoneConfig
  prevValue : ℚ

namespace ThrottleZoneProcessor

/-- A processor with the throttle at zero. -/
def new (config : ThrottleZoneConfig) : ThrottleZoneProcessor :=
  { config := config
    prevValue := 0 }

/-- The output for a clamped value. Both zones look at that value, so the
    saturation zone has the last word. -/
def output (config : ThrottleZoneConfig) (clamped : ℚ) : ℚ :=
  let afterCut :=
    match config.firstEnabled .cut with
    | some cut => if clamped ≤ cut.threshold then 0 else clamped
    | none => clamped
  match config.firstEnabled .max with
  | some max => if clamped ≥ max.threshold then 1 else afterCut
  | none => afterCut

/-- The output and the events, which are written to the first places of the
    caller's array; their number is returned too. -/
def process (processor : ThrottleZoneProcessor) (input : ℚ) :
    ThrottleZoneProcessor × ℚ × List ZoneEvent :=
  let clamped := clampUnit input
  let events := emitEvents processor.prevValue clamped processor.config.zones 0
  ({ processor with prevValue := clamped }, output processor.config clamped, events)

end ThrottleZoneProcessor

end OpenFlight.Axis
