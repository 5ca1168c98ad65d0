import OpenFlight.Core.Prim
import OpenFlight.Lib.Overlay
import Mathlib.Data.Finset.Sort
import Mathlib.Data.String.Basic

/-!
# Flight Profiles

Profiles, their validation and their merging, and the editor's diff of two of
them.

A number of a profile is kept as its bit pattern, so that two profiles are
equal only if their numbers are the same bit for bit; a check compares the
values the patterns stand for. Two of the checks ask whether a number lies in a
range, which NaN does not, and the others whether it lies outside of one, which
NaN does not either.

The maps of a profile are hash maps. Validation stops at the first entry that
fails, and merging goes through the entries of the profile that is merged in,
so both take the orders of iteration. The message of an error is the row of the
pieces it is formatted from, with the numbers unformatted.

The editor compares profiles as the source does, which is not bit by bit: the
two zeros are equal, and NaN is not equal to itself. Two maps are equal if they
have as many entries as each other and each entry of the one has an equal one in
the other. The axes of both profiles are visited in the order of their names, and
the values in an entry of the diff are kept as they are and not formatted.

## Main definitions

* `Profile`, `AxisConfig`, `PofOverrides`: Profiles and what they are made of.
* `CapabilityMode`, `CapabilityContext`: The limits of a mode.
-/

namespace OpenFlight.Profiles

/-- The bit pattern of an `f32`. -/
abbrev Bits := UInt32

/-- The number that bits stand for. -/
def Bits.value (bits : Bits) : F32 :=
  F32.fromBits bits

/-- `MAX_DEADZONE`, 0.5. -/
def maxDeadzone : Bits := 0x3F000000

def profileSchemaVersion : String := "flight.profile/1"

/-- An aircraft. -/
structure AircraftId where
  icao : String
deriving DecidableEq

/-- The filter of an axis. -/
structure FilterConfig where
  alpha : Bits
  spikeThreshold : Option Bits
  maxSpikeCount : Option UInt8

/-- A detent of an axis. -/
structure DetentZone where
  position : Bits
  width : Bits
  role : String

/-- A point of a curve. -/
structure CurvePoint where
  input : Bits
  output : Bits

/-- The configuration of one axis. -/
@[ext]
structure AxisConfig where
  deadzone : Option Bits
  expo : Option Bits
  slewRate : Option Bits
  detents : List DetentZone
  curve : Option (List CurvePoint)
  filter : Option FilterConfig

/-- The overrides of one phase of flight. -/
structure PofOverrides where
  axes : Option (HashMap String AxisConfig)
  hysteresis : Option (HashMap String (HashMap String Bits))

/-- A profile. -/
@[ext]
structure Profile where
  schema : String
  sim : Option String
  aircraft : Option AircraftId
  axes : HashMap String AxisConfig
  pofOverrides : Option (HashMap String PofOverrides)

/-- What a user is allowed. -/
inductive CapabilityMode
  | full
  | demo
  | kid
deriving DecidableEq

/-- The limits of a mode that validation reads. -/
structure CapabilityLimits where
  maxExpo : Bits
  maxSlewRate : Bits

/-- A mode with its limits. -/
structure CapabilityContext where
  mode : CapabilityMode
  limits : CapabilityLimits

/-- `CapabilityContext::for_mode`. -/
def CapabilityContext.forMode (mode : CapabilityMode) : CapabilityContext :=
  match mode with
  -- 1.0 and 100.0
  | .full => { mode := mode, limits := { maxExpo := 0x3F800000, maxSlewRate := 0x42C80000 } }
  -- 0.6 and 50.0
  | .demo => { mode := mode, limits := { maxExpo := 0x3F19999A, maxSlewRate := 0x42480000 } }
  -- 0.3 and 20.0
  | .kid => { mode := mode, limits := { maxExpo := 0x3E99999A, maxSlewRate := 0x41A00000 } }

/-- A piece of a message. -/
inductive Piece
  | text (s : String)
  | number (bits : Bits)
  | mode (m : CapabilityMode)
deriving DecidableEq

/-- Why a profile is refused. -/
inductive ProfileError
  | validation (message : List Piece)
deriving DecidableEq

/-- An error with nothing to format but names and indices. -/
def ProfileError.ofText (s : String) : ProfileError :=
  .validation [.text s]

/-- The orders in which the maps of a profile are iterated. -/
structure Orders where
  axes : Iteration String AxisConfig
  phases : Iteration String PofOverrides

noncomputable instance : Inhabited Orders :=
  ⟨⟨default, default⟩⟩

/-- `(low..=high).contains(&x)`. -/
def contains (low high : F32) (x : Bits) : Bool :=
  F32.le low x.value && F32.le x.value high

/-- The inputs of a curve rise. -/
def validateCurveMonotonic (axisName : String) (curve : List CurvePoint) :
    Except ProfileError Unit := do
  if curve.length < 2 then
    throw (.ofText s!"axes.{axisName}.curve: Curve must have at least 2 points")
  (curve.zip curve.tail).zipIdx.forM fun ((point, next), i) =>
    if F32.le next.input.value point.input.value then
      let index := i + 1
      throw (.ofText (s!"axes.{axisName}.curve[{index}]: Curve input values must be "
        ++ "strictly increasing (monotonic)"))
    else pure ()

/-- A detent lies in range and has a width. -/
def validateDetent (axisName : String) (index : Nat) (detent : DetentZone) :
    Except ProfileError Unit := do
  if F32.lt detent.position.value (.fin (-1)) || F32.lt (.fin 1) detent.position.value then
    throw (.ofText (s!"axes.{axisName}.detents[{index}].position: Detent position must be "
      ++ "between -1.0 and 1.0"))
  if F32.le detent.width.value (.fin 0) || F32.lt (.fin (1 / 2)) detent.width.value then
    throw (.ofText (s!"axes.{axisName}.detents[{index}].width: Detent width must be "
      ++ "between 0.0 and 0.5"))

/-- The settings of a filter lie in range. -/
def validateFilterConfig (axisName : String) (filter : FilterConfig) :
    Except ProfileError Unit := do
  if !contains (.fin 0) (.fin 1) filter.alpha then
    throw (.ofText s!"axes.{axisName}.filter.alpha: Alpha must be between 0.0 and 1.0")
  if filter.spikeThreshold.any fun threshold =>
      F32.le threshold.value (.fin 0) || F32.lt (.fin 1) threshold.value then
    throw (.ofText (s!"axes.{axisName}.filter.spike_threshold: Spike threshold must be "
      ++ "between 0.0 and 1.0"))
  if filter.maxSpikeCount.any fun count => count == 0 || 10 < count then
    throw (.ofText (s!"axes.{axisName}.filter.max_spike_count: Max spike count must be "
      ++ "between 1 and 10"))

/-- All checks of an axis. -/
def validateAxisConfig (context : CapabilityContext) (axisName : String) (config : AxisConfig) :
    Except ProfileError Unit := do
  if config.deadzone.any fun deadzone => !contains (.fin 0) maxDeadzone.value deadzone then
    throw (.validation [.text s!"axes.{axisName}.deadzone: Deadzone must be between 0.0 and ",
      .number maxDeadzone])
  if config.expo.any fun expo =>
      F32.lt expo.value (.fin 0) || F32.lt context.limits.maxExpo.value expo.value then
    throw (.validation [.text s!"axes.{axisName}.expo: Expo must be between 0.0 and ",
      .number context.limits.maxExpo, .text " in ", .mode context.mode, .text " mode"])
  if config.slewRate.any fun slewRate =>
      F32.lt slewRate.value (.fin 0) || F32.lt context.limits.maxSlewRate.value slewRate.value then
    throw (.validation [.text s!"axes.{axisName}.slew_rate: Slew rate must be between 0.0 and ",
      .number context.limits.maxSlewRate, .text " in ", .mode context.mode, .text " mode"])
  match config.curve with
  | some curve => validateCurveMonotonic axisName curve
  | none => pure ()
  config.detents.zipIdx.forM fun (detent, i) => validateDetent axisName i detent
  match config.filter with
  | some filter => validateFilterConfig axisName filter
  | none => pure ()

/-- All checks of a phase of flight. -/
def validatePofOverrides (order : Orders) (context : CapabilityContext) (phaseName : String)
    (overrides : PofOverrides) : Except ProfileError Unit :=
  match overrides.axes with
  | some axes =>
      (order.axes.entries axes).forM fun ⟨axisName, config⟩ =>
        validateAxisConfig context s!"pof_overrides.{phaseName}.axes.{axisName}" config
  | none => pure ()

/-- `Profile::validate_with_capabilities`. -/
def Profile.validateWithCapabilities (order : Orders) (self : Profile)
    (context : CapabilityContext) : Except ProfileError Unit := do
  if self.schema ≠ profileSchemaVersion then
    let schema := self.schema
    throw (.ofText s!"Unsupported schema version: {schema}")
  (order.axes.entries self.axes).forM fun ⟨axisName, config⟩ =>
    validateAxisConfig context axisName config
  match self.pofOverrides with
  | some pofOverrides =>
      (order.phases.entries pofOverrides).forM fun ⟨phaseName, overrides⟩ =>
        validatePofOverrides order context phaseName overrides
  | none => pure ()

/-- `Profile::validate`. -/
def Profile.validate (order : Orders) (self : Profile) : Except ProfileError Unit :=
  self.validateWithCapabilities order (.forMode .full)

/-- An axis over another. -/
def mergeAxisConfigs (base overrideConfig : AxisConfig) : AxisConfig where
  deadzone := overrideConfig.deadzone.or base.deadzone
  expo := overrideConfig.expo.or base.expo
  slewRate := overrideConfig.slewRate.or base.slewRate
  detents := if overrideConfig.detents.isEmpty then base.detents else overrideConfig.detents
  curve := overrideConfig.curve.or base.curve
  filter := overrideConfig.filter.or base.filter

/-- The configuration that the loop over the axes inserts, given what is there. -/
def mergedConfig (baseConfig : Option AxisConfig) (otherConfig : AxisConfig) : AxisConfig :=
  match baseConfig with
  | some baseConfig => mergeAxisConfigs baseConfig otherConfig
  | none => otherConfig

/-- The phases after the loop over those of the other profile: each replaces
    the one of its name, in a map that is created if there is none. -/
def mergedPof (order : Orders) (base : Option (HashMap String PofOverrides))
    (otherPof : HashMap String PofOverrides) : HashMap String PofOverrides :=
  overlayEntries (fun _ overrides => overrides) order.phases (base.getD ∅) otherPof

/-- `Profile::merge_with`. -/
def Profile.mergeWith (order : Orders) (self other : Profile) : Except ProfileError Profile :=
  .ok
    { schema := self.schema
      sim := if other.sim.isSome then other.sim else self.sim
      aircraft := if other.aircraft.isSome then other.aircraft else self.aircraft
      axes := overlayEntries mergedConfig order.axes self.axes other.axes
      pofOverrides :=
        match other.pofOverrides with
        | some otherPof => some (mergedPof order self.pofOverrides otherPof)
        | none => self.pofOverrides }

/-- `==` of single-precision numbers. -/
def Bits.eq (a b : Bits) : Bool :=
  a.value.eq b.value

/-- `==` of optional values. -/
def optionEq {α : Type} (eq : α → α → Bool) : Option α → Option α → Bool
  | none, none => true
  | some a, some b => eq a b
  | _, _ => false

/-- `==` of vectors. -/
def listEq {α : Type} (eq : α → α → Bool) : List α → List α → Bool
  | [], [] => true
  | a :: as, b :: bs => eq a b && listEq eq as bs
  | _, _ => false

/-- `==` of hash maps. -/
def mapEq {ν : Type} (eq : ν → ν → Bool) (a b : HashMap String ν) : Bool :=
  a.keys.card == b.keys.card &&
    decide (∀ entry ∈ a.entries, (b.lookup entry.1).any (eq entry.2) = true)

/-- `PartialEq` of filters. -/
def FilterConfig.eq (a b : FilterConfig) : Bool :=
  a.alpha.eq b.alpha && optionEq Bits.eq a.spikeThreshold b.spikeThreshold &&
    a.maxSpikeCount == b.maxSpikeCount

/-- `PartialEq` of detents. -/
def DetentZone.eq (a b : DetentZone) : Bool :=
  a.position.eq b.position && a.width.eq b.width && a.role == b.role

/-- `PartialEq` of curve points. -/
def CurvePoint.eq (a b : CurvePoint) : Bool :=
  a.input.eq b.input && a.output.eq b.output

/-- `PartialEq` of axes. -/
def AxisConfig.eq (a b : AxisConfig) : Bool :=
  optionEq Bits.eq a.deadzone b.deadzone && optionEq Bits.eq a.expo b.expo &&
    optionEq Bits.eq a.slewRate b.slewRate && listEq DetentZone.eq a.detents b.detents &&
    optionEq (listEq CurvePoint.eq) a.curve b.curve && optionEq FilterConfig.eq a.filter b.filter

/-- `PartialEq` of overrides. -/
def PofOverrides.eq (a b : PofOverrides) : Bool :=
  optionEq (mapEq AxisConfig.eq) a.axes b.axes &&
    optionEq (mapEq (mapEq Bits.eq)) a.hysteresis b.hysteresis

/-- When the editor takes profiles for equal. -/
def Profile.eq (a b : Profile) : Bool :=
  a.schema == b.schema && a.sim == b.sim && a.aircraft == b.aircraft &&
    mapEq AxisConfig.eq a.axes b.axes &&
    optionEq (mapEq PofOverrides.eq) a.pofOverrides b.pofOverrides

/-- What an old or a new value is formatted from. -/
inductive DiffValue
  | text (s : String)
  | number (n : Option Bits)
  | curve (points : Option (List CurvePoint))
  | detents (zones : List DetentZone)
  | filter (config : Option FilterConfig)

/-- An entry of the editor's diff. -/
inductive DiffChange
  | added (sectionName detail : String)
  | removed (sectionName detail : String)
  | modified (sectionName detail : String) (oldValue newValue : DiffValue)

/-- The editor's diff. -/
structure ProfileDiff where
  changes : List DiffChange

/-- The change of a field, unless its values are equal. -/
def diffField (sectionName detail : String) (same : Bool) (oldValue newValue : DiffValue) :
    List DiffChange :=
  if same then [] else [.modified sectionName detail oldValue newValue]

/-- The change of a part that both profiles may leave out; `text` is what is shown of it. -/
def diffOptional {α : Type} [DecidableEq α] (sectionName detail : String) (text : α → String)
    (base other : Option α) : List DiffChange :=
  if base ≠ other then
    match base, other with
    | none, some b => [.added sectionName (text b)]
    | some a, none => [.removed sectionName (text a)]
    | some a, some b => [.modified sectionName detail (.text (text a)) (.text (text b))]
    | none, none => []
  else []

/-- The differences of two axes. -/
def diffAxisConfig (axisName : String) (a b : AxisConfig) : List DiffChange :=
  let sectionName := "axes." ++ axisName
  diffField sectionName "deadzone" (optionEq Bits.eq a.deadzone b.deadzone)
      (.number a.deadzone) (.number b.deadzone) ++
    diffField sectionName "expo" (optionEq Bits.eq a.expo b.expo)
      (.number a.expo) (.number b.expo) ++
    diffField sectionName "slew_rate" (optionEq Bits.eq a.slewRate b.slewRate)
      (.number a.slewRate) (.number b.slewRate) ++
    diffField sectionName "curve" (optionEq (listEq CurvePoint.eq) a.curve b.curve)
      (.curve a.curve) (.curve b.curve) ++
    diffField sectionName "detents" (listEq DetentZone.eq a.detents b.detents)
      (.detents a.detents) (.detents b.detents) ++
    diffField sectionName "filter" (optionEq FilterConfig.eq a.filter b.filter)
      (.filter a.filter) (.filter b.filter)

/-- One turn of the loop over the axes. -/
def diffAxis (base other : HashMap String AxisConfig) (axisName : String) : List DiffChange :=
  match base.lookup axisName, other.lookup axisName with
  | none, some _ => [.added "axes" axisName]
  | some _, none => [.removed "axes" axisName]
  | some a, some b => if a.eq b then [] else diffAxisConfig axisName a b
  | none, none => []

/-- The names of the axes of both profiles, sorted and without duplicates. -/
def allAxes (base other : HashMap String AxisConfig) : List String :=
  (base.keys ∪ other.keys).sort (· ≤ ·)

/-- `ProfileDiff::compute`. -/
def ProfileDiff.compute (base other : Profile) : ProfileDiff where
  changes :=
    diffField "schema" "schema version" (base.schema == other.schema) (.text base.schema)
        (.text other.schema) ++
      diffOptional "sim" "simulator target" id base.sim other.sim ++
      diffOptional "aircraft" "aircraft ICAO" AircraftId.icao base.aircraft other.aircraft ++
      (allAxes base.axes other.axes).flatMap (diffAxis base.axes other.axes)

/-- `ProfileDiff::is_empty`. -/
def ProfileDiff.isEmpty (self : ProfileDiff) : Bool :=
  self.changes.isEmpty

end OpenFlight.Profiles
