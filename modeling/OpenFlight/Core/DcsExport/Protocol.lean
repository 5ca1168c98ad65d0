import OpenFlight.Core.Rules.Text
import OpenFlight.Lib.Overlay

/-!
# Telemetry Batches of DCS

The text that `Export.lua` sends: a header line, and lines of a key and a value. The
body goes through a hash map, so a later line of a key replaces an earlier one, and
the map is gone through in an order of its own, which comes in.

Numbers are double-precision. The two vectors are sorted by `partial_cmp`, where NaN
counts as equal to everything; with NaN among the values the source leaves the order
open.

## Main definitions

* `F64`, `parseF64`: Double-precision numbers, and `str::parse::<f64>`.
* `parseHeader`, `bodyEntries`, `applyEntry`: The header, the lines, and the turn of the
  loop for an entry.
-/

namespace OpenFlight.DcsExport

open Rules (Text trim lines takeSign parseNumber)

/-- A double-precision number: a rational, an infinity or NaN. -/
inductive F64
  | nan
  | negInf
  | posInf
  | fin (q : ℚ)
deriving DecidableEq

namespace F64

/-- `f64::is_finite`. -/
def isFinite : F64 → Bool
  | .fin _ => true
  | _ => false

/-- The value of a finite number; zero elsewhere, where nothing reads it. -/
def toRat : F64 → ℚ
  | .fin q => q
  | _ => 0

/-- `partial_cmp(a, b).unwrap_or(Ordering::Equal) != Ordering::Greater`. -/
def notAbove : F64 → F64 → Bool
  | .nan, _ => true
  | _, .nan => true
  | .negInf, _ => true
  | _, .posInf => true
  | .fin a, .fin b => decide (a ≤ b)
  | _, _ => false

/-- The exponent of the last place of a non-zero value: 53 significant bits,
    and nothing below the smallest subnormal. -/
def ulpExponent (q : ℚ) : ℤ :=
  max (Int.log 2 |q| - 52) (-1074)

/-- Rounding to the nearest representable value, overflowing to infinity. -/
def ofRat (q : ℚ) : F64 :=
  if q = 0 then .fin 0
  else
    let ulp : ℚ := 2 ^ ulpExponent q
    let rounded := F32.roundEven (q / ulp) * ulp
    if 2 ^ 1024 ≤ |rounded| then (if rounded < 0 then .negInf else .posInf)
    else .fin rounded

/-- `-a`. -/
def neg : F64 → F64
  | .nan => .nan
  | .negInf => .posInf
  | .posInf => .negInf
  | .fin q => .fin (-q)

end F64

/-- `str::to_ascii_lowercase`. -/
def toAsciiLowercase (s : Text) : Text :=
  s.map Char.toLower

/-- `str::parse::<f64>`. -/
def parseF64 (s : Text) : Option F64 :=
  let signed := takeSign s
  let lower := toAsciiLowercase signed.2
  let magnitude :=
    if lower = "inf".toList ∨ lower = "infinity".toList then some .posInf
    else if lower = "nan".toList then some .nan
    else (parseNumber signed.2).map F64.ofRat
  magnitude.map fun value => if signed.1 then value.neg else value

/-- Why a line or a batch is refused. -/
inductive ParseError
  | missingHeader
  | invalidHeader (text : Text)
  | invalidKeyValue (text : Text)
  | invalidNumeric (key raw : Text)
  | missingField (name : Text)
deriving DecidableEq

/-- A key with its value. -/
structure DcsExportEntry where
  key : Text
  value : Text
deriving DecidableEq

/-- A key and its value. -/
def parseExportLine (line : Text) : Except ParseError DcsExportEntry :=
  let line := trim ((splitAll "--".toList line).headD [])
  if line.isEmpty then .error (.invalidKeyValue "empty line".toList)
  else match splitOnce ['='] line with
    | none => .error (.invalidKeyValue line)
    | some (key, value) =>
        if (trim key).isEmpty then .error (.invalidKeyValue line)
        else .ok ⟨trim key, trim value⟩

/-- A number; a dash or nothing is zero. -/
def parseIndicatorValue (raw : Text) : Except ParseError F64 :=
  let trimmed := trim raw
  if trimmed.isEmpty ∨ trimmed = "-".toList then .ok (.fin 0)
  else
    let lower := toAsciiLowercase trimmed
    if lower = "inf".toList ∨ lower = "1/0".toList then .ok .posInf
    else if lower = "-inf".toList ∨ lower = "-1/0".toList then .ok .negInf
    else if lower = "nan".toList ∨ lower = "0/0".toList then .ok .nan
    else match parseF64 trimmed with
      | some v => .ok v
      | none => .error (.invalidNumeric [] raw)

/-- The loop of `parse_comma_pairs`. -/
def readPairs (map : HashMap Text Text) : List Text → Except ParseError (HashMap Text Text)
  | [] => .ok map
  | part :: rest =>
      let part := trim part
      if part.isEmpty then readPairs map rest
      else match splitOnce ['='] part with
        | none => .error (.invalidHeader part)
        | some (k, v) => readPairs (map.insert (trim k) (trim v)) rest

/-- Pairs between commas. -/
def parseCommaPairs (s : Text) : Except ParseError (HashMap Text Text) :=
  readPairs ∅ (splitAll [','] s)

/-- `str::strip_prefix`. -/
def stripPrefix (start s : Text) : Option Text :=
  if start.isPrefixOf s then some (s.drop start.length) else none

/-- The first line of a batch. -/
structure Header where
  timestamp : F64
  modelTime : F64
  aircraftName : Text
deriving DecidableEq

/-- A field of the header. -/
def headerField (headerMap : HashMap Text Text) (name : Text) : Except ParseError Text :=
  match headerMap.lookup name with
  | none => .error (.missingField name)
  | some v => .ok v

/-- A number in the header. -/
def headerNumber (headerMap : HashMap Text Text) (name : Text) : Except ParseError F64 := do
  let v ← headerField headerMap name
  (parseIndicatorValue v).mapError fun _ => .invalidHeader v

/-- The part of `parse_telemetry_batch` that reads the header. -/
def parseHeader (lines : List Text) : Except ParseError Header :=
  match lines with
  | [] => .error .missingHeader
  | headerLine :: _ =>
      match stripPrefix "HEADER:".toList headerLine with
      | none => .error (.invalidHeader headerLine)
      | some body => do
          let headerMap ← parseCommaPairs body
          let timestamp ← headerNumber headerMap "timestamp".toList
          let modelTime ← headerNumber headerMap "model_time".toList
          let aircraftName ← headerField headerMap "aircraft".toList
          .ok ⟨timestamp, modelTime, aircraftName⟩

/-- The entries of the lines behind the header; a line that is no entry is passed over. -/
def bodyEntries (lines : List Text) : List DcsExportEntry :=
  lines.tail.filterMap fun line =>
    if (trim line).isEmpty then none else (parseExportLine (trim line)).toOption

/-- The map of the body, where the last entry of a key stays. -/
def rawMap (entries : List DcsExportEntry) : HashMap Text Text :=
  entries.foldl (fun map entry => map.insert entry.key entry.value) ∅

/-- The named values of a batch. -/
structure DcsFlightData where
  altitudeM : F64
  airspeedMs : F64
  headingDeg : F64
  pitchDeg : F64
  rollDeg : F64
  aoaDeg : F64
  gLoad : F64
  mach : F64
  verticalSpeedMs : F64
  engineRpmPercent : List F64
  fuelTotalKg : F64
  gearPosition : List F64

/-- `DcsFlightData::default`. -/
def DcsFlightData.default : DcsFlightData where
  altitudeM := .fin 0
  airspeedMs := .fin 0
  headingDeg := .fin 0
  pitchDeg := .fin 0
  rollDeg := .fin 0
  aoaDeg := .fin 0
  gLoad := .fin 1
  mach := .fin 0
  verticalSpeedMs := .fin 0
  engineRpmPercent := []
  fuelTotalKg := .fin 0
  gearPosition := []

/-- The assignment for a well-known key, if it is one of `FLIGHT_KEYS`. -/
def flightKey (key : Text) : Option (F64 → DcsFlightData → DcsFlightData) :=
  if key = "altitude_m".toList then some fun v d => { d with altitudeM := v }
  else if key = "airspeed_ms".toList then some fun v d => { d with airspeedMs := v }
  else if key = "heading_deg".toList then some fun v d => { d with headingDeg := v }
  else if key = "pitch_deg".toList then some fun v d => { d with pitchDeg := v }
  else if key = "roll_deg".toList then some fun v d => { d with rollDeg := v }
  else if key = "aoa_deg".toList then some fun v d => { d with aoaDeg := v }
  else if key = "g_load".toList then some fun v d => { d with gLoad := v }
  else if key = "mach".toList then some fun v d => { d with mach := v }
  else if key = "vertical_speed_ms".toList then some fun v d => { d with verticalSpeedMs := v }
  else if key = "fuel_total_kg".toList then some fun v d => { d with fuelTotalKg := v }
  else none

/-- What the keys of engines start with. -/
def enginePrefix : Text := "engine_rpm_".toList

/-- What the keys of the landing gear start with. -/
def gearPrefix : Text := "gear_".toList

/-- What the loop over the map builds. -/
structure Collected where
  flightData : DcsFlightData
  indicators : HashMap Text F64

/-- The turn of the loop for an entry of the map. A value that is not numeric is passed over. -/
def applyEntry (built : Collected) (entry : Sigma fun _ : Text => Text) : Collected :=
  match parseIndicatorValue entry.2 with
  | .error _ => built
  | .ok v =>
      if enginePrefix.isPrefixOf entry.1 then
        { built with
          flightData :=
            { built.flightData with
              engineRpmPercent := built.flightData.engineRpmPercent ++ [v] } }
      else if gearPrefix.isPrefixOf entry.1 then
        { built with
          flightData :=
            { built.flightData with gearPosition := built.flightData.gearPosition ++ [v] } }
      else match flightKey entry.1 with
        | some assign => { built with flightData := assign v built.flightData }
        | none => { built with indicators := built.indicators.insert entry.1 v }

/-- `sort_by(|a, b| a.partial_cmp(b).unwrap_or(Ordering::Equal))`. -/
def sortValues (values : List F64) : List F64 :=
  values.mergeSort F64.notAbove

/-- What a batch says. -/
structure DcsTelemetryPacket where
  timestamp : F64
  modelTime : F64
  aircraftName : Text
  indicators : HashMap Text F64
  flightData : DcsFlightData

/-- A batch. -/
def parseTelemetryBatch (order : Iteration Text Text) (data : Text) :
    Except ParseError DcsTelemetryPacket := do
  let header ← parseHeader (lines data)
  let raw := rawMap (bodyEntries (lines data))
  let built := (order.entries raw).foldl applyEntry
    { flightData := .default, indicators := ∅ }
  .ok
    { timestamp := header.timestamp
      modelTime := header.modelTime
      aircraftName := header.aircraftName
      indicators := built.indicators
      flightData :=
        { built.flightData with
          engineRpmPercent := sortValues built.flightData.engineRpmPercent
          gearPosition := sortValues built.flightData.gearPosition } }

end OpenFlight.DcsExport
