import OpenFlight.Core.Profile.Basic
import OpenFlight.Lib.Lowercase

/-!
# Aircraft Auto-Switch

The task that switches profiles when an aircraft is detected.

A detection loads the profiles of the hierarchy (global, simulator, aircraft),
merges and validates them, compiles the result and makes it active. What was
compiled is kept in a cache, under the identifier of the aircraft and for a
limited time. A forced switch is handled as a detection in the simulator
`unknown`, and the cache can be invalidated for one aircraft or as a whole.

Files that cannot be read, parsed or validated are skipped. The search paths
are indexed without a check, so a configuration with fewer than three makes the
task panic, and nothing is handled from then on.

Reading and parsing a file, the canonical form of a path, the hash of a profile
and lowercasing are parameters. Each request comes with the clock readings and
the orders of iteration of its handling. Times that are only stored or
reported, telemetry, and the metrics that do not depend on the cache or the
aircraft are left out.

## Main definitions

* `SimId`, `AircraftId`, `DetectedAircraft`: What is detected.
* `SwitchRequest`, `processSwitchRequest`, `autoSwitchStep`: The requests and
  their handling.
-/

namespace OpenFlight.Session

open Profiles (Profile ProfileError AxisConfig PofOverrides CapabilityContext Orders)

/-- The simulators. -/
inductive SimId
  | msfs
  | msfs2024
  | xPlane
  | dcs
  | aceCombat7
  | warThunder
  | eliteDangerous
  | ksp
  | wingman
  | il2
  | unknown
deriving DecidableEq

/-- An aircraft. -/
structure AircraftId where
  icao : String
  variant : Option String
deriving DecidableEq

/-- The name that is displayed. -/
def AircraftId.display (id : AircraftId) : String :=
  match id.variant with
  | some variant => id.icao ++ "-" ++ variant
  | none => id.icao

/-- An aircraft in a simulator. -/
structure DetectedAircraft where
  sim : SimId
  aircraftId : AircraftId
deriving DecidableEq

/-- The phases of flight. -/
inductive PhaseOfFlight
  | ground
  | taxi
  | takeoff
  | climb
  | cruise
  | descent
  | approach
  | landing
  | goAround
deriving DecidableEq

/-- The components of a path. -/
abbrev PathBuf := List String

/-- `Path::display`. -/
def displayPath (path : PathBuf) : String :=
  "/".intercalate path

/-- What loading may fail with. -/
inductive SessionError
  | profile (error : ProfileError)
  | autoSwitch (message : String)

/-- How handling a request can end early. -/
inductive Failure
  | error (e : SessionError)
  | panic

/-- The part of the configuration that switching reads. -/
structure AutoSwitchConfig where
  profilePaths : List PathBuf
  capabilityContext : CapabilityContext

/-- What the task takes from outside: files, a parser, a hash, lowercasing. -/
structure Environment where
  unicode : Lowercasing
  readToString : PathBuf → Except String String
  fromStr : String → Except String Profile
  canonicalize : PathBuf → Option PathBuf
  effectiveHash : Profile → String

/-- The orders of iteration of one handling: of the loops that load, one after
    the other, and of those that compile. -/
structure LoopOrders where
  loading : ℕ → Orders
  compiling : Orders

/-- A profile, and one for each phase of flight. -/
structure CompiledProfile where
  profile : Profile
  effectiveHash : String
  pofOverrides : HashMap PhaseOfFlight Profile

/-- `PhaseOfFlight::from_str`, without the text of its error. -/
def PhaseOfFlight.ofString (unicode : Lowercasing) (s : String) : Option PhaseOfFlight :=
  match unicode.lower s with
  | "ground" => some .ground
  | "taxi" => some .taxi
  | "takeoff" => some .takeoff
  | "climb" => some .climb
  | "cruise" => some .cruise
  | "descent" => some .descent
  | "approach" => some .approach
  | "landing" => some .landing
  | "goaround" => some .goAround
  | _ => none

section

variable (env : Environment)

/-- A file, read, parsed and validated. -/
def loadProfileFromPath (order : Orders) (basePath : PathBuf) (filename : String) :
    Except SessionError (Profile × PathBuf) :=
  let profilePath := basePath ++ [filename]
  match env.readToString profilePath with
  | .error e =>
      .error (.autoSwitch ("Failed to read profile " ++ displayPath profilePath ++ ": " ++ e))
  | .ok content =>
      match env.fromStr content with
      | .error e =>
          .error (.autoSwitch ("Failed to parse profile " ++ displayPath profilePath ++ ": " ++ e))
      | .ok profile =>
          match profile.validate order with
          | .error e => .error (.profile e)
          | .ok () => .ok (profile, (env.canonicalize profilePath).getD profilePath)

/-- The name of the file of a simulator. -/
def simName : SimId → String
  | .msfs => "msfs"
  | .msfs2024 => "msfs2024"
  | .xPlane => "xplane"
  | .dcs => "dcs"
  | .aceCombat7 => "ac7"
  | .warThunder => "warthunder"
  | .eliteDangerous => "elite"
  | .ksp => "ksp"
  | .wingman => "wingman"
  | .il2 => "il2"
  | .unknown => "unknown"

/-- The files for a simulator and an aircraft. -/
def loadProfileHierarchy (orders : ℕ → Orders) (config : AutoSwitchConfig) (aircraftId : AircraftId)
    (sim : SimId) : Except Failure (List (Profile × PathBuf)) :=
  match config.profilePaths with
  | globalPath :: simPath :: aircraftPath :: _ =>
      let profiles :=
        [loadProfileFromPath env (orders 0) globalPath "global.json",
          loadProfileFromPath env (orders 1) simPath (simName sim ++ ".json"),
          loadProfileFromPath env (orders 2) aircraftPath
            (env.unicode.lower aircraftId.icao ++ ".json")].filterMap Except.toOption
      if profiles.isEmpty then
        .error (.error (.autoSwitch ("No profiles found for aircraft: " ++ aircraftId.display)))
      else .ok profiles
  | _ => .error .panic

/-- The loop that merges the profiles, from the general to the specific. -/
def mergeProfiles (orders : ℕ → Orders) : Profile → List Profile → Except ProfileError Profile
  | merged, [] => .ok merged
  | merged, profile :: rest =>
      match merged.mergeWith (orders 0) profile with
      | .error e => .error e
      | .ok next => mergeProfiles (fun i => orders (i + 1)) next rest

/-- The hierarchy, merged and validated, and the files it comes from. -/
def loadMergedProfile (orders : ℕ → Orders) (config : AutoSwitchConfig) (aircraftId : AircraftId)
    (sim : SimId) : Except Failure (Profile × List PathBuf) :=
  match loadProfileHierarchy env orders config aircraftId sim with
  | .error e => .error e
  | .ok [] => .error .panic
  | .ok ((first, path) :: rest) =>
      match mergeProfiles (fun i => orders (i + 3)) first (rest.map Prod.fst) with
      | .error e => .error (.error (.profile e))
      | .ok merged =>
          match merged.validateWithCapabilities (orders 5) config.capabilityContext with
          | .error e => .error (.error (.profile e))
          | .ok () => .ok (merged, path :: rest.map Prod.snd)

/-- The profile of one phase. -/
def overrideProfile (order : Orders) (profile : Profile) (overrides : PofOverrides) : Profile :=
  { profile with
    pofOverrides := none
    axes := match overrides.axes with
      | some axes => overlayEntries Profiles.mergedConfig order.axes profile.axes axes
      | none => profile.axes }

/-- `compile_profile`. A phase with a name that is none is skipped. -/
def compileProfile (order : Orders) (profile : Profile) : CompiledProfile :=
  { profile := profile
    effectiveHash := env.effectiveHash profile
    pofOverrides := match profile.pofOverrides with
      | some overrides => insertPhases (order.phases.entries overrides)
      | none => ∅ }
where
  insertPhases (entries : List (Sigma fun _ : String => PofOverrides)) :
      HashMap PhaseOfFlight Profile :=
    entries.foldl (fun m entry => match PhaseOfFlight.ofString env.unicode entry.1 with
      | some pof => m.insert pof (overrideProfile order profile entry.2)
      | none => m) ∅

end

/-- A profile with what was compiled from it. -/
structure CachedProfile where
  baseProfile : Profile
  compiled : CompiledProfile
  source : List PathBuf

/-- What was compiled, and when. -/
structure ProfileCache where
  profiles : HashMap AircraftId CachedProfile
  cacheTimestamps : HashMap AircraftId Instant
  cacheTtl : Duration

namespace ProfileCache

/-- An empty cache whose entries live five minutes. -/
def new : ProfileCache :=
  { profiles := ∅
    cacheTimestamps := ∅
    cacheTtl := fromSecs 300 }

/-- The entry of an aircraft, while it is younger than the limit. -/
def live (cache : ProfileCache) (now : Instant) (aircraftId : AircraftId) : Option CachedProfile :=
  match cache.profiles.lookup aircraftId, cache.cacheTimestamps.lookup aircraftId with
  | some cached, some timestamp =>
      if durationSince now timestamp < cache.cacheTtl then some cached else none
  | _, _ => none

end ProfileCache

/-- The counts of the task. -/
structure SwitchMetrics where
  cacheHits : UInt64
  cacheMisses : UInt64
  committedSwitches : UInt64

/-- What is active. -/
structure AutoSwitchState where
  currentAircraft : Option DetectedAircraft
  currentProfile : Option CompiledProfile
  metrics : SwitchMetrics

/-- No aircraft yet. -/
def AutoSwitchState.new : AutoSwitchState :=
  { currentAircraft := none
    currentProfile := none
    metrics := ⟨0, 0, 0⟩ }

/-- What a switch returns. -/
structure SwitchResult where
  success : Bool
  oldAircraft : Option AircraftId
  newAircraft : AircraftId
  profileHash : String
  pofChanged : Bool

/-- The task, with what it keeps. -/
structure AutoSwitch where
  state : AutoSwitchState
  profileCache : ProfileCache
  /-- The task handles requests, and has not panicked. -/
  running : Bool

/-- A task that is running. -/
def AutoSwitch.new : AutoSwitch :=
  { state := .new
    profileCache := .new
    running := true }

section

variable (env : Environment) (config : AutoSwitchConfig)

/-- `load_and_compile_profile`: the profile, whether the cache had it, and the cache afterwards. -/
def loadAndCompileProfile (clk : Readings) (orders : LoopOrders) (cache : ProfileCache)
    (aircraftId : AircraftId) (sim : SimId) :
    Except Failure (CompiledProfile × Bool × ProfileCache) :=
  match cache.live (clk 0) aircraftId with
  | some cached => .ok (cached.compiled, true, cache)
  | none =>
      match loadMergedProfile env orders.loading config aircraftId sim with
      | .error e => .error e
      | .ok (merged, sources) =>
          let compiled := compileProfile env orders.compiling merged
          .ok (compiled, false,
            { cache with
              profiles := cache.profiles.insert aircraftId ⟨compiled.profile, compiled, sources⟩
              cacheTimestamps := cache.cacheTimestamps.insert aircraftId (clk 1) })

/-- What handling a request leaves, and what it returns. -/
abbrev Handled := AutoSwitch × Except Failure (Option SwitchResult)

/-- The state after a switch. -/
def switchTo (s : AutoSwitchState) (aircraft : DetectedAircraft) (compiled : CompiledProfile)
    (cacheHit : Bool) : AutoSwitchState :=
  { currentAircraft := some aircraft
    currentProfile := some compiled
    metrics :=
      { cacheHits := if cacheHit then s.metrics.cacheHits + 1 else s.metrics.cacheHits
        cacheMisses := if cacheHit then s.metrics.cacheMisses else s.metrics.cacheMisses + 1
        -- An overflow resets the counter, which is what wrapping does.
        committedSwitches :=
          if s.currentAircraft.map DetectedAircraft.aircraftId ≠ some aircraft.aircraftId then
            s.metrics.committedSwitches + 1
          else s.metrics.committedSwitches } }

/-- A detection: from the cache, or from files. -/
def handleAircraftDetection (clk : Readings) (orders : LoopOrders) (s : AutoSwitch)
    (aircraft : DetectedAircraft) : Handled :=
  if s.state.currentAircraft = some aircraft then (s, .ok none)
  else match loadAndCompileProfile env config clk orders s.profileCache aircraft.aircraftId
      aircraft.sim with
    | .error .panic => ({ s with running := false }, .error .panic)
    | .error e => (s, .error e)
    | .ok (compiled, cacheHit, cache) =>
        ({ s with
            state := switchTo s.state aircraft compiled cacheHit
            profileCache := cache },
          .ok (some
            { success := true
              oldAircraft := s.state.currentAircraft.map DetectedAircraft.aircraftId
              newAircraft := aircraft.aircraftId
              profileHash := compiled.effectiveHash
              pofChanged := false }))

/-- The same, in no known simulator. -/
def handleForceSwitch (clk : Readings) (orders : LoopOrders) (s : AutoSwitch)
    (aircraftId : AircraftId) : Handled :=
  handleAircraftDetection env config clk orders s ⟨.unknown, aircraftId⟩

/-- Entries leave the cache. -/
def handleCacheInvalidation (s : AutoSwitch) (aircraftId : Option AircraftId) : Handled :=
  let cache := match aircraftId with
    | some id =>
        { s.profileCache with
          profiles := s.profileCache.profiles.erase id
          cacheTimestamps := s.profileCache.cacheTimestamps.erase id }
    | none => { s.profileCache with profiles := ∅, cacheTimestamps := ∅ }
  ({ s with profileCache := cache }, .ok none)

end

/-- What the task is asked for. -/
inductive SwitchRequest
  | aircraftDetected (aircraft : DetectedAircraft)
  | forceSwitch (aircraftId : AircraftId)
  | invalidateCache (aircraftId : Option AircraftId)

/-- A request with the clock readings and the orders of its handling. -/
structure RequestInput where
  request : SwitchRequest
  clk : Readings
  orders : LoopOrders

section

variable (env : Environment) (config : AutoSwitchConfig)

/-- One request to the task. -/
def processSwitchRequest (s : AutoSwitch) (input : RequestInput) : Handled :=
  match input.request with
  | .aircraftDetected aircraft =>
      handleAircraftDetection env config input.clk input.orders s aircraft
  | .forceSwitch aircraftId => handleForceSwitch env config input.clk input.orders s aircraftId
  | .invalidateCache aircraftId => handleCacheInvalidation s aircraftId

/-- One turn of the loop of the task. -/
def autoSwitchStep (s : AutoSwitch) (input : RequestInput) : AutoSwitch :=
  if s.running then (processSwitchRequest env config s input).1 else s

end

end OpenFlight.Session
