import OpenFlight.Core.Session.AutoSwitch
import OpenFlight.Lib.Run
import OpenFlight.Theory.Profile.Validity

/-!
# When the Profile Cache Is Transparent

When the profile that a detection makes active is the one that loading for
exactly that simulator and aircraft gives, whatever happened before.

The cache is keyed by the aircraft alone, and what is loaded depends on the
simulator too. So the run is recorded: beside the task stands, for each aircraft,
the simulator of the request that last loaded files for it (`Tracked`). A live
entry serves a detection exactly if it was loaded for the detected simulator, or
for one whose files merge to the same profile (`ServedRight`).

What the files merge to does not depend on the orders in which hash maps are
iterated, since neither merging nor the outcome of validation does. The order
may show in a compiled profile, when two names stand for the same phase of
flight. So loading may have several results, and `Fresh` is one of them.

## Main definitions

* `Fresh`: A result of loading with an empty cache.
* `Tracked`, `trackedStep`: The task, and for which simulators it has loaded.

## Theorems

* `cache_transparent_iff`: The same along a run.
* `cache_not_transparent`: A run that moves an aircraft to another simulator.
-/

namespace OpenFlight.Session

open Profiles (Profile Orders)

/-- An entry that is live is in the map. -/
theorem lookup_of_live (cache : ProfileCache) (now : Instant) (id : AircraftId)
    (cached : CachedProfile) (h : cache.live now id = some cached) :
    cache.profiles.lookup id = some cached := by
  unfold ProfileCache.live at h
  split at h
  · rename_i other timestamp hprofile _
    split at h
    · rw [hprofile, h]
    · exact absurd h (by simp)
  · exact absurd h (by simp)

theorem live_new (now : Instant) (id : AircraftId) : ProfileCache.new.live now id = none := rfl

/-- The aircraft that a request asks for; a forced switch names no simulator. -/
def SwitchRequest.aircraft : SwitchRequest → Option DetectedAircraft
  | .aircraftDetected aircraft => some aircraft
  | .forceSwitch aircraftId => some ⟨.unknown, aircraftId⟩
  | .invalidateCache _ => none

variable (env : Environment) (config : AutoSwitchConfig)

/-- A result of loading, merging and compiling for exactly this simulator and
    aircraft, with an empty cache. -/
def Fresh (aircraft : DetectedAircraft) (compiled : CompiledProfile) : Prop :=
  ∃ clk orders cache,
    loadAndCompileProfile env config clk orders .new aircraft.aircraftId aircraft.sim =
      .ok (compiled, false, cache)

/-- What a detection makes active is a result of loading for it. -/
def Transparent (s : AutoSwitch) (input : RequestInput) : Prop :=
  match input.request with
  | .aircraftDetected aircraft =>
      s.running = true → ∀ result,
        (processSwitchRequest env config s input).2 = .ok (some result) →
          ∃ compiled,
            (processSwitchRequest env config s input).1.state.currentProfile = some compiled ∧
              Fresh env config aircraft compiled
  | _ => True

/-- The files for a simulator and an aircraft merge to the profile. -/
def MergesTo (aircraft : DetectedAircraft) (profile : Profile) : Prop :=
  ∃ orders sources, loadMergedProfile env orders config aircraft.aircraftId aircraft.sim =
    .ok (profile, sources)

/-- The files for two detections merge to the same profile. -/
def MergeAlike (a b : DetectedAircraft) : Prop :=
  ∃ profile, MergesTo env config a profile ∧ MergesTo env config b profile

/-- A request for an aircraft loads files: the task runs and is not on the aircraft
    already, the cache has no live entry, and there are files that can be merged. -/
def loads (s : AutoSwitch) (input : RequestInput) (aircraft : DetectedAircraft) : Bool :=
  s.running && decide (s.state.currentAircraft ≠ some aircraft) &&
    (s.profileCache.live (input.clk 0) aircraft.aircraftId).isNone &&
    (loadMergedProfile env input.orders.loading config aircraft.aircraftId aircraft.sim).isOk

/-- The task, with the simulator that files were last loaded for, for each aircraft. -/
structure Tracked where
  task : AutoSwitch
  loadedFor : AircraftId → Option SimId

def Tracked.new : Tracked :=
  { task := .new, loadedFor := fun _ => none }

def trackedStep (s : Tracked) (input : RequestInput) : Tracked where
  task := autoSwitchStep env config s.task input
  loadedFor id :=
    match input.request.aircraft with
    | some aircraft =>
        if loads env config s.task input aircraft = true ∧ aircraft.aircraftId = id then
          some aircraft.sim
        else s.loadedFor id
    | none => s.loadedFor id

/-- A detection that is not ignored finds no live entry, or one that was loaded for
    its simulator, or for another one whose files merge to the same profile. -/
def ServedRight (s : Tracked) (input : RequestInput) : Prop :=
  match input.request with
  | .aircraftDetected aircraft =>
      s.task.running = true → s.task.state.currentAircraft ≠ some aircraft →
      (s.task.profileCache.live (input.clk 0) aircraft.aircraftId).isSome →
        ∃ sim, s.loadedFor aircraft.aircraftId = some sim ∧
          (sim = aircraft.sim ∨ MergeAlike env config ⟨sim, aircraft.aircraftId⟩ aircraft)
  | _ => True

/-- An entry was compiled from its base profile. -/
def Compiled (cached : CachedProfile) : Prop :=
  ∃ order, cached.compiled = compileProfile env order cached.baseProfile

/-- Every entry was compiled, from what the files for its aircraft merge to in the
    simulator that they were loaded for. -/
def Tracked.Sound (s : Tracked) : Prop :=
  ∀ id cached, s.task.profileCache.profiles.lookup id = some cached →
    Compiled env cached ∧
      ∃ sim, s.loadedFor id = some sim ∧ MergesTo env config ⟨sim, id⟩ cached.baseProfile

section

variable (order order' : Orders)

theorem mergeWith_order (a b : Profile) : a.mergeWith order b = a.mergeWith order' b := by
  rw [Profiles.mergeWith_eq, Profiles.mergeWith_eq, Profiles.mergedPof_order order order',
    overlayEntries_order order.axes order'.axes]

theorem validate_order {profile : Profile} {context : Profiles.CapabilityContext}
    (h : profile.validateWithCapabilities order context = .ok ()) :
    profile.validateWithCapabilities order' context = .ok () := by
  rw [Profiles.validate_ok_iff] at h ⊢
  exact h

theorem mergeProfiles_order (orders orders' : ℕ → Orders) (merged : Profile)
    (profiles : List Profile) :
    mergeProfiles orders merged profiles = mergeProfiles orders' merged profiles := by
  induction profiles generalizing orders orders' merged with
  | nil => rfl
  | cons profile rest ih =>
      rw [mergeProfiles, mergeProfiles, mergeWith_order (orders 0) (orders' 0)]
      cases merged.mergeWith (orders' 0) profile with
      | error e => rfl
      | ok next => exact ih _ _ next

theorem loadProfileFromPath_order (basePath : PathBuf) (filename : String) :
    (loadProfileFromPath env order basePath filename).toOption =
      (loadProfileFromPath env order' basePath filename).toOption := by
  unfold loadProfileFromPath
  dsimp only
  cases env.readToString (basePath ++ [filename]) with
  | error e => rfl
  | ok content =>
      dsimp only
      cases env.fromStr content with
      | error e => rfl
      | ok profile =>
          dsimp only
          cases hvalid : profile.validate order with
          | ok valid =>
              have hvalid' : profile.validate order' = .ok () := validate_order order order' hvalid
              rw [hvalid']
          | error e =>
              cases hvalid' : profile.validate order' with
              | error e' => rfl
              | ok valid =>
                  rw [Profile.validate, validate_order order' order hvalid'] at hvalid
                  cases hvalid

end

/-- What is loaded does not depend on the orders of iteration. -/
theorem loadMergedProfile_order (orders orders' : ℕ → Orders) {id : AircraftId} {sim : SimId}
    {loaded : Profile × List PathBuf}
    (h : loadMergedProfile env orders config id sim = .ok loaded) :
    loadMergedProfile env orders' config id sim = .ok loaded := by
  have hhierarchy : loadProfileHierarchy env orders' config id sim =
      loadProfileHierarchy env orders config id sim := by
    have hpath := fun i => loadProfileFromPath_order env (orders' i) (orders i)
    unfold loadProfileHierarchy
    rcases config.profilePaths with _ | ⟨globalPath, _ | ⟨simPath, _ | ⟨aircraftPath, more⟩⟩⟩
    · rfl
    · rfl
    · rfl
    · simp only [List.filterMap_cons, List.filterMap_nil, hpath]
      rfl
  unfold loadMergedProfile at h ⊢
  rw [hhierarchy]
  cases hprofiles : loadProfileHierarchy env orders config id sim with
  | error e =>
      rw [hprofiles] at h
      cases h
  | ok profiles =>
      rw [hprofiles] at h
      cases profiles with
      | nil => cases h
      | cons first rest =>
          dsimp only at h ⊢
          rw [mergeProfiles_order (fun i => orders' (i + 3)) (fun i => orders (i + 3))]
          cases hmerged : mergeProfiles (fun i => orders (i + 3)) first.1 (rest.map Prod.fst) with
          | error e =>
              rw [hmerged] at h
              cases h
          | ok merged =>
              rw [hmerged] at h
              dsimp only at h ⊢
              cases hvalid : merged.validateWithCapabilities (orders 5)
                  config.capabilityContext with
              | error e =>
                  rw [hvalid] at h
                  cases h
              | ok valid =>
                  rw [hvalid] at h
                  rw [validate_order (orders 5) (orders' 5) hvalid]
                  exact h

/-- The files for a simulator and an aircraft merge to one profile at most. -/
theorem mergesTo_unique {aircraft : DetectedAircraft} {p q : Profile}
    (hp : MergesTo env config aircraft p) (hq : MergesTo env config aircraft q) : p = q := by
  rcases hp with ⟨orders, sources, hp⟩
  rcases hq with ⟨orders', sources', hq⟩
  rw [loadMergedProfile_order env config orders orders' hp, Except.ok.injEq] at hq
  exact congrArg Prod.fst hq

section

variable (clk : Readings) (orders : LoopOrders) (cache : ProfileCache)
variable (aircraft : DetectedAircraft)

theorem loadAndCompileProfile_hit (cached : CachedProfile)
    (h : cache.live (clk 0) aircraft.aircraftId = some cached) :
    loadAndCompileProfile env config clk orders cache aircraft.aircraftId aircraft.sim =
      .ok (cached.compiled, true, cache) := by
  rw [loadAndCompileProfile, h]

theorem loadAndCompileProfile_load (h : cache.live (clk 0) aircraft.aircraftId = none)
    (merged : Profile) (sources : List PathBuf)
    (hmerged : loadMergedProfile env orders.loading config aircraft.aircraftId aircraft.sim =
      .ok (merged, sources)) :
    loadAndCompileProfile env config clk orders cache aircraft.aircraftId aircraft.sim =
      .ok (compileProfile env orders.compiling merged, false,
        { cache with
          profiles := cache.profiles.insert aircraft.aircraftId
            ⟨merged, compileProfile env orders.compiling merged, sources⟩
          cacheTimestamps := cache.cacheTimestamps.insert aircraft.aircraftId (clk 1) }) := by
  rw [loadAndCompileProfile, h]
  dsimp only
  rw [hmerged]
  rfl

/-- Without a live entry, what is loaded comes from the files. -/
theorem loadAndCompileProfile_miss (h : cache.live (clk 0) aircraft.aircraftId = none)
    (compiled : CompiledProfile) (cacheHit : Bool) (cache' : ProfileCache)
    (hload : loadAndCompileProfile env config clk orders cache aircraft.aircraftId aircraft.sim =
      .ok (compiled, cacheHit, cache')) :
    ∃ merged sources,
      loadMergedProfile env orders.loading config aircraft.aircraftId aircraft.sim =
        .ok (merged, sources) ∧
      compiled = compileProfile env orders.compiling merged ∧ cacheHit = false ∧
      cache'.profiles = cache.profiles.insert aircraft.aircraftId ⟨merged, compiled, sources⟩ := by
  rw [loadAndCompileProfile, h] at hload
  dsimp only at hload
  split at hload
  · exact absurd hload (by simp)
  · rename_i merged sources hmerged
    rw [Except.ok.injEq, Prod.mk.injEq, Prod.mk.injEq] at hload
    rcases hload with ⟨rfl, rfl, rfl⟩
    exact ⟨merged, sources, hmerged, rfl, rfl, rfl⟩

/-- Loading with an empty cache. -/
theorem fresh_iff (compiled : CompiledProfile) : Fresh env config aircraft compiled ↔
      ∃ merged order, MergesTo env config aircraft merged ∧
        compiled = compileProfile env order merged := by
  constructor
  · rintro ⟨clk, orders, cache, hload⟩
    -- A new cache has no entry, so the profile is loaded.
    rcases loadAndCompileProfile_miss env config clk orders .new aircraft (live_new _ _) _ _ _
      hload with ⟨merged, sources, hmerged, hcompiled, -, -⟩
    exact ⟨merged, orders.compiling, ⟨orders.loading, sources, hmerged⟩, hcompiled⟩
  · rintro ⟨merged, order, ⟨loading, sources, hmerged⟩, rfl⟩
    exact ⟨fun _ => 0, ⟨loading, order⟩, _, loadAndCompileProfile_load env config (fun _ => 0)
      ⟨loading, order⟩ .new aircraft (live_new _ _) merged sources hmerged⟩

/-- An entry serves a detection exactly if the files for it merge to the
    profile that the entry comes from. -/
theorem fresh_compiled_iff (cached : CachedProfile) (h : Compiled env cached) :
    Fresh env config aircraft cached.compiled ↔
      MergesTo env config aircraft cached.baseProfile := by
  rcases h with ⟨order, hcompiled⟩
  rw [fresh_iff]
  constructor
  · rintro ⟨merged, order', hmerges, heq⟩
    -- A compiled profile has the profile it comes from in one of its fields.
    have hbase : cached.baseProfile = merged :=
      congrArg CompiledProfile.profile (hcompiled.symm.trans heq)
    rw [hbase]
    exact hmerges
  · exact fun hmerges => ⟨cached.baseProfile, order, hmerges, hcompiled⟩

end

section

variable (clk : Readings) (orders : LoopOrders) (s : AutoSwitch) (aircraft : DetectedAircraft)

/-- A detection that is not ignored makes active what was loaded. -/
theorem handleAircraftDetection_ok (hnew : s.state.currentAircraft ≠ some aircraft)
    (compiled : CompiledProfile) (cacheHit : Bool) (cache : ProfileCache)
    (hload : loadAndCompileProfile env config clk orders s.profileCache aircraft.aircraftId
      aircraft.sim = .ok (compiled, cacheHit, cache)) :
    handleAircraftDetection env config clk orders s aircraft =
      ({ s with
          state := switchTo s.state aircraft compiled cacheHit
          profileCache := cache },
        .ok (some
          { success := true
            oldAircraft := s.state.currentAircraft.map DetectedAircraft.aircraftId
            newAircraft := aircraft.aircraftId
            profileHash := compiled.effectiveHash
            pofChanged := false })) := by
  rw [handleAircraftDetection, if_neg hnew, hload]

/-- The entries after a request that names an aircraft: the one for the aircraft is made
    by it if it loads files, and all others were there before. -/
theorem handleAircraftDetection_lookup (input : RequestInput) (hrunning : s.running = true)
    (id : AircraftId) (cached : CachedProfile)
    (h : (handleAircraftDetection env config input.clk input.orders s
      aircraft).1.profileCache.profiles.lookup id = some cached) :
    if loads env config s input aircraft = true ∧ aircraft.aircraftId = id then
      Compiled env cached ∧ MergesTo env config aircraft cached.baseProfile
    else s.profileCache.profiles.lookup id = some cached := by
  unfold handleAircraftDetection at h
  by_cases hnew : s.state.currentAircraft = some aircraft
  · rw [if_pos hnew] at h
    rw [if_neg (by simp [loads, hnew])]
    exact h
  rw [if_neg hnew] at h
  cases hlive : s.profileCache.live (input.clk 0) aircraft.aircraftId with
  | some live =>
      rw [loadAndCompileProfile_hit env config _ _ _ aircraft live hlive] at h
      rw [if_neg (by simp [loads, hlive])]
      exact h
  | none =>
      cases hmerged : loadMergedProfile env input.orders.loading config aircraft.aircraftId
          aircraft.sim with
      | error e =>
          rw [if_neg (by simp [loads, hmerged, Except.isOk, Except.toBool])]
          rw [loadAndCompileProfile, hlive] at h
          dsimp only at h
          rw [hmerged] at h
          cases e with
          | error e => exact h
          | panic => exact h
      | ok merged =>
          have hloads : loads env config s input aircraft = true := by
            simp [loads, hrunning, hnew, hlive, hmerged, Except.isOk, Except.toBool]
          rw [loadAndCompileProfile_load env config _ _ _ aircraft hlive merged.1 merged.2
            hmerged] at h
          dsimp only at h
          by_cases hid : aircraft.aircraftId = id
          · -- The entry of this aircraft is the one that was made.
            subst hid
            rw [Finmap.lookup_insert, Option.some_inj] at h
            rw [if_pos ⟨hloads, rfl⟩, ← h]
            exact ⟨⟨input.orders.compiling, rfl⟩, input.orders.loading, merged.2, hmerged⟩
          · rw [Finmap.lookup_insert_of_ne _ (Ne.symm hid)] at h
            rw [if_neg fun hboth => hid hboth.2]
            exact h

/-- Invalidating takes entries away. -/
theorem handleCacheInvalidation_lookup (aircraftId : Option AircraftId) (id : AircraftId)
    (cached : CachedProfile)
    (h : (handleCacheInvalidation s aircraftId).1.profileCache.profiles.lookup id = some cached) :
    s.profileCache.profiles.lookup id = some cached := by
  cases aircraftId with
  | none => exact absurd h (by simp [handleCacheInvalidation])
  | some other =>
      by_cases hid : id = other
      · subst hid
        exact absurd h (by simp [handleCacheInvalidation])
      · simpa [handleCacheInvalidation, Finmap.lookup_erase_ne hid] using h

/-- What every step keeps of the entries. -/
theorem trackedStep_sound (s : Tracked) (input : RequestInput) (h : s.Sound env config) :
    (trackedStep env config s input).Sound env config := by
  intro id cached hlookup
  -- An entry that is made is recorded with its simulator, and another one is as before.
  have hnamed : ∀ aircraft, input.request.aircraft = some aircraft →
      (autoSwitchStep env config s.task input =
        if s.task.running then
          (handleAircraftDetection env config input.clk input.orders s.task aircraft).1
        else s.task) →
      Compiled env cached ∧ ∃ sim, (trackedStep env config s input).loadedFor id = some sim ∧
        MergesTo env config ⟨sim, id⟩ cached.baseProfile := by
    intro aircraft haircraft hstep
    simp only [trackedStep, haircraft]
    rw [trackedStep, hstep] at hlookup
    by_cases hrunning : s.task.running = true
    · rw [if_pos hrunning] at hlookup
      have hentry := handleAircraftDetection_lookup env config s.task aircraft input hrunning id
        cached hlookup
      split_ifs at hentry ⊢ with hmade
      · rcases hmade with ⟨-, rfl⟩
        exact ⟨hentry.1, aircraft.sim, rfl, hentry.2⟩
      · exact h id cached hentry
    · rw [if_neg hrunning] at hlookup
      rw [if_neg (by simp [loads, hrunning])]
      exact h id cached hlookup
  cases hrequest : input.request with
  | aircraftDetected aircraft =>
      refine hnamed aircraft (by rw [hrequest]; rfl) ?_
      rw [autoSwitchStep, processSwitchRequest, hrequest]
  | forceSwitch aircraftId =>
      refine hnamed ⟨.unknown, aircraftId⟩ (by rw [hrequest]; rfl) ?_
      rw [autoSwitchStep, processSwitchRequest, hrequest]
      rfl
  | invalidateCache aircraftId =>
      simp only [trackedStep, hrequest, SwitchRequest.aircraft]
      refine h id cached ?_
      simp only [trackedStep, autoSwitchStep, processSwitchRequest, hrequest] at hlookup
      split_ifs at hlookup
      · exact handleCacheInvalidation_lookup s.task aircraftId id cached hlookup
      · exact hlookup

theorem detection_fresh_iff
    (h : ∀ id cached, s.profileCache.profiles.lookup id = some cached → Compiled env cached)
    (hnew : s.state.currentAircraft ≠ some aircraft) :
    (∀ result, (handleAircraftDetection env config clk orders s aircraft).2 = .ok (some result) →
      ∃ compiled,
        (handleAircraftDetection env config clk orders s aircraft).1.state.currentProfile =
          some compiled ∧ Fresh env config aircraft compiled) ↔
      ∀ cached, s.profileCache.live (clk 0) aircraft.aircraftId = some cached →
        MergesTo env config aircraft cached.baseProfile := by
  unfold handleAircraftDetection
  rw [if_neg hnew]
  cases hlive : s.profileCache.live (clk 0) aircraft.aircraftId with
  | some cached =>
      rw [loadAndCompileProfile_hit env config clk orders _ aircraft cached hlive]
      have hentry := h _ cached (lookup_of_live _ _ _ cached hlive)
      -- The entry itself is made active, so all depends on where it comes from.
      simp [switchTo, fresh_compiled_iff env config aircraft cached hentry]
  | none =>
      -- What is loaded now is fresh.
      refine iff_of_true (fun result hresult => ?_) fun cached hsome => absurd hsome (by simp)
      split at hresult
      · exact absurd hresult (by simp)
      · exact absurd hresult (by simp)
      · rename_i compiled cacheHit cache hload
        rcases loadAndCompileProfile_miss env config clk orders _ aircraft hlive _ _ _ hload with
          ⟨merged, sources, hmerged, hcompiled, -, -⟩
        refine ⟨compiled, ?_, (fresh_iff env config aircraft compiled).mpr
          ⟨merged, _, ⟨_, _, hmerged⟩, hcompiled⟩⟩
        rfl

/-- A live entry comes from the files for a detection exactly if it was loaded for its
    simulator, or for one whose files merge alike. -/
theorem live_mergesTo_iff (s : Tracked) (h : s.Sound env config) (now : Instant) :
    (∀ cached, s.task.profileCache.live now aircraft.aircraftId = some cached →
      MergesTo env config aircraft cached.baseProfile) ↔
    ((s.task.profileCache.live now aircraft.aircraftId).isSome →
      ∃ sim, s.loadedFor aircraft.aircraftId = some sim ∧
        (sim = aircraft.sim ∨ MergeAlike env config ⟨sim, aircraft.aircraftId⟩ aircraft)) := by
  cases hlive : s.task.profileCache.live now aircraft.aircraftId with
  | none => simp
  | some cached =>
      rcases h _ cached (lookup_of_live _ _ _ cached hlive) with ⟨-, sim, hloaded, hbase⟩
      constructor
      · intro hmerges _
        exact ⟨sim, hloaded, Or.inr ⟨cached.baseProfile, hbase, hmerges cached rfl⟩⟩
      · intro hserved other hother
        rw [← Option.some.inj hother]
        rcases hserved rfl with ⟨sim', hloaded', hsim⟩
        rw [hloaded, Option.some_inj] at hloaded'
        subst hloaded'
        rcases hsim with rfl | ⟨profile, hprofile, hmerges⟩
        · exact hbase
        · rw [mergesTo_unique env config hbase hprofile]
          exact hmerges

/-- A request makes active what it should exactly under the guard. -/
theorem transparent_iff_servedRight (s : Tracked) (input : RequestInput) (h : s.Sound env config) :
    Transparent env config s.task input ↔ ServedRight env config s input := by
  unfold Transparent ServedRight processSwitchRequest
  cases input.request with
  | forceSwitch aircraftId => exact Iff.rfl
  | invalidateCache aircraftId => exact Iff.rfl
  | aircraftDetected aircraft =>
      by_cases hnew : s.task.state.currentAircraft = some aircraft
      · -- The detection is ignored, and makes nothing active.
        refine iff_of_true (fun _ result hresult => ?_) fun _ hne => absurd hnew hne
        dsimp only at hresult
        rw [handleAircraftDetection, if_pos hnew] at hresult
        exact absurd hresult (by simp)
      · have hiff := detection_fresh_iff env config input.clk input.orders s.task aircraft
          (fun id cached hlookup => (h id cached hlookup).1) hnew
        rw [live_mergesTo_iff env config aircraft s h] at hiff
        exact ⟨fun htransparent hrunning _ => hiff.mp (htransparent hrunning),
          fun hserved hrunning => hiff.mpr (hserved hrunning hnew)⟩

end

theorem sound_new : Tracked.new.Sound env config :=
  fun _ _ h => absurd h (by simp [Tracked.new, AutoSwitch.new, ProfileCache.new])

/-- For every sequence of detections, forced switches and invalidations, what each detection makes
    active is the result of loading for exactly its simulator and aircraft, exactly if the live
    entry that a detection finds was always loaded for its simulator, or for another one whose
    files merge to the same profile. -/
theorem cache_transparent_iff (inputs : List RequestInput) :
    StepsMeet (autoSwitchStep env config) (Transparent env config) .new inputs ↔
      StepsMeet (trackedStep env config) (ServedRight env config) .new inputs := by
  rw [← stepsMeet_congr (trackedStep env config) (Tracked.Sound env config) _ _
    (fun s input => trackedStep_sound env config s input)
    (fun s input => transparent_iff_servedRight env config s input) .new inputs
    (sound_new env config)]
  exact (stepsMeet_view (autoSwitchStep env config) (trackedStep env config) Tracked.task
    (fun _ _ => rfl) (Transparent env config) .new inputs).symm

/-- So it is in every run that names each aircraft with one simulator. -/
theorem cache_transparent_of_oneSim (sims : AircraftId → SimId) (inputs : List RequestInput)
    (hsims : ∀ input ∈ inputs, ∀ aircraft, input.request.aircraft = some aircraft →
      aircraft.sim = sims aircraft.aircraftId) :
    StepsMeet (autoSwitchStep env config) (Transparent env config) .new inputs := by
  refine (stepsMeet_view (autoSwitchStep env config) (trackedStep env config) Tracked.task
    (fun _ _ => rfl) (Transparent env config) .new inputs).mp ?_
  refine stepsMeet_of_mem (trackedStep env config)
    (fun s => s.Sound env config ∧ ∀ id sim, s.loadedFor id = some sim → sim = sims id)
    _ inputs ?_ .new ⟨sound_new env config, fun _ _ h => absurd h (by simp [Tracked.new])⟩
  rintro input hinput s ⟨hsound, hloaded⟩
  refine ⟨(transparent_iff_servedRight env config s input hsound).mpr ?_,
    trackedStep_sound env config s input hsound, ?_⟩
  · unfold ServedRight
    cases hrequest : input.request with
    | forceSwitch aircraftId => trivial
    | invalidateCache aircraftId => trivial
    | aircraftDetected aircraft =>
        intro _ _ hlive
        rcases Option.isSome_iff_exists.mp hlive with ⟨cached, hcached⟩
        rcases hsound _ cached (lookup_of_live _ _ _ cached hcached) with ⟨-, sim, hsim, -⟩
        refine ⟨sim, hsim, Or.inl ?_⟩
        rw [hloaded _ sim hsim, hsims input hinput aircraft (by rw [hrequest]; rfl)]
  · intro id sim hsim
    rw [trackedStep] at hsim
    cases haircraft : input.request.aircraft with
    | none =>
        rw [haircraft] at hsim
        exact hloaded id sim hsim
    | some aircraft =>
        rw [haircraft] at hsim
        dsimp only at hsim
        split_ifs at hsim with hmade
        · rw [← Option.some.inj hsim, ← hmade.2]
          exact hsims input hinput aircraft haircraft
        · exact hloaded id sim hsim

/-- A profile that says which simulator it is for. -/
def simProfile (sim : SimId) : Profile :=
  { schema := Profiles.profileSchemaVersion
    sim := some (simName sim)
    aircraft := none
    axes := ∅
    pofOverrides := none }

/-- A profile for each simulator, and none for all of them or for an aircraft. -/
def simFiles : Environment where
  unicode := .ascii
  readToString path := match path with
    | ["sim", filename] => .ok filename
    | _ => .error "not found"
  fromStr content :=
    if content = "msfs.json" then .ok (simProfile .msfs)
    else if content = "xplane.json" then .ok (simProfile .xPlane)
    else .error "not a profile"
  canonicalize path := some path
  effectiveHash _ := ""

def simConfig : AutoSwitchConfig :=
  { profilePaths := [["global"], ["sim"], ["aircraft"]]
    capabilityContext := .forMode .full }

theorem simProfile_valid (sim : SimId) (order : Orders) (context : Profiles.CapabilityContext) :
    (simProfile sim).validateWithCapabilities order context = .ok () := by
  simp [simProfile, Profile.validateWithCapabilities, Profiles.profileSchemaVersion, bind,
    Except.bind, pure, Except.pure]

theorem simFiles_load (order : Orders) (sim : SimId) (h : sim = .msfs ∨ sim = .xPlane) :
    loadProfileFromPath simFiles order ["sim"] (simName sim ++ ".json") =
      .ok (simProfile sim, ["sim", simName sim ++ ".json"]) := by
  rcases h with rfl | rfl <;>
    simp [loadProfileFromPath, simFiles, simName, Profile.validate, simProfile_valid]

/-- The files of the two simulators merge to profiles of their own. -/
theorem simFiles_mergesTo (orders : ℕ → Orders) (id : AircraftId) (sim : SimId)
    (h : sim = .msfs ∨ sim = .xPlane) :
    loadMergedProfile simFiles orders simConfig id sim =
      .ok (simProfile sim, [["sim", simName sim ++ ".json"]]) := by
  have hhierarchy : loadProfileHierarchy simFiles orders simConfig id sim =
      .ok [(simProfile sim, ["sim", simName sim ++ ".json"])] := by
    unfold loadProfileHierarchy simConfig
    dsimp only
    rw [simFiles_load (orders 1) sim h]
    rfl
  rw [loadMergedProfile, hhierarchy]
  simp only [List.map_nil, mergeProfiles, simProfile_valid]

/-- A detection of one aircraft in a simulator. -/
noncomputable def detectedIn (sim : SimId) : RequestInput where
  request := .aircraftDetected ⟨sim, ⟨"C172", none⟩⟩
  clk := fun _ => 0
  orders := ⟨fun _ => default, default⟩

/-- The cache after the first detection. -/
noncomputable def msfsCache : ProfileCache :=
  { ProfileCache.new with
    profiles := ProfileCache.new.profiles.insert ⟨"C172", none⟩
      ⟨simProfile .msfs, compileProfile simFiles default (simProfile .msfs),
        [["sim", "msfs.json"]]⟩
    cacheTimestamps := ProfileCache.new.cacheTimestamps.insert ⟨"C172", none⟩ 0 }

theorem autoSwitchStep_msfs : autoSwitchStep simFiles simConfig .new (detectedIn .msfs) =
      { state := switchTo .new ⟨.msfs, ⟨"C172", none⟩⟩
          (compileProfile simFiles default (simProfile .msfs)) false
        profileCache := msfsCache
        running := true } := by
  have hload := loadAndCompileProfile_load simFiles simConfig (fun _ => 0)
    ⟨fun _ => default, default⟩ .new ⟨.msfs, ⟨"C172", none⟩⟩ (live_new _ _) _ _
    (simFiles_mergesTo (fun _ => default) ⟨"C172", none⟩ .msfs (.inl rfl))
  exact congrArg Prod.fst (handleAircraftDetection_ok simFiles simConfig (fun _ => 0)
    ⟨fun _ => default, default⟩ .new ⟨.msfs, ⟨"C172", none⟩⟩
    (by simp [AutoSwitch.new, AutoSwitchState.new]) _ _ _ hload)

/-- The aircraft is detected in one simulator and then in the other. -/
theorem cache_not_transparent :
    ¬ StepsMeet (autoSwitchStep simFiles simConfig) (Transparent simFiles simConfig) .new
      [detectedIn .msfs, detectedIn .xPlane] := by
  rintro ⟨-, htransparent, -⟩
  have hsound := trackedStep_sound simFiles simConfig .new (detectedIn .msfs) (sound_new _ _)
  have hrunning : (autoSwitchStep simFiles simConfig .new (detectedIn .msfs)).running = true := by
    rw [autoSwitchStep_msfs]
  -- The second detection finds the entry of the first one.
  have hbase := (detection_fresh_iff simFiles simConfig (fun _ => 0)
    ⟨fun _ => default, default⟩ _ ⟨.xPlane, ⟨"C172", none⟩⟩
    (fun id cached hlookup => (hsound id cached hlookup).1)
    (by simp [trackedStep, Tracked.new, autoSwitchStep_msfs, switchTo])).mp (htransparent hrunning)
  have hlive : msfsCache.live 0 ⟨"C172", none⟩ =
      some ⟨simProfile .msfs, compileProfile simFiles default (simProfile .msfs),
        [["sim", "msfs.json"]]⟩ := by
    simp [ProfileCache.live, msfsCache, ProfileCache.new, durationSince, fromSecs]
  rw [trackedStep, Tracked.new, autoSwitchStep_msfs] at hbase
  rcases hbase _ hlive with ⟨orders, sources, hmerges⟩
  rw [simFiles_mergesTo orders ⟨"C172", none⟩ .xPlane (.inr rfl)] at hmerges
  -- The profile of the entry is the one for the other simulator.
  have heq : simProfile .xPlane = simProfile .msfs := congrArg Prod.fst (Except.ok.inj hmerges)
  exact absurd (congrArg Profile.sim heq) (by decide)

end OpenFlight.Session
