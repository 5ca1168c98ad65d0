import OpenFlight.Core.Profile.Migration
import OpenFlight.Lib.Cycles

/-!
# Migration Paths

When the search for a migration path ends, and when it finds one that exists.

The search is a walk: out of every version it takes the migration that was
registered first. As a machine its step is `nextVersion`, which stops at the
target and at versions without a migration. The live versions are those some
migration starts from, so the machine falls under the library's account of
cycles: the search ends exactly when the walk does not come back to a version
that it has passed.

A path can exist that the walk does not take. On a registry without cycles the
walk always ends, and it ends at the target exactly when its first choices never
give up the target: at no version is the target reachable, but not from where
the first migration leads.

## Main definitions

* `Edge`, `Acyclic`: The graph of the versions.

## Theorems

* `search_halts_iff`: When the search and its callers halt.
* `canMigrate_complete_iff`: When the search is complete.
-/

namespace OpenFlight.Profiles

open Relation

variable (registry : MigrationRegistry)

/-- The version the search goes to, if it goes on. -/
def MigrationRegistry.nextVersion (target current : String) : Option String :=
  if current = target then none
  else (registry.firstFrom current).map ProfileMigration.toVersion

/-- The walk of the search comes back to a version that it has passed. -/
def MigrationRegistry.Circles (source target : String) : Prop :=
  MeetsCycle (registry.nextVersion target) source

theorem nextVersion_target (target : String) : registry.nextVersion target target = none := by
  rw [MigrationRegistry.nextVersion, if_pos rfl]

theorem nextVersion_eq_some {target current next : String} :
    registry.nextVersion target current = some next ↔
      current ≠ target ∧ ∃ migration, registry.firstFrom current = some migration ∧
        migration.toVersion = next := by
  by_cases heq : current = target <;> simp [MigrationRegistry.nextVersion, heq]

/-- The search goes on only from versions that a migration starts from. -/
theorem mem_of_nextVersion {target current next : String}
    (h : registry.nextVersion target current = some next) :
    current ∈ registry.migrations.map ProfileMigration.fromVersion := by
  rcases (nextVersion_eq_some registry).mp h with ⟨-, migration, hfirst, -⟩
  have hfrom := List.find?_some hfirst
  rw [beq_iff_eq] at hfrom
  rw [← hfrom]
  exact List.mem_map_of_mem (List.mem_of_find?_eq_some hfirst)

/-- The loop answers once it has more rounds than the walk has steps. -/
theorem extendPath_isSome_iff (target : String) (fuel : Nat) (path : List ProfileMigration)
    (current : String) :
    (registry.extendPath target fuel path current).isSome ↔
      ∃ n last, n < fuel ∧ Reaches (registry.nextVersion target) n current last ∧
        registry.nextVersion target last = none := by
  induction fuel generalizing path current with
  | zero => simp [MigrationRegistry.extendPath]
  | succ fuel ih =>
      cases hnext : registry.nextVersion target current with
      | none =>
          -- The walk is over, so the round answers.
          have hanswer : (registry.extendPath target (fuel + 1) path current).isSome = true := by
            rw [MigrationRegistry.extendPath]
            by_cases heq : current = target
            · rw [if_pos heq]
              rfl
            · rw [MigrationRegistry.nextVersion, if_neg heq, Option.map_eq_none_iff] at hnext
              rw [if_neg heq, hnext]
              rfl
          exact ⟨fun _ => ⟨0, current, Nat.succ_pos fuel, rfl, hnext⟩, fun _ => hanswer⟩
      | some next =>
          rcases (nextVersion_eq_some registry).mp hnext with ⟨hne, migration, hfirst, hto⟩
          rw [MigrationRegistry.extendPath, if_neg hne, hfirst]
          simp only [hto]
          rw [ih]
          constructor
          · rintro ⟨n, last, hn, hreach, hlast⟩
            exact ⟨n + 1, last, Nat.succ_lt_succ hn, ⟨next, hnext, hreach⟩, hlast⟩
          · rintro ⟨n, last, hn, hreach, hlast⟩
            cases n with
            | zero =>
                have heq : current = last := hreach
                rw [← heq, hnext] at hlast
                cases hlast
            | succ n =>
                rcases hreach with ⟨v, hv, hrest⟩
                rw [hnext, Option.some.injEq] at hv
                exact ⟨n, last, by omega, hv ▸ hrest, hlast⟩

/-- The answer of the loop is whether the walk comes to the target. -/
theorem extendPath_found_iff (target : String) (fuel : Nat) (path : List ProfileMigration)
    (current : String) (found : Option (List ProfileMigration))
    (h : registry.extendPath target fuel path current = some found) :
    found.isSome ↔ ReflTransGen (StepsTo (registry.nextVersion target)) current target := by
  induction fuel generalizing path current with
  | zero => cases h
  | succ fuel ih =>
      rw [MigrationRegistry.extendPath] at h
      by_cases heq : current = target
      · rw [if_pos heq, Option.some.injEq] at h
        rw [← h, heq]
        exact ⟨fun _ => ReflTransGen.refl, fun _ => rfl⟩
      · rw [if_neg heq] at h
        rw [ReflTransGen.cases_head_iff]
        cases hfirst : registry.firstFrom current with
        | none =>
            rw [hfirst, Option.some.injEq] at h
            have hnext : registry.nextVersion target current = none := by
              rw [MigrationRegistry.nextVersion, if_neg heq, hfirst]
              rfl
            simp [← h, heq, StepsTo, hnext]
        | some migration =>
            rw [hfirst] at h
            have hnext : registry.nextVersion target current = some migration.toVersion :=
              (nextVersion_eq_some registry).mpr ⟨heq, migration, hfirst, rfl⟩
            rw [ih _ _ h]
            simp [heq, StepsTo, hnext]

section

variable (source target : String)

theorem buildPath_halts_iff : (∃ fuel, (registry.buildPath fuel source target).isSome) ↔
      ¬ registry.Circles source target := by
  rw [MigrationRegistry.Circles, ← halts_iff_no_cycle _ fun _ _ => mem_of_nextVersion registry]
  constructor
  · rintro ⟨fuel, h⟩
    rcases (extendPath_isSome_iff registry target fuel [] source).mp h with ⟨n, last, -, hwalk⟩
    exact ⟨n, last, hwalk⟩
  · rintro ⟨n, last, hwalk⟩
    exact ⟨n + 1, (extendPath_isSome_iff registry target _ [] source).mpr
      ⟨n, last, Nat.lt_succ_self n, hwalk⟩⟩

/-- Nothing comes before the target, so a search that starts there halts. -/
theorem not_circles_self : ¬ registry.Circles target target := by
  rw [← buildPath_halts_iff]
  exact ⟨1, by simp [MigrationRegistry.buildPath, MigrationRegistry.extendPath]⟩

/-- The search, and with it both of its callers, halts exactly when the walk along the first
    registered migrations does not come back to a version that it has passed. -/
theorem search_halts_iff : ((∃ fuel, (registry.buildPath fuel source target).isSome) ↔
        ¬ registry.Circles source target) ∧
      ((∃ fuel, (registry.canMigrate fuel source target).isSome) ↔
        ¬ registry.Circles source target) ∧
      ∀ value, (∃ fuel, (registry.migrate fuel value source target).isSome) ↔
        ¬ registry.Circles source target := by
  refine ⟨buildPath_halts_iff registry source target, ?_, ?_⟩
  · rw [← buildPath_halts_iff]
    simp [MigrationRegistry.canMigrate]
  · intro value
    by_cases heq : source = target
    · rw [heq]
      refine ⟨fun _ => not_circles_self registry target, fun _ => ⟨0, ?_⟩⟩
      simp [MigrationRegistry.migrate]
    · rw [← buildPath_halts_iff]
      simp [MigrationRegistry.migrate, heq]

/-- A registry of downgrades next to the built-in upgrades. -/
def downgradeRegistry : MigrationRegistry :=
  MigrationRegistry.new.register
    { fromVersion := "v3", toVersion := "v1", description := "Downgrade", migrateFn := .ok }

theorem search_does_not_halt : ¬ ∀ (registry : MigrationRegistry) (source target : String),
      ∃ fuel, (registry.buildPath fuel source target).isSome := by
  intro h
  refine (buildPath_halts_iff downgradeRegistry "v1" "v4").mp (h downgradeRegistry "v1" "v4") ?_
  have hround : Reaches (downgradeRegistry.nextVersion "v4") 3 "v1" "v1" :=
    ⟨"v2", by decide, "v3", by decide, "v1", by decide, rfl⟩
  exact ⟨"v1", ReflTransGen.refl, transGen_of_reaches (by decide) hround⟩

end

section

/-- Some registered migration leads from the one version to the other. -/
def MigrationRegistry.Edge (v w : String) : Prop :=
  ∃ migration ∈ registry.migrations, migration.fromVersion = v ∧ migration.toVersion = w

/-- No chain of migrations leads back to where it starts. -/
def MigrationRegistry.Acyclic : Prop :=
  ∀ v, ¬ TransGen registry.Edge v v

/-- `can_migrate` returns true. -/
def MigrationRegistry.Finds (source target : String) : Prop :=
  ∃ fuel, registry.canMigrate fuel source target = some true

/-- Out of the versions that the walk passes, the first migration keeps the target
    within reach if anything does. -/
def MigrationRegistry.KeepsTarget (source target : String) : Prop :=
  ∀ v migration, ReflTransGen (StepsTo (registry.nextVersion target)) source v →
    v ≠ target → registry.firstFrom v = some migration →
    ReflTransGen registry.Edge v target → ReflTransGen registry.Edge migration.toVersion target

variable {registry} {v : String}

theorem edge_of_firstFrom {migration : ProfileMigration}
    (h : registry.firstFrom v = some migration) :
    registry.Edge v migration.toVersion := by
  have hfrom := List.find?_some h
  rw [beq_iff_eq] at hfrom
  exact ⟨migration, List.mem_of_find?_eq_some h, hfrom, rfl⟩

variable {target w : String}

theorem edge_of_step (h : StepsTo (registry.nextVersion target) v w) : registry.Edge v w := by
  rcases (nextVersion_eq_some registry).mp h with ⟨-, migration, hfirst, hto⟩
  rw [← hto]
  exact edge_of_firstFrom hfirst

/-- A version with an edge out of it has a first one. -/
theorem exists_firstFrom (h : registry.Edge v w) :
    ∃ migration, registry.firstFrom v = some migration := by
  rcases h with ⟨migration, hmem, hfrom, -⟩
  rw [← Option.isSome_iff_exists, MigrationRegistry.firstFrom, List.find?_isSome]
  exact ⟨migration, hmem, by rw [hfrom, beq_self_eq_true]⟩

theorem chain_of_walk (h : ReflTransGen (StepsTo (registry.nextVersion target)) v w) :
    ReflTransGen registry.Edge v w :=
  ReflTransGen.mono (fun _ _ => edge_of_step) v w h

/-- The walk of a search on a registry without cycles ends. -/
theorem not_circles_of_acyclic (h : registry.Acyclic) (source target : String) :
    ¬ registry.Circles source target := by
  rintro ⟨v, -, hcycle⟩
  exact h v (TransGen.mono (fun _ _ => edge_of_step) v v hcycle)

/-- A path is found when the walk comes to the target. -/
theorem finds_iff_walk (h : registry.Acyclic) (source target : String) :
    registry.Finds source target ↔
      ReflTransGen (StepsTo (registry.nextVersion target)) source target := by
  constructor
  · rintro ⟨fuel, hfuel⟩
    rw [MigrationRegistry.canMigrate, Option.map_eq_some_iff] at hfuel
    rcases hfuel with ⟨found, hfound, hsome⟩
    exact (extendPath_found_iff registry target fuel [] source found hfound).mp hsome
  · intro hwalk
    rcases (buildPath_halts_iff registry source target).mpr
      (not_circles_of_acyclic h source target) with ⟨fuel, hfuel⟩
    rcases Option.isSome_iff_exists.mp hfuel with ⟨found, hfound⟩
    have hsome := (extendPath_found_iff registry target fuel [] source found hfound).mpr hwalk
    exact ⟨fuel, by rw [MigrationRegistry.canMigrate, hfound, Option.map_some, hsome]⟩

/-- The walk to the target goes on through every version on it. -/
theorem walk_onward {source : String}
    (htarget : ReflTransGen (StepsTo (registry.nextVersion target)) source target)
    (hv : ReflTransGen (StepsTo (registry.nextVersion target)) source v) :
    ReflTransGen (StepsTo (registry.nextVersion target)) v target := by
  rcases (reachable_iff_reaches _ _).mp htarget with ⟨n, hn⟩
  rcases (reachable_iff_reaches _ _).mp hv with ⟨m, hm⟩
  have hle := reaches_le_of_halted hn (nextVersion_target registry target) hm
  exact (reachable_iff_reaches _ _).mpr ⟨n - m, reaches_prefix hm hn hle⟩

theorem walk_of_keepsTarget (h : registry.Acyclic) {source : String}
    (hkeeps : registry.KeepsTarget source target)
    (hchain : ReflTransGen registry.Edge source target) :
    ReflTransGen (StepsTo (registry.nextVersion target)) source target := by
  have hend : Halts (registry.nextVersion target) source :=
    (halts_iff_no_cycle _ (fun _ _ => mem_of_nextVersion registry) source).mpr
      (not_circles_of_acyclic h source target)
  rcases hend with ⟨n, last, hn, hlast⟩
  have hwalk := (reachable_iff_reaches _ _).mpr ⟨n, hn⟩
  -- The target stays within reach at every version of the walk.
  have hreach : ReflTransGen registry.Edge last target := by
    clear hn hlast
    induction hwalk with
    | refl => exact hchain
    | tail hbefore hstep ih =>
        rcases (nextVersion_eq_some registry).mp hstep with ⟨hne, migration, hfirst, hto⟩
        rw [← hto]
        exact hkeeps _ migration hbefore hne hfirst ih
  rcases ReflTransGen.cases_head hreach with heq | ⟨w, hedge, -⟩
  · rwa [heq] at hwalk
  · -- A version with an edge has a first migration, so the walk ends at the target only.
    rcases exists_firstFrom hedge with ⟨migration, hfirst⟩
    by_cases heq : last = target
    · rwa [heq] at hwalk
    · rw [(nextVersion_eq_some registry).mpr ⟨heq, migration, hfirst, rfl⟩] at hlast
      cases hlast

/-- On a registry without cycles, the search finds a path whenever there is one
    exactly when its first choices keep the target within reach. -/
theorem canMigrate_complete_iff (h : registry.Acyclic) (source target : String) :
    (registry.Finds source target ↔ ReflTransGen registry.Edge source target) ↔
      registry.KeepsTarget source target := by
  rw [finds_iff_walk h]
  constructor
  · intro hcomplete v migration hv hne hfirst hchain
    have htarget := hcomplete.mpr ((chain_of_walk hv).trans hchain)
    rcases ReflTransGen.cases_head (walk_onward htarget hv) with heq | ⟨w, hstep, hrest⟩
    · exact absurd heq hne
    · have hto : migration.toVersion = w := by
        rw [StepsTo, (nextVersion_eq_some registry).mpr ⟨hne, migration, hfirst, rfl⟩] at hstep
        exact Option.some.inj hstep
      rw [hto]
      exact chain_of_walk hrest
  · exact fun hkeeps => ⟨chain_of_walk, walk_of_keepsTarget h hkeeps⟩

/-- Migrations that all lead upwards in some order make no cycle. -/
theorem acyclic_of_rank (rank : String → Nat) (h : ∀ migration ∈ registry.migrations,
      rank migration.fromVersion < rank migration.toVersion) : registry.Acyclic := by
  have hup : ∀ v w, TransGen registry.Edge v w → rank v < rank w := by
    intro v w hchain
    induction hchain with
    | single hedge =>
        rcases hedge with ⟨migration, hmem, rfl, rfl⟩
        exact h migration hmem
    | tail _ hedge ih =>
        rcases hedge with ⟨migration, hmem, rfl, rfl⟩
        exact Nat.lt_trans ih (h migration hmem)
  exact fun v hcycle => Nat.lt_irrefl _ (hup v v hcycle)

/-- The built-in registry with a second migration out of its first version. -/
def shortcutRegistry : MigrationRegistry :=
  MigrationRegistry.new.register
    { fromVersion := "v1", toVersion := "v9", description := "Shortcut", migrateFn := .ok }

theorem shortcut_acyclic : shortcutRegistry.Acyclic :=
  acyclic_of_rank (fun v => if v = "v1" then 0 else if v = "v2" then 1 else 2) (by decide)

/-- No migration leads out of a version that the registry has none from. -/
theorem eq_of_chain (h : registry.firstFrom v = none) (hchain : ReflTransGen registry.Edge v w) :
    v = w := by
  rcases ReflTransGen.cases_head hchain with heq | ⟨u, hedge, -⟩
  · exact heq
  · rcases exists_firstFrom hedge with ⟨migration, hfirst⟩
    rw [h] at hfirst
    cases hfirst

theorem canMigrate_incomplete :
    ¬ ∀ registry : MigrationRegistry, registry.Acyclic → ∀ source target,
      registry.Finds source target ↔ ReflTransGen registry.Edge source target := by
  intro h
  have hedge : shortcutRegistry.Edge "v1" "v9" :=
    ⟨_, List.mem_of_getElem? (rfl : shortcutRegistry.migrations[2]? = some _), rfl, rfl⟩
  have hfinds := (h shortcutRegistry shortcut_acyclic "v1" "v9").mpr (ReflTransGen.single hedge)
  -- The walk goes by v2 and ends at v3, which nothing leads out of.
  have hwalk := (finds_iff_walk shortcut_acyclic "v1" "v9").mp hfinds
  have hv3 : Reaches (shortcutRegistry.nextVersion "v9") 2 "v1" "v3" :=
    ⟨"v2", by decide, "v3", by decide, rfl⟩
  have hrest := walk_onward hwalk ((reachable_iff_reaches _ _).mpr ⟨2, hv3⟩)
  exact absurd (eq_of_chain (by rfl) (chain_of_walk hrest)) (by decide)

theorem shortcut_complete_to_v3 :
    (shortcutRegistry.Finds "v1" "v3" ↔ ReflTransGen shortcutRegistry.Edge "v1" "v3") ↔
      shortcutRegistry.KeepsTarget "v1" "v3" :=
  canMigrate_complete_iff shortcut_acyclic "v1" "v3"

end

end OpenFlight.Profiles
