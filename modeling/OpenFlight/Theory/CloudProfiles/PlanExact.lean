import OpenFlight.Theory.CloudProfiles.SyncConverges

/-!
# Plans Are Exact

What a plan is about, and what is left when it has been carried out.

A plan names every profile that differs, and names it once. A resolution moves a profile
from one list to another and names no other, so after any number of them the plan still
names the same profiles once. Where it has no conflicts left it copies each of them one
way, from where there is a version, and then no profile differs.

## Main definitions

* `Differs`: A profile is missing on one side, or its hashes differ.
* `SyncPlan.named`: The profiles that a plan names, in all its lists.

## Theorems

* `named_planLocal`, `named_resolveConflict`: What a step of planning and a resolution do.
* `plan_exact`: Plans are exact, and enough.
-/

namespace OpenFlight.CloudProfiles

section

/-- Every profile has one state. -/
def UniqueIds (states : List ProfileSyncState) : Prop :=
  (states.map ProfileSyncState.id).Nodup

instance (states : List ProfileSyncState) : Decidable (UniqueIds states) :=
  inferInstanceAs (Decidable (states.map ProfileSyncState.id).Nodup)

/-- There is no state of the profile. -/
def Missing (states : List ProfileSyncState) (id : String) : Prop :=
  ∀ s ∈ states, s.id ≠ id

/-- The profile is missing on one side only, or the hashes differ. -/
def Differs (here remote : List ProfileSyncState) (id : String) : Prop :=
  (∃ l ∈ here, l.id = id ∧ Missing remote id) ∨
  (∃ r ∈ remote, r.id = id ∧ Missing here id) ∨
  ∃ l ∈ here, ∃ r ∈ remote, l.id = id ∧ r.id = id ∧ l.versionHash ≠ r.versionHash

variable {states : List ProfileSyncState} {s : ProfileSyncState}

theorem id_of_getState {id : String} (h : getState states id = some s) :
    s ∈ states ∧ s.id = id := by
  unfold getState at h
  have hid := List.find?_some h
  exact ⟨List.mem_reverse.mp (List.mem_of_find?_eq_some h), of_decide_eq_true hid⟩

theorem getState_eq_none_iff (states : List ProfileSyncState) (id : String) :
    getState states id = none ↔ Missing states id := by
  unfold getState Missing
  rw [List.find?_eq_none]
  simp only [List.mem_reverse, decide_eq_true_eq]

theorem getState_of_mem (h : UniqueIds states) (hs : s ∈ states) :
    getState states s.id = some s := by
  cases hfound : getState states s.id with
  | none => exact absurd rfl ((getState_eq_none_iff states s.id).mp hfound s hs)
  | some s' =>
      rcases id_of_getState hfound with ⟨hs', hid⟩
      rw [List.inj_on_of_nodup_map h hs' hs hid]

/-- The hash of the version of a profile. -/
def hashOf (states : List ProfileSyncState) (id : String) : Option String :=
  (getState states id).map ProfileSyncState.versionHash

theorem hashOf_eq_none_iff (states : List ProfileSyncState) (id : String) :
    hashOf states id = none ↔ Missing states id := by
  rw [hashOf, Option.map_eq_none_iff, getState_eq_none_iff]

theorem hashOf_of_mem (h : UniqueIds states) (hs : s ∈ states) :
    hashOf states s.id = some s.versionHash := by
  rw [hashOf, getState_of_mem h hs, Option.map_some]

theorem exists_of_hashOf {id hash : String} (h : hashOf states id = some hash) :
    ∃ s ∈ states, s.id = id ∧ s.versionHash = hash := by
  rw [hashOf, Option.map_eq_some_iff] at h
  rcases h with ⟨s, hs, hhash⟩
  exact ⟨s, (id_of_getState hs).1, (id_of_getState hs).2, hhash⟩

theorem differs_iff_hashOf {here remote : List ProfileSyncState} (hhere : UniqueIds here)
    (hremote : UniqueIds remote) (id : String) :
    Differs here remote id ↔ hashOf here id ≠ hashOf remote id := by
  constructor
  · rintro (⟨l, hl, rfl, hmissing⟩ | ⟨r, hr, rfl, hmissing⟩ | ⟨l, hl, r, hr, hid, rfl, hne⟩)
    · rw [hashOf_of_mem hhere hl, (hashOf_eq_none_iff _ _).mpr hmissing]
      exact Option.some_ne_none _
    · rw [hashOf_of_mem hremote hr, (hashOf_eq_none_iff _ _).mpr hmissing]
      exact (Option.some_ne_none _).symm
    · rw [hashOf_of_mem hremote hr, ← hid, hashOf_of_mem hhere hl]
      exact fun heq => hne (Option.some.inj heq)
  · intro hne
    cases hl : hashOf here id with
    | none =>
        cases hr : hashOf remote id with
        | none => exact absurd (hl.trans hr.symm) hne
        | some hash =>
            rcases exists_of_hashOf hr with ⟨r, hmem, hid, _⟩
            exact .inr (.inl ⟨r, hmem, hid, (hashOf_eq_none_iff _ _).mp hl⟩)
    | some hash =>
        rcases exists_of_hashOf hl with ⟨l, hmem, hid, hhash⟩
        cases hr : hashOf remote id with
        | none => exact .inl ⟨l, hmem, hid, (hashOf_eq_none_iff _ _).mp hr⟩
        | some hash' =>
            rcases exists_of_hashOf hr with ⟨r, hmem', hid', hhash'⟩
            refine .inr (.inr ⟨l, hmem, r, hmem', hid, hid', fun heq => hne ?_⟩)
            rw [hl, hr, ← hhash, ← hhash', heq]

end

section

/-- The profiles that a plan names. -/
def SyncPlan.named (p : SyncPlan) : List String :=
  idsOf p.uploads ++ idsOf p.downloads ++ p.conflicts.map SyncConflict.profileId

/-- A loop that names some of its elements names them after what was named before. -/
theorem perm_foldl {σ α : Type} (names : σ → List String) (step : σ → α → σ) (keep : α → Bool)
    (name : α → String)
    (hstep : ∀ s a, (names (step s a)).Perm (names s ++ if keep a then [name a] else []))
    (s : σ) (as : List α) :
    (names (as.foldl step s)).Perm (names s ++ (as.filter keep).map name) := by
  induction as generalizing s with
  | nil => rw [List.filter_nil, List.map_nil, List.append_nil, List.foldl_nil]
  | cons a rest ih =>
      refine (ih _).trans (((hstep s a).append_right _).trans ?_)
      rw [List.append_assoc, List.filter_cons]
      by_cases hkeep : keep a = true
      · rw [if_pos hkeep, if_pos hkeep, List.map_cons, List.singleton_append]
      · rw [if_neg hkeep, if_neg hkeep, List.nil_append]

/-- The state differs from what there is on the other side. -/
def differsFrom (remote : List ProfileSyncState) (l : ProfileSyncState) : Bool :=
  match getState remote l.id with
  | none => true
  | some r => l.versionHash ≠ r.versionHash

variable (p : SyncPlan)

theorem SyncPlan.named_upload (action : ProfileAction) :
    { p with uploads := p.uploads ++ [action] }.named.Perm (p.named ++ [action.profileId]) := by
  refine List.perm_iff_count.mpr fun id => ?_
  simp only [SyncPlan.named, idsOf, List.map_append, List.map_cons, List.map_nil,
    List.count_append]
  omega

theorem SyncPlan.named_download (action : ProfileAction) :
    { p with downloads := p.downloads ++ [action] }.named.Perm
      (p.named ++ [action.profileId]) := by
  refine List.perm_iff_count.mpr fun id => ?_
  simp only [SyncPlan.named, idsOf, List.map_append, List.map_cons, List.map_nil,
    List.count_append]
  omega

theorem SyncPlan.named_conflict (conflict : SyncConflict) :
    { p with conflicts := p.conflicts ++ [conflict] }.named.Perm
      (p.named ++ [conflict.profileId]) := by
  rw [SyncPlan.named, SyncPlan.named, List.map_append, ← List.append_assoc]
  exact List.Perm.refl _

variable (strategy : ConflictStrategy)

theorem named_planLocal (remote : List ProfileSyncState) (l : ProfileSyncState) :
    (planLocal strategy remote p l).named.Perm
      (p.named ++ if differsFrom remote l then [l.id] else []) := by
  unfold planLocal differsFrom
  cases getState remote l.id with
  | none => exact p.named_upload _
  | some r =>
      by_cases hhash : l.versionHash = r.versionHash
      · simp [hhash]
      · have hdiffers : decide (l.versionHash ≠ r.versionHash) = true := decide_eq_true hhash
        simp only [hhash, hdiffers, if_true, if_false]
        cases strategy with
        | lastWriteWins =>
            by_cases htime : r.updatedAt ≤ l.updatedAt
            · simp only [htime, if_true]
              exact p.named_upload _
            · simp only [htime, if_false]
              exact p.named_download _
        | manual => exact p.named_conflict _

theorem named_planRemote (here : List ProfileSyncState) (r : ProfileSyncState) :
    (planRemote here p r).named.Perm
      (p.named ++ if (getState here r.id).isNone then [r.id] else []) := by
  unfold planRemote
  by_cases hnone : (getState here r.id).isNone = true
  · rw [if_pos hnone, if_pos hnone]
    exact p.named_download _
  · rw [if_neg hnone, if_neg hnone, List.append_nil]

theorem named_plan_perm (here remote : List ProfileSyncState) :
    (plan strategy here remote).named.Perm
      ((here.filter (differsFrom remote)).map ProfileSyncState.id ++
        (remote.filter fun r => (getState here r.id).isNone).map ProfileSyncState.id) := by
  have hlocals := perm_foldl SyncPlan.named (planLocal strategy remote) (differsFrom remote)
    ProfileSyncState.id (fun p => named_planLocal p strategy remote) SyncPlan.empty here
  have hremotes := perm_foldl SyncPlan.named (planRemote here)
    (fun r => (getState here r.id).isNone) ProfileSyncState.id fun p => named_planRemote p here
  exact (hremotes _ remote).trans (hlocals.append_right _)

variable {remote : List ProfileSyncState}

theorem mem_filter_differsFrom {here : List ProfileSyncState} (hhere : UniqueIds here)
    (id : String) :
    id ∈ (here.filter (differsFrom remote)).map ProfileSyncState.id ↔
      hashOf here id ≠ none ∧ hashOf here id ≠ hashOf remote id := by
  have hdiffers : ∀ l ∈ here, (differsFrom remote l = true ↔
      hashOf here l.id ≠ hashOf remote l.id) := by
    intro l hl
    rw [hashOf_of_mem hhere hl, differsFrom, hashOf]
    cases getState remote l.id with
    | none => simp
    | some r => simp
  rw [List.mem_map]
  constructor
  · rintro ⟨l, hl, rfl⟩
    rw [List.mem_filter] at hl
    refine ⟨?_, (hdiffers l hl.1).mp hl.2⟩
    rw [hashOf_of_mem hhere hl.1]
    exact Option.some_ne_none _
  · rintro ⟨hsome, hne⟩
    rcases Option.ne_none_iff_exists'.mp hsome with ⟨hash, hhash⟩
    rcases exists_of_hashOf hhash with ⟨l, hl, rfl, _⟩
    exact ⟨l, List.mem_filter.mpr ⟨hl, (hdiffers l hl).mpr hne⟩, rfl⟩

theorem mem_filter_isNone (here : List ProfileSyncState) (id : String) :
    id ∈ (remote.filter fun r => (getState here r.id).isNone).map ProfileSyncState.id ↔
      hashOf here id = none ∧ hashOf remote id ≠ none := by
  rw [List.mem_map]
  simp only [hashOf_eq_none_iff, ne_eq, List.mem_filter, Option.isNone_iff_eq_none,
    getState_eq_none_iff]
  constructor
  · rintro ⟨r, ⟨hr, hmissing⟩, rfl⟩
    exact ⟨hmissing, fun hnone => hnone r hr rfl⟩
  · rintro ⟨hmissing, hnone⟩
    unfold Missing at hnone
    push Not at hnone
    rcases hnone with ⟨r, hr, rfl⟩
    exact ⟨r, ⟨hr, hmissing⟩, rfl⟩

/-- A plan names what differs, and names it once. -/
theorem named_plan {here : List ProfileSyncState} (hhere : UniqueIds here)
    (hremote : UniqueIds remote) :
    (plan strategy here remote).named.Nodup ∧
      ∀ id, id ∈ (plan strategy here remote).named ↔ Differs here remote id := by
  have hperm := named_plan_perm strategy here remote
  constructor
  · rw [hperm.nodup_iff, List.nodup_append]
    refine ⟨hhere.sublist (List.filter_sublist.map _), hremote.sublist (List.filter_sublist.map _),
      fun id hid id' hid' heq => ?_⟩
    subst heq
    exact ((mem_filter_differsFrom hhere id).mp hid).1 ((mem_filter_isNone here id).mp hid').1
  · intro id
    rw [hperm.mem_iff, List.mem_append, mem_filter_differsFrom hhere, mem_filter_isNone,
      differs_iff_hashOf hhere hremote]
    constructor
    · rintro (⟨_, hne⟩ | ⟨hnone, hsome⟩)
      · exact hne
      · rw [hnone]
        exact hsome.symm
    · intro hne
      by_cases hnone : hashOf here id = none
      · rw [hnone] at hne
        exact .inr ⟨hnone, hne.symm⟩
      · exact .inl ⟨hnone, hne⟩

end

section

/-- There is a version where an action copies from, and both where there is a conflict. -/
structure Sourced (here remote : List ProfileSyncState) (p : SyncPlan) : Prop where
  uploads : ∀ action ∈ p.uploads, ¬ Missing here action.profileId
  downloads : ∀ action ∈ p.downloads, ¬ Missing remote action.profileId
  conflicts : ∀ conflict ∈ p.conflicts,
    ¬ Missing here conflict.profileId ∧ ¬ Missing remote conflict.profileId

variable {here remote : List ProfileSyncState} {p : SyncPlan}

theorem Sourced.upload (h : Sourced here remote p) {action : ProfileAction}
    (hsource : ¬ Missing here action.profileId) :
    Sourced here remote { p with uploads := p.uploads ++ [action] } :=
  { h with uploads := List.forall_mem_append.mpr ⟨h.uploads, by simpa using hsource⟩ }

theorem Sourced.download (h : Sourced here remote p) {action : ProfileAction}
    (hsource : ¬ Missing remote action.profileId) :
    Sourced here remote { p with downloads := p.downloads ++ [action] } :=
  { h with downloads := List.forall_mem_append.mpr ⟨h.downloads, by simpa using hsource⟩ }

theorem Sourced.conflict (h : Sourced here remote p) {conflict : SyncConflict}
    (hhere : ¬ Missing here conflict.profileId) (hremote : ¬ Missing remote conflict.profileId) :
    Sourced here remote { p with conflicts := p.conflicts ++ [conflict] } :=
  { h with conflicts := List.forall_mem_append.mpr ⟨h.conflicts, by simpa using ⟨hhere, hremote⟩⟩ }

theorem sourced_planLocal (strategy : ConflictStrategy) (h : Sourced here remote p)
    {l : ProfileSyncState} (hl : l ∈ here) :
    Sourced here remote (planLocal strategy remote p l) := by
  have hhere : ¬ Missing here l.id := fun hmissing => hmissing l hl rfl
  unfold planLocal
  cases hr : getState remote l.id with
  | none => exact h.upload hhere
  | some r =>
      have hremote : ¬ Missing remote l.id :=
        fun hmissing => hmissing r (id_of_getState hr).1 (id_of_getState hr).2
      by_cases hhash : l.versionHash = r.versionHash
      · simp only [hhash, if_true]
        exact h
      · cases strategy with
        | lastWriteWins =>
            by_cases htime : r.updatedAt ≤ l.updatedAt
            · simp only [hhash, htime, if_true, if_false]
              exact h.upload hhere
            · simp only [hhash, htime, if_false]
              exact h.download hremote
        | manual =>
            simp only [hhash, if_false]
            exact h.conflict hhere hremote

theorem sourced_planRemote (h : Sourced here remote p) {r : ProfileSyncState} (hr : r ∈ remote) :
    Sourced here remote (planRemote here p r) := by
  unfold planRemote
  by_cases hnone : (getState here r.id).isNone = true
  · rw [if_pos hnone]
    exact h.download fun hmissing => hmissing r hr rfl
  · rw [if_neg hnone]
    exact h

theorem sourced_plan (strategy : ConflictStrategy) (here remote : List ProfileSyncState) :
    Sourced here remote (plan strategy here remote) := by
  have hempty : Sourced here remote SyncPlan.empty :=
    ⟨List.forall_mem_nil _, List.forall_mem_nil _, List.forall_mem_nil _⟩
  have hlocals := List.foldlRecOn here (planLocal strategy remote) hempty
    fun _ hp _ hl => sourced_planLocal strategy hp hl
  exact List.foldlRecOn remote (planRemote here) hlocals fun _ hp _ hr => sourced_planRemote hp hr

variable {resolution : ConflictResolution}

/-- What a resolution does: nothing, or it takes the first conflict about the profile out and
    copies one way. -/
theorem resolveConflict_cases (p : SyncPlan) (profileId : String)
    (hresolution : resolution ≠ .skip) :
    (p.resolveConflict profileId resolution = p ∧
      ∀ c ∈ p.conflicts, c.profileId ≠ profileId) ∨
    ∃ before conflict after action, p.conflicts = before ++ conflict :: after ∧
      conflict.profileId = profileId ∧ action.profileId = profileId ∧
      (p.resolveConflict profileId resolution =
          { p with conflicts := before ++ after, uploads := p.uploads ++ [action] } ∨
        p.resolveConflict profileId resolution =
          { p with conflicts := before ++ after, downloads := p.downloads ++ [action] }) := by
  unfold SyncPlan.resolveConflict
  cases hfound : p.conflicts.find? fun c => c.profileId = profileId with
  | none =>
      left
      rw [List.find?_eq_none] at hfound
      simp only [decide_eq_true_eq] at hfound
      exact ⟨rfl, hfound⟩
  | some conflict =>
      right
      rcases List.find?_eq_some_iff_append.mp hfound with ⟨hid, before, after, hsplit, hbefore⟩
      have hid' := of_decide_eq_true hid
      have herase : p.conflicts.eraseP (fun c => c.profileId = profileId) = before ++ after := by
        rw [hsplit, List.eraseP_append_right _ fun c hc => by simpa using hbefore c hc,
          List.eraseP_cons, hid, cond_true]
      cases resolution with
      | useLocal =>
          refine ⟨before, conflict, after, ⟨conflict.profileId, conflict.localVersion.versionHash⟩,
            hsplit, hid', hid', .inl ?_⟩
          simp only [herase]
      | useRemote =>
          refine ⟨before, conflict, after, ⟨conflict.profileId, conflict.remoteVersion.versionHash⟩,
            hsplit, hid', hid', .inr ?_⟩
          simp only [herase]
      | skip => exact absurd rfl hresolution

theorem named_resolveConflict (p : SyncPlan) (profileId : String)
    (hresolution : resolution ≠ .skip) :
    (p.resolveConflict profileId resolution).named.Perm p.named := by
  rcases resolveConflict_cases p profileId hresolution with
    ⟨heq, _⟩ | ⟨before, conflict, after, action, hsplit, hid, hid', hcases⟩
  · rw [heq]
  · -- The name of the conflict goes to the end, and then it is the name of the action.
    have hmoved : ({ p with conflicts := before ++ after }.named ++ [profileId]).Perm p.named := by
      rw [SyncPlan.named, SyncPlan.named, hsplit, List.append_assoc, ← hid]
      refine List.Perm.append_left _ ?_
      rw [List.map_append, List.map_append, List.map_cons, List.append_assoc]
      exact List.Perm.append_left _ (List.perm_append_singleton _ _)
    rw [← hid'] at hmoved
    rcases hcases with heq | heq
    · rw [heq]
      exact (SyncPlan.named_upload _ action).trans hmoved
    · rw [heq]
      exact (SyncPlan.named_download _ action).trans hmoved

theorem sourced_resolveConflict (h : Sourced here remote p) (profileId : String)
    (hresolution : resolution ≠ .skip) :
    Sourced here remote (p.resolveConflict profileId resolution) := by
  rcases resolveConflict_cases p profileId hresolution with
    ⟨heq, _⟩ | ⟨before, conflict, after, action, hsplit, hid, hid', hcases⟩
  · rw [heq]
    exact h
  · have hsource := h.conflicts conflict (by simp [hsplit])
    have hrest : Sourced here remote { p with conflicts := before ++ after } := by
      refine { h with conflicts := fun c hc => h.conflicts c ?_ }
      rw [hsplit]
      exact List.Sublist.mem hc (List.Sublist.append_left (List.sublist_cons_self conflict after) _)
    rw [hid] at hsource
    rcases hcases with heq | heq
    · rw [heq]
      exact hrest.upload (hid' ▸ hsource.1)
    · rw [heq]
      exact hrest.download (hid' ▸ hsource.2)

/-- Where no profile is named twice, a resolution leaves no conflict about the profile. -/
theorem mem_conflicts_resolveConflict (hnodup : p.named.Nodup) (profileId : String)
    (hresolution : resolution ≠ .skip) {c : SyncConflict}
    (hc : c ∈ (p.resolveConflict profileId resolution).conflicts) :
    c ∈ p.conflicts ∧ c.profileId ≠ profileId := by
  rcases resolveConflict_cases p profileId hresolution with
    ⟨heq, hnone⟩ | ⟨before, conflict, after, action, hsplit, hid, hid', hcases⟩
  · rw [heq] at hc
    exact ⟨hc, hnone c hc⟩
  · have hrest : c ∈ before ++ after := by
      rcases hcases with heq | heq
      · rw [heq] at hc
        exact hc
      · rw [heq] at hc
        exact hc
    have hids : (before ++ conflict :: after).map SyncConflict.profileId |>.Nodup := by
      rw [← hsplit]
      exact (List.nodup_append.mp hnodup).2.1
    rw [(List.perm_middle.map _).nodup_iff, List.map_cons, List.nodup_cons] at hids
    refine ⟨hsplit ▸ List.Sublist.mem hrest
      (List.Sublist.append_left (List.sublist_cons_self conflict after) _), fun heq => hids.1 ?_⟩
    rw [hid, ← heq]
    exact List.mem_map_of_mem hrest

/-- Conflicts resolved one after the other. -/
def resolved (p : SyncPlan) (resolutions : List (String × ConflictResolution)) : SyncPlan :=
  resolutions.foldl (fun p r => p.resolveConflict r.1 r.2) p

theorem resolved_spec (hsourced : Sourced here remote p) (hnodup : p.named.Nodup)
    (resolutions : List (String × ConflictResolution)) (hall : ∀ r ∈ resolutions, r.2 ≠ .skip) :
    Sourced here remote (resolved p resolutions) ∧ (resolved p resolutions).named.Perm p.named ∧
      ∀ c ∈ (resolved p resolutions).conflicts,
        c ∈ p.conflicts ∧ c.profileId ∉ resolutions.map Prod.fst := by
  induction resolutions generalizing p with
  | nil => exact ⟨hsourced, List.Perm.refl _, fun c hc => ⟨hc, List.not_mem_nil⟩⟩
  | cons r rest ih =>
      -- The names are those of before, so the next resolution finds no name twice either.
      rcases List.forall_mem_cons.mp hall with ⟨hresolution, hrest⟩
      have hperm := named_resolveConflict p r.1 hresolution
      rcases ih (sourced_resolveConflict hsourced r.1 hresolution) (hperm.nodup_iff.mpr hnodup)
        hrest with ⟨hsourced', hperm', hconflicts⟩
      refine ⟨hsourced', hperm'.trans hperm, fun c hc => ?_⟩
      rcases hconflicts c hc with ⟨hmem, hne⟩
      rcases mem_conflicts_resolveConflict hnodup r.1 hresolution hmem with ⟨hold, hne'⟩
      exact ⟨hold, by rw [List.map_cons, List.mem_cons, not_or]; exact ⟨hne', hne⟩⟩

end

/-- A store with these states. -/
def Store.ofStates (states : List ProfileSyncState) (h : UniqueIds states) : Store :=
  ⟨states.map fun s => ⟨s.id, ⟨s.versionHash, s.updatedAt⟩⟩, by
    rw [List.NodupKeys, List.keys, List.map_map]
    exact h⟩

theorem states_ofStates (states : List ProfileSyncState) (h : UniqueIds states) :
    (Store.ofStates states h).states = states := by
  rw [Store.states, Store.ofStates, List.map_map]
  exact List.map_id _

theorem uniqueIds_states (store : Store) : UniqueIds store.states := by
  rw [UniqueIds, Store.states, List.map_map]
  exact store.nodupKeys

theorem hashOf_states (store : Store) (id : String) :
    hashOf store.states id = (store.lookup id).map Version.versionHash := by
  rw [hashOf, getState_states, Option.map_map]
  rfl

theorem lookup_of_not_missing {store : Store} {id : String} (h : ¬ Missing store.states id) :
    ∃ v, store.lookup id = some v := by
  rw [← hashOf_eq_none_iff, hashOf_states, Option.map_eq_none_iff] at h
  exact Option.ne_none_iff_exists'.mp h

/-- A plan that names what differs once, and has no conflicts, leaves nothing that differs. -/
theorem differs_execute (p : SyncPlan) (client server : Store)
    (hsourced : Sourced client.states server.states p) (hnodup : p.named.Nodup)
    (hconflicts : p.conflicts = [])
    (hnamed : ∀ id, Differs client.states server.states id → id ∈ p.named) (id : String) :
    ¬ Differs (execute p client server).1.states (execute p client server).2.states id := by
  rcases lookup_execute p client server id with ⟨hnothing, hup, hdown⟩
  rw [SyncPlan.named, hconflicts, List.map_nil, List.append_nil] at hnodup hnamed
  have hdisjoint := List.disjoint_of_nodup_append hnodup
  rw [differs_iff_hashOf (uniqueIds_states _) (uniqueIds_states _), hashOf_states, hashOf_states,
    ne_eq, not_not]
  by_cases hmem : id ∈ idsOf p.uploads
  · -- It is not downloaded too, so the upload is not undone.
    rcases List.mem_map.mp hmem with ⟨action, haction, rfl⟩
    rcases lookup_of_not_missing (hsourced.uploads action haction) with ⟨v, hv⟩
    rcases hup v hv hmem (hdisjoint hmem) with ⟨hclient, hserver⟩
    rw [hclient, hserver]
  by_cases hmem' : id ∈ idsOf p.downloads
  · rcases List.mem_map.mp hmem' with ⟨action, haction, rfl⟩
    rcases lookup_of_not_missing (hsourced.downloads action haction) with ⟨w, hw⟩
    rcases hdown w hw hmem hmem' with ⟨hclient, hserver⟩
    rw [hclient, hserver]
  · -- The plan does not name the profile, so it did not differ before.
    rcases hnothing hmem hmem' with ⟨hclient, hserver⟩
    rw [hclient, hserver, ← hashOf_states, ← hashOf_states]
    by_contra hne
    have hin := hnamed id
      ((differs_iff_hashOf (uniqueIds_states client) (uniqueIds_states server) id).mpr hne)
    exact (List.mem_append.mp hin).elim hmem hmem'

theorem isEmpty_of_named {p : SyncPlan} (h : ∀ id, id ∉ p.named) : p.isEmpty = true := by
  have hnil := List.eq_nil_iff_forall_not_mem.mpr h
  rw [SyncPlan.named, List.append_eq_nil_iff, List.append_eq_nil_iff, idsOf, idsOf,
    List.map_eq_nil_iff, List.map_eq_nil_iff, List.map_eq_nil_iff] at hnil
  rw [SyncPlan.isEmpty, hnil.1.1, hnil.1.2, hnil.2]
  rfl

/-- A plan names each profile at most once, and those that differ. Carried out after each of
    its conflicts was resolved to one of the versions, in any order, it leaves nothing to plan. -/
theorem plan_exact (strategy : ConflictStrategy) (here remote : List ProfileSyncState)
    (hhere : UniqueIds here) (hremote : UniqueIds remote) :
    (plan strategy here remote).named.Nodup ∧
    (∀ id, id ∈ (plan strategy here remote).named ↔ Differs here remote id) ∧
    ∀ resolutions : List (String × ConflictResolution), (∀ r ∈ resolutions, r.2 ≠ .skip) →
      (∀ c ∈ (plan strategy here remote).conflicts, c.profileId ∈ resolutions.map Prod.fst) →
      ∀ strategy', (plan strategy'
        (execute (resolved (plan strategy here remote) resolutions)
          (Store.ofStates here hhere) (Store.ofStates remote hremote)).1.states
        (execute (resolved (plan strategy here remote) resolutions)
          (Store.ofStates here hhere)
          (Store.ofStates remote hremote)).2.states).isEmpty = true := by
  rcases named_plan strategy hhere hremote with ⟨hnodup, hnamed⟩
  refine ⟨hnodup, hnamed, fun resolutions hall hcover strategy' => ?_⟩
  rcases resolved_spec (sourced_plan strategy here remote) hnodup resolutions hall with
    ⟨hsourced, hperm, hconflicts⟩
  -- A conflict that is left would be about a profile that was resolved.
  have hnone : (resolved (plan strategy here remote) resolutions).conflicts = [] := by
    refine List.eq_nil_iff_forall_not_mem.mpr fun c hc => ?_
    exact (hconflicts c hc).2 (hcover c (hconflicts c hc).1)
  refine isEmpty_of_named fun id => ?_
  rw [(named_plan strategy' (uniqueIds_states _) (uniqueIds_states _)).2 id]
  refine differs_execute _ _ _ ?_ (hperm.nodup_iff.mpr hnodup) hnone (fun id hdiffers => ?_) id
  · rw [states_ofStates, states_ofStates]
    exact hsourced
  · rw [states_ofStates, states_ofStates] at hdiffers
    exact hperm.mem_iff.mpr ((hnamed id).mpr hdiffers)

/-- One profile that is only here, one that is in conflict, and one that is only there. -/
theorem plan_exact_three :
    let here : List ProfileSyncState := [⟨"p1", "a", 1000⟩, ⟨"p2", "b", 2000⟩]
    let remote : List ProfileSyncState := [⟨"p2", "c", 3000⟩, ⟨"p3", "d", 1000⟩]
    (plan .manual here remote).named = ["p1", "p3", "p2"] ∧
      (plan .manual here remote).named.Nodup ∧ Differs here remote "p2" ∧
      ∃ (hhere : UniqueIds here) (hremote : UniqueIds remote), (plan .lastWriteWins
        (execute (resolved (plan .manual here remote) [("p2", .useLocal)])
          (Store.ofStates here hhere) (Store.ofStates remote hremote)).1.states
        (execute (resolved (plan .manual here remote) [("p2", .useLocal)])
          (Store.ofStates here hhere)
          (Store.ofStates remote hremote)).2.states).isEmpty = true := by
  intro here remote
  have hhere : UniqueIds here := by decide
  have hremote : UniqueIds remote := by decide
  rcases plan_exact .manual here remote hhere hremote with ⟨hnodup, hnamed, hresolved⟩
  exact ⟨by decide, hnodup, (hnamed "p2").mp (by decide), hhere, hremote,
    hresolved [("p2", .useLocal)] (by decide) (by decide) .lastWriteWins⟩

end OpenFlight.CloudProfiles
