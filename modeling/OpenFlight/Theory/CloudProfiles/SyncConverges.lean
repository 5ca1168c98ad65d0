import OpenFlight.Core.CloudProfiles.Sync
import OpenFlight.Lib.Run
import Mathlib.Data.Finset.Max

/-!
# Convergence of Profile Synchronisation

Clients that synchronise with one server, each deciding from its own versions and
those of the server, come to agree on the latest version of every profile.

A synchronisation treats each profile on its own, and what it makes of a pair of
versions is `meet`. Where versions differ, the later one wins on both sides. Where
their hashes are the same nothing is done, and where their times are the same the
client wins. Both rules are deliberate, and with them agreement depends on the
versions: two clients with different versions of one time overwrite each other
for ever, and a version that is around with two times may be taken for an older
one.

Where the latest version of a profile is the only one with its time and has no
other, it wins wherever it meets another version. The first round brings it to the
server and the second one to every client.

## Main definitions

* `System`, `syncStep`: The clients and the server, and a step of one client.
* `Held`, `LatestAgrees`: The versions that are around, and the condition on the
  latest ones.

## Theorems

* `server_of_round`, `clients_of_round`: The first and the second round.
* `sync_converges`: Two rounds bring agreement, and there is nothing left to do.
-/

namespace OpenFlight.CloudProfiles

theorem mem_states (store : Store) (s : ProfileSyncState) :
    s ∈ store.states ↔ store.lookup s.id = some ⟨s.versionHash, s.updatedAt⟩ := by
  rw [Store.states, List.mem_map]
  constructor
  · rintro ⟨entry, hentry, rfl⟩
    exact AList.mem_lookup_iff.mpr hentry
  · intro hlookup
    exact ⟨⟨s.id, s.versionHash, s.updatedAt⟩, AList.mem_lookup_iff.mp hlookup, rfl⟩

theorem getState_states (store : Store) (id : String) : getState store.states id =
      (store.lookup id).map fun v => ⟨id, v.versionHash, v.updatedAt⟩ := by
  cases hfound : getState store.states id with
  | none =>
      rw [getState, List.find?_eq_none] at hfound
      cases hlookup : store.lookup id with
      | none => rfl
      | some v =>
          have hin : (⟨id, v.versionHash, v.updatedAt⟩ : ProfileSyncState) ∈ store.states :=
            (mem_states store _).mpr hlookup
          exact absurd (decide_eq_true rfl) (hfound _ (List.mem_reverse.mpr hin))
  | some s =>
      have hid : s.id = id := by
        have hkey := List.find?_some hfound
        exact of_decide_eq_true hkey
      have hin := (mem_states store s).mp (List.mem_reverse.mp (List.mem_of_find?_eq_some hfound))
      rw [hid] at hin
      rw [hin, Option.map_some, ← hid]

/-- The profiles that actions are about. -/
def idsOf (actions : List ProfileAction) : List String :=
  actions.map ProfileAction.profileId

theorem eq_nil_of_idsOf (actions : List ProfileAction) (h : ∀ id, id ∉ idsOf actions) :
    actions = [] := by
  cases actions with
  | nil => rfl
  | cons action rest => exact absurd List.mem_cons_self (h action.profileId)

theorem lookup_copyTo_ne (source target : Store) (action : ProfileAction) (id : String)
    (h : id ≠ action.profileId) : (copyTo source target action).lookup id = target.lookup id := by
  unfold copyTo
  cases source.lookup action.profileId with
  | none => rfl
  | some v => exact AList.lookup_insert_ne h

theorem lookup_copies_of_notMem (source target : Store) (actions : List ProfileAction)
    (id : String) (h : id ∉ idsOf actions) :
    (actions.foldl (copyTo source) target).lookup id = target.lookup id := by
  induction actions generalizing target with
  | nil => rfl
  | cons action rest ih =>
      rw [idsOf, List.map_cons, List.mem_cons, not_or] at h
      rw [List.foldl_cons, ih _ h.2]
      exact lookup_copyTo_ne source target action id h.1

theorem lookup_copies_of_mem (source target : Store) (actions : List ProfileAction)
    (id : String) (v : Version) (hv : source.lookup id = some v) (h : id ∈ idsOf actions) :
    (actions.foldl (copyTo source) target).lookup id = some v := by
  induction actions generalizing target with
  | nil => exact absurd h List.not_mem_nil
  | cons action rest ih =>
      rw [List.foldl_cons]
      -- The last action about the profile decides, and they all copy one version.
      by_cases hrest : id ∈ idsOf rest
      · exact ih _ hrest
      · rw [idsOf, List.map_cons, List.mem_cons] at h
        have hid : id = action.profileId := h.resolve_right hrest
        rw [lookup_copies_of_notMem source _ rest id hrest, copyTo, ← hid, hv]
        exact AList.lookup_insert _

section

/-- The client has a version that wins, or the only one. -/
def Uploads (remote : List ProfileSyncState) (l : ProfileSyncState) : Prop :=
  ∀ r, getState remote l.id = some r → l.versionHash ≠ r.versionHash ∧ r.updatedAt ≤ l.updatedAt

/-- The server has a version that wins. -/
def Downloads (remote : List ProfileSyncState) (l : ProfileSyncState) : Prop :=
  ∃ r, getState remote l.id = some r ∧ l.versionHash ≠ r.versionHash ∧ l.updatedAt < r.updatedAt

theorem planLocal_lastWriteWins (remote : List ProfileSyncState) (p : SyncPlan)
    (l : ProfileSyncState) (id : String) :
    (id ∈ idsOf (planLocal .lastWriteWins remote p l).uploads ↔
      id ∈ idsOf p.uploads ∨ (l.id = id ∧ Uploads remote l)) ∧
    (id ∈ idsOf (planLocal .lastWriteWins remote p l).downloads ↔
      id ∈ idsOf p.downloads ∨ (l.id = id ∧ Downloads remote l)) ∧
    (planLocal .lastWriteWins remote p l).conflicts = p.conflicts := by
  unfold planLocal Uploads Downloads
  cases hremote : getState remote l.id with
  | none => simp [idsOf, eq_comm]
  | some r =>
      by_cases hhash : l.versionHash = r.versionHash
      · simp [hhash]
      · by_cases htime : r.updatedAt ≤ l.updatedAt
        · simp [hhash, htime, idsOf, eq_comm]
        · have hlater : l.updatedAt < r.updatedAt := Nat.lt_of_not_le htime
          simp [hhash, htime, hlater, idsOf, eq_comm]

/-- The first loop of a plan. -/
theorem planLocals_lastWriteWins (remote here : List ProfileSyncState) (p : SyncPlan)
    (id : String) :
    (id ∈ idsOf (here.foldl (planLocal .lastWriteWins remote) p).uploads ↔
      id ∈ idsOf p.uploads ∨ ∃ l ∈ here, l.id = id ∧ Uploads remote l) ∧
    (id ∈ idsOf (here.foldl (planLocal .lastWriteWins remote) p).downloads ↔
      id ∈ idsOf p.downloads ∨ ∃ l ∈ here, l.id = id ∧ Downloads remote l) ∧
    (here.foldl (planLocal .lastWriteWins remote) p).conflicts = p.conflicts := by
  induction here generalizing p with
  | nil => simp
  | cons l rest ih =>
      rcases planLocal_lastWriteWins remote p l id with ⟨huploads, hdownloads, hconflicts⟩
      rcases ih (planLocal .lastWriteWins remote p l) with ⟨ihuploads, ihdownloads, ihconflicts⟩
      rw [List.foldl_cons]
      refine ⟨?_, ?_, ihconflicts.trans hconflicts⟩
      · rw [ihuploads, huploads, List.exists_mem_cons_iff, or_assoc]
      · rw [ihdownloads, hdownloads, List.exists_mem_cons_iff, or_assoc]

theorem planRemote_eq (here : List ProfileSyncState) (p : SyncPlan) (r : ProfileSyncState)
    (id : String) :
    (planRemote here p r).uploads = p.uploads ∧
    (id ∈ idsOf (planRemote here p r).downloads ↔
      id ∈ idsOf p.downloads ∨ (r.id = id ∧ getState here r.id = none)) ∧
    (planRemote here p r).conflicts = p.conflicts := by
  unfold planRemote
  cases hhere : getState here r.id with
  | none => simp [idsOf, eq_comm]
  | some l => simp

/-- The second loop of a plan. -/
theorem planRemotes_eq (here remote : List ProfileSyncState) (p : SyncPlan) (id : String) :
    (remote.foldl (planRemote here) p).uploads = p.uploads ∧
    (id ∈ idsOf (remote.foldl (planRemote here) p).downloads ↔
      id ∈ idsOf p.downloads ∨ ∃ r ∈ remote, r.id = id ∧ getState here r.id = none) ∧
    (remote.foldl (planRemote here) p).conflicts = p.conflicts := by
  induction remote generalizing p with
  | nil => simp
  | cons r rest ih =>
      rcases planRemote_eq here p r id with ⟨huploads, hdownloads, hconflicts⟩
      rcases ih (planRemote here p r) with ⟨ihuploads, ihdownloads, ihconflicts⟩
      rw [List.foldl_cons]
      refine ⟨ihuploads.trans huploads, ?_, ihconflicts.trans hconflicts⟩
      rw [ihdownloads, hdownloads, List.exists_mem_cons_iff, or_assoc]

variable (client : Store) (server : Store)

theorem mem_uploads (id : String) :
    id ∈ idsOf (plan .lastWriteWins client.states server.states).uploads ↔
      ∃ v, client.lookup id = some v ∧ ∀ w, server.lookup id = some w →
        v.versionHash ≠ w.versionHash ∧ w.updatedAt ≤ v.updatedAt := by
  rw [plan, (planRemotes_eq client.states server.states _ id).1,
    (planLocals_lastWriteWins server.states client.states SyncPlan.empty id).1]
  constructor
  · rintro (hnone | ⟨l, hl, rfl, huploads⟩)
    · exact absurd hnone List.not_mem_nil
    · refine ⟨_, (mem_states client l).mp hl, fun w hw => ?_⟩
      refine huploads ⟨l.id, w.versionHash, w.updatedAt⟩ ?_
      rw [getState_states, hw, Option.map_some]
  · rintro ⟨v, hv, hwins⟩
    refine .inr ⟨⟨id, v.versionHash, v.updatedAt⟩, (mem_states client _).mpr hv, rfl, ?_⟩
    intro r hr
    rw [getState_states, Option.map_eq_some_iff] at hr
    rcases hr with ⟨w, hw, rfl⟩
    exact hwins w hw

theorem mem_downloads (id : String) :
    id ∈ idsOf (plan .lastWriteWins client.states server.states).downloads ↔
      (∃ v w, client.lookup id = some v ∧ server.lookup id = some w ∧
        v.versionHash ≠ w.versionHash ∧ v.updatedAt < w.updatedAt) ∨
      (client.lookup id = none ∧ server.lookup id ≠ none) := by
  rw [plan, (planRemotes_eq client.states server.states _ id).2.1,
    (planLocals_lastWriteWins server.states client.states SyncPlan.empty id).2.1]
  constructor
  · rintro ((hnone | ⟨l, hl, rfl, r, hr, hwins⟩) | ⟨r, hr, rfl, hnone⟩)
    · exact absurd hnone List.not_mem_nil
    · rw [getState_states, Option.map_eq_some_iff] at hr
      rcases hr with ⟨w, hw, rfl⟩
      exact .inl ⟨_, w, (mem_states client l).mp hl, hw, hwins⟩
    · rw [getState_states, Option.map_eq_none_iff] at hnone
      refine .inr ⟨hnone, ?_⟩
      rw [(mem_states server r).mp hr]
      exact Option.some_ne_none _
  · rintro (⟨v, w, hv, hw, hwins⟩ | ⟨hnone, hsome⟩)
    · refine .inl (.inr ⟨⟨id, v.versionHash, v.updatedAt⟩, (mem_states client _).mpr hv, rfl,
        ⟨id, w.versionHash, w.updatedAt⟩, ?_, hwins⟩)
      rw [getState_states, hw, Option.map_some]
    · rcases Option.ne_none_iff_exists'.mp hsome with ⟨w, hw⟩
      refine .inr ⟨⟨id, w.versionHash, w.updatedAt⟩, (mem_states server _).mpr hw, rfl, ?_⟩
      rw [getState_states, hnone, Option.map_none]

/-- Stores that agree have nothing to do. -/
theorem isEmpty_plan (h : ∀ id, client.lookup id = server.lookup id) :
    (plan .lastWriteWins client.states server.states).isEmpty = true := by
  have huploads : (plan .lastWriteWins client.states server.states).uploads = [] := by
    refine eq_nil_of_idsOf _ fun id hid => ?_
    rcases (mem_uploads client server id).mp hid with ⟨v, hv, hwins⟩
    exact (hwins v ((h id).symm.trans hv)).1 rfl
  have hdownloads : (plan .lastWriteWins client.states server.states).downloads = [] := by
    refine eq_nil_of_idsOf _ fun id hid => ?_
    rcases (mem_downloads client server id).mp hid with ⟨v, w, hv, hw, hhash, -⟩ | ⟨hnone, hsome⟩
    · rw [h id, hw, Option.some.injEq] at hv
      exact hhash (congrArg Version.versionHash hv.symm)
    · exact hsome ((h id).symm.trans hnone)
  have hconflicts : (plan .lastWriteWins client.states server.states).conflicts = [] := by
    rw [plan, (planRemotes_eq client.states server.states _ "").2.2,
      (planLocals_lastWriteWins server.states client.states SyncPlan.empty "").2.2]
    rfl
  rw [SyncPlan.isEmpty, huploads, hdownloads, hconflicts]
  rfl

/-- What a synchronisation makes of the versions of a profile at the client and at the server. -/
def meet : Option Version → Option Version → Option Version × Option Version
  | none, none => (none, none)
  | some v, none => (some v, some v)
  | none, some w => (some w, some w)
  | some v, some w =>
      if v.versionHash = w.versionHash then (some v, some w)
      else if w.updatedAt ≤ v.updatedAt then (some v, some v)
      else (some w, some w)

/-- What executing a plan makes of one profile. -/
theorem lookup_execute (p : SyncPlan) (client server : Store) (id : String) :
    (id ∉ idsOf p.uploads → id ∉ idsOf p.downloads →
      (execute p client server).1.lookup id = client.lookup id ∧
        (execute p client server).2.lookup id = server.lookup id) ∧
    (∀ v, client.lookup id = some v → id ∈ idsOf p.uploads → id ∉ idsOf p.downloads →
      (execute p client server).1.lookup id = some v ∧
        (execute p client server).2.lookup id = some v) ∧
    (∀ w, server.lookup id = some w → id ∉ idsOf p.uploads → id ∈ idsOf p.downloads →
      (execute p client server).1.lookup id = some w ∧
        (execute p client server).2.lookup id = some w) := by
  unfold execute
  refine ⟨?_, ?_, ?_⟩
  · intro hup hdown
    exact ⟨lookup_copies_of_notMem _ _ _ _ hdown, lookup_copies_of_notMem _ _ _ _ hup⟩
  · intro v hv hup hdown
    exact ⟨(lookup_copies_of_notMem _ _ _ _ hdown).trans hv,
      lookup_copies_of_mem _ _ _ _ v hv hup⟩
  · intro w hw hup hdown
    -- The downloads read the server as the uploads have left it.
    have hserver := (lookup_copies_of_notMem client server p.uploads id hup).trans hw
    exact ⟨lookup_copies_of_mem _ _ _ _ w hserver hdown, hserver⟩

/-- A synchronisation treats each profile on its own. -/
theorem lookup_sync (id : String) : (sync .lastWriteWins client server).1.lookup id =
        (meet (client.lookup id) (server.lookup id)).1 ∧
    (sync .lastWriteWins client server).2.lookup id =
        (meet (client.lookup id) (server.lookup id)).2 := by
  have huploads := mem_uploads client server id
  have hdownloads := mem_downloads client server id
  rcases lookup_execute (plan .lastWriteWins client.states server.states) client server id with
    ⟨hnothing, hup, hdown⟩
  unfold sync
  cases hv : client.lookup id with
  | none =>
      cases hw : server.lookup id with
      | none =>
          simp only [hv, hw] at huploads hdownloads hnothing
          exact hnothing (by simp [huploads]) (by simp [hdownloads])
      | some w =>
          simp only [hv, hw] at huploads hdownloads
          exact hdown w hw (by simp [huploads]) (by simp [hdownloads])
  | some v =>
      cases hw : server.lookup id with
      | none =>
          simp only [hv, hw] at huploads hdownloads
          exact hup v hv (by simp [huploads]) (by simp [hdownloads])
      | some w =>
          simp only [hv, hw, Option.some.injEq] at huploads hdownloads hnothing
          simp only [meet]
          by_cases hhash : v.versionHash = w.versionHash
          · rw [if_pos hhash]
            exact hnothing (by simp [huploads, hhash]) (by simp [hdownloads, hhash])
          rw [if_neg hhash]
          by_cases htime : w.updatedAt ≤ v.updatedAt
          · rw [if_pos htime]
            exact hup v hv (by simp [huploads, hhash, htime]) (by simp [hdownloads, htime])
          · rw [if_neg htime]
            have hlater : v.updatedAt < w.updatedAt := Nat.lt_of_not_le htime
            exact hdown w hw (by simp [huploads, htime]) (by simp [hdownloads, hhash, hlater])

end

section

variable {ι : Type}

/-- Clients and a server. -/
structure System (ι : Type) where
  clients : ι → Store
  server : Store

/-- A version of a profile is at a client or at the server. -/
def Held (sys : System ι) (id : String) (v : Version) : Prop :=
  (∃ i, (sys.clients i).lookup id = some v) ∨ sys.server.lookup id = some v

/-- For every profile, what has the hash of the latest version is what has its time. -/
def LatestAgrees (sys : System ι) : Prop :=
  ∀ id v, Held sys id v → (∀ w, Held sys id w → w.updatedAt ≤ v.updatedAt) →
    ∀ w, Held sys id w → (w.versionHash = v.versionHash ↔ w.updatedAt = v.updatedAt)

/-- Every other version of the profile has another hash and is older. -/
def Wins (sys : System ι) (id : String) (v : Version) : Prop :=
  ∀ w, Held sys id w → w ≠ v → w.versionHash ≠ v.versionHash ∧ w.updatedAt < v.updatedAt

theorem wins_of_latest (sys : System ι) (h : LatestAgrees sys) (id : String) (v : Version)
    (hv : Held sys id v) (hlatest : ∀ w, Held sys id w → w.updatedAt ≤ v.updatedAt) :
    Wins sys id v := by
  intro w hw hne
  have hiff := h id v hv hlatest w hw
  have htime : w.updatedAt ≠ v.updatedAt := by
    intro htime
    refine hne ?_
    cases w with
    | mk hash time =>
        cases v with
        | mk hash' time' =>
            rw [Version.mk.injEq]
            exact ⟨hiff.mpr htime, htime⟩
  exact ⟨fun hhash => htime (hiff.mp hhash), Nat.lt_of_le_of_ne (hlatest w hw) htime⟩

theorem meet_mem (c s : Option Version) (v : Version)
    (h : (meet c s).1 = some v ∨ (meet c s).2 = some v) : c = some v ∨ s = some v := by
  cases c with
  | none =>
      cases s with
      | none => exact h
      | some w => exact .inr (h.elim (fun h => h) fun h => h)
  | some u =>
      cases s with
      | none => exact .inl (h.elim (fun h => h) fun h => h)
      | some w =>
          simp only [meet] at h
          split at h
          · exact h
          · split at h
            · exact .inl (h.elim (fun h => h) fun h => h)
            · exact .inr (h.elim (fun h => h) fun h => h)

/-- The winner is kept where it meets another version, on either side. -/
theorem meet_of_wins (sys : System ι) (id : String) (v : Version) (h : Wins sys id v)
    (c s : Option Version) (hc : ∀ w, c = some w → Held sys id w)
    (hs : ∀ w, s = some w → Held sys id w) (hv : c = some v ∨ s = some v) :
    meet c s = (some v, some v) := by
  rcases hv with rfl | rfl
  · cases s with
    | none => rfl
    | some w =>
        by_cases hw : w = v
        · rw [hw, meet, if_pos rfl]
        · -- At the client the winner also wins a tie, here it is later.
          rcases h w (hs w rfl) hw with ⟨hhash, htime⟩
          rw [meet, if_neg (Ne.symm hhash), if_pos (Nat.le_of_lt htime)]
  · cases c with
    | none => rfl
    | some w =>
        by_cases hw : w = v
        · rw [hw, meet, if_pos rfl]
        · rcases h w (hc w rfl) hw with ⟨hhash, htime⟩
          rw [meet, if_neg hhash, if_neg (Nat.not_le.mpr htime)]

/-- With finitely many clients one of the versions is the latest. -/
theorem exists_latest (sys : System ι) (all : List ι) (hall : ∀ i, i ∈ all) (id : String)
    (h : ∃ v, Held sys id v) :
    ∃ v, Held sys id v ∧ ∀ w, Held sys id w → w.updatedAt ≤ v.updatedAt := by
  have hmem (v : Version) : Held sys id v ↔
      v ∈ ((sys.server.lookup id).toList ++
        all.filterMap fun i => (sys.clients i).lookup id).toFinset := by
    rw [List.mem_toFinset, List.mem_append, Option.mem_toList, List.mem_filterMap, Held, or_comm]
    simp [hall]
  rcases h with ⟨u, hu⟩
  rcases Finset.exists_max_image _ Version.updatedAt ⟨u, (hmem u).mp hu⟩ with ⟨v, hv, hlatest⟩
  exact ⟨v, (hmem v).mpr hv, fun w hw => hlatest w ((hmem w).mp hw)⟩

variable [DecidableEq ι]

/-- A client synchronises. -/
def syncStep (sys : System ι) (i : ι) : System ι :=
  let result := sync .lastWriteWins (sys.clients i) sys.server
  { clients := Function.update sys.clients i result.1, server := result.2 }

variable (sys : System ι)

/-- A step copies versions, it makes none. -/
theorem held_syncStep (i : ι) (id : String) (v : Version) (h : Held (syncStep sys i) id v) :
    Held sys id v := by
  rcases lookup_sync (sys.clients i) sys.server id with ⟨hclient, hserver⟩
  have hcopied (hv : (meet ((sys.clients i).lookup id) (sys.server.lookup id)).1 = some v ∨
      (meet ((sys.clients i).lookup id) (sys.server.lookup id)).2 = some v) : Held sys id v := by
    rcases meet_mem _ _ v hv with hv | hv
    · exact .inl ⟨i, hv⟩
    · exact .inr hv
  rcases h with ⟨j, hj⟩ | hnew
  · by_cases hji : j = i
    · rw [hji, syncStep] at hj
      simp only [Function.update_self] at hj
      exact hcopied (.inl (hclient.symm.trans hj))
    · rw [syncStep] at hj
      simp only [Function.update_of_ne hji] at hj
      exact .inl ⟨j, hj⟩
  · exact hcopied (.inr (hserver.symm.trans hnew))

/-- No step makes a version of its own. -/
theorem held_run (order : List ι) (id : String) (v : Version)
    (h : Held (run syncStep sys order) id v) : Held sys id v := by
  have hinvariant := run_invariant syncStep (fun sys' => ∀ v, Held sys' id v → Held sys id v)
    (fun sys' i hsys' v hv => hsys' v (held_syncStep sys' i id v hv)) sys order (fun _ h => h)
  exact hinvariant v h

theorem wins_syncStep (i : ι) (id : String) (v : Version) (h : Wins sys id v) :
    Wins (syncStep sys i) id v :=
  fun w hw => h w (held_syncStep sys i id w hw)

/-- A client that has the winner, or finds it at the server, leaves it at both. -/
theorem syncStep_of_wins (i : ι) (id : String) (v : Version) (h : Wins sys id v)
    (hv : (sys.clients i).lookup id = some v ∨ sys.server.lookup id = some v) :
    ((syncStep sys i).clients i).lookup id = some v ∧
      (syncStep sys i).server.lookup id = some v := by
  have hmeet := meet_of_wins sys id v h _ _ (fun w hw => .inl ⟨i, hw⟩) (fun w hw => .inr hw) hv
  rcases lookup_sync (sys.clients i) sys.server id with ⟨hclient, hserver⟩
  rw [hmeet] at hclient hserver
  refine ⟨?_, hserver⟩
  rw [syncStep]
  simp only [Function.update_self]
  exact hclient

theorem clients_syncStep_ne (i j : ι) (h : j ≠ i) : (syncStep sys i).clients j = sys.clients j := by
  rw [syncStep]
  simp only [Function.update_of_ne h]

/-- A round in which a client with the winner takes part brings it to the server. -/
theorem server_of_round (id : String) (v : Version) (h : Wins sys id v) (order : List ι)
    (hv : sys.server.lookup id = some v ∨ ∃ i ∈ order, (sys.clients i).lookup id = some v) :
    (run syncStep sys order).server.lookup id = some v := by
  induction order generalizing sys with
  | nil =>
      rcases hv with hv | ⟨i, hi, -⟩
      · exact hv
      · exact absurd hi List.not_mem_nil
  | cons j rest ih =>
      rw [run_cons]
      refine ih (syncStep sys j) (wins_syncStep sys j id v h) ?_
      rcases hv with hv | ⟨i, hi, hv⟩
      · exact .inl (syncStep_of_wins sys j id v h (.inr hv)).2
      · by_cases hij : i = j
        · rw [hij] at hv
          exact .inl (syncStep_of_wins sys j id v h (.inl hv)).2
        · refine .inr ⟨i, (List.mem_cons.mp hi).resolve_left hij, ?_⟩
          rw [clients_syncStep_ne sys j i hij]
          exact hv

/-- Once the winner is at the server it comes to every client that takes part. -/
theorem clients_of_round (id : String) (v : Version) (h : Wins sys id v)
    (hserver : sys.server.lookup id = some v) (order : List ι) (i : ι)
    (hi : i ∈ order ∨ (sys.clients i).lookup id = some v) :
    ((run syncStep sys order).clients i).lookup id = some v := by
  induction order generalizing sys with
  | nil => exact hi.resolve_left List.not_mem_nil
  | cons j rest ih =>
      rcases syncStep_of_wins sys j id v h (.inr hserver) with ⟨hclient, hserver'⟩
      rw [run_cons]
      refine ih (syncStep sys j) (wins_syncStep sys j id v h) hserver' ?_
      by_cases hij : i = j
      · rw [hij]
        exact .inr hclient
      · rw [clients_syncStep_ne sys j i hij]
        exact hi.imp_left fun hmem => (List.mem_cons.mp hmem).resolve_left hij

/-- Where the latest versions agree, two rounds bring every client and the server
    to the same version of every profile, and there is nothing left to plan, however
    often it is synchronised from then on. -/
theorem sync_converges (sys : System ι) (hlatest : LatestAgrees sys)
    (first second later : List ι) (hfirst : ∀ i, i ∈ first) (hsecond : ∀ i, i ∈ second) :
    (∀ i id, ((run syncStep sys (first ++ second ++ later)).clients i).lookup id =
      (run syncStep sys (first ++ second ++ later)).server.lookup id) ∧
    ∀ i, (plan .lastWriteWins ((run syncStep sys (first ++ second ++ later)).clients i).states
      (run syncStep sys (first ++ second ++ later)).server.states).isEmpty = true := by
  have hagree (i : ι) (id : String) :
      ((run syncStep sys (first ++ second ++ later)).clients i).lookup id =
        (run syncStep sys (first ++ second ++ later)).server.lookup id := by
    by_cases hheld : ∃ v, Held sys id v
    · rcases exists_latest sys first hfirst id hheld with ⟨v, hv, hmax⟩
      -- The first round brings the winner to the server, the second to the clients.
      have hwins := wins_of_latest sys hlatest id v hv hmax
      have hwins' : Wins (run syncStep sys first) id v :=
        fun w hw => hwins w (held_run sys first id w hw)
      have hserver : (run syncStep sys first).server.lookup id = some v := by
        refine server_of_round sys id v hwins first ?_
        rcases hv with ⟨j, hj⟩ | hv
        · exact .inr ⟨j, hfirst j, hj⟩
        · exact .inl hv
      rw [List.append_assoc, run_append]
      rw [clients_of_round _ id v hwins' hserver (second ++ later) i
          (.inl (List.mem_append_left later (hsecond i))),
        server_of_round _ id v hwins' (second ++ later) (.inl hserver)]
    · -- Nobody has the profile, and nobody gets it.
      have hnone (s : Option Version) (hs : ∀ v, s = some v →
          Held (run syncStep sys (first ++ second ++ later)) id v) : s = none := by
        cases s with
        | none => rfl
        | some v => exact absurd ⟨v, held_run sys _ id v (hs v rfl)⟩ hheld
      rw [hnone _ fun v hv => .inl ⟨i, hv⟩, hnone _ fun v hv => .inr hv]
  exact ⟨hagree, fun i => isEmpty_plan _ _ (hagree i)⟩

/-- Clients that each have one version of one profile. -/
def oneProfile (versions : ι → Version) : System ι :=
  { clients := fun i => AList.singleton "p1" (versions i), server := ∅ }

omit [DecidableEq ι] in
theorem held_oneProfile (versions : ι → Version) (id : String) (v : Version)
    (h : Held (oneProfile versions) id v) : ∃ i, v = versions i := by
  rcases h with ⟨i, hi⟩ | hserver
  · have hentry : (⟨id, v⟩ : Sigma fun _ : String => Version) ∈ [⟨"p1", versions i⟩] :=
      AList.mem_lookup_iff.mp hi
    have heq := List.mem_singleton.mp hentry
    rw [Sigma.mk.injEq] at heq
    exact ⟨i, eq_of_heq heq.2⟩
  · exact absurd hserver.symm (Option.some_ne_none v)

/-- An older and a newer version. -/
def olderAndNewer : Bool → Version
  | false => ⟨"a", 1000⟩
  | true => ⟨"b", 2000⟩

theorem sync_converges_two : LatestAgrees (oneProfile olderAndNewer) ∧
    ∀ i id, ((run syncStep (oneProfile olderAndNewer)
        ([false, true] ++ [false, true] ++ [])).clients i).lookup id =
      (run syncStep (oneProfile olderAndNewer)
        ([false, true] ++ [false, true] ++ [])).server.lookup id := by
  have hlatest : LatestAgrees (oneProfile olderAndNewer) := by
    intro id v hv _ w hw
    have hpairs : ∀ i j, ((olderAndNewer i).versionHash = (olderAndNewer j).versionHash ↔
        (olderAndNewer i).updatedAt = (olderAndNewer j).updatedAt) := by
      decide
    rcases held_oneProfile olderAndNewer id v hv with ⟨i, rfl⟩
    rcases held_oneProfile olderAndNewer id w hw with ⟨j, rfl⟩
    exact hpairs j i
  exact ⟨hlatest, (sync_converges (oneProfile olderAndNewer) hlatest [false, true] [false, true] []
    (by decide) (by decide)).1⟩

/-- Different versions of one time. -/
def sameTime : Bool → Version
  | false => ⟨"a", 1000⟩
  | true => ⟨"b", 1000⟩

/-- A version with two times, and one between them. -/
def twoTimes : Fin 3 → Version
  | 0 => ⟨"a", 1000⟩
  | 1 => ⟨"a", 3000⟩
  | 2 => ⟨"b", 2000⟩

/-- Two rounds do not bring agreement where different versions have one time, and
    where one version has two. -/
theorem sync_disagrees : (¬ ∀ i id, ((run syncStep (oneProfile sameTime)
        ([false, true] ++ [false, true])).clients i).lookup id =
      (run syncStep (oneProfile sameTime) ([false, true] ++ [false, true])).server.lookup id) ∧
    ¬ ∀ i id, ((run syncStep (oneProfile twoTimes)
        ([0, 1, 2] ++ [0, 1, 2])).clients i).lookup id =
      (run syncStep (oneProfile twoTimes) ([0, 1, 2] ++ [0, 1, 2])).server.lookup id := by
  constructor
  · intro h
    exact absurd (h false "p1") (by decide)
  · intro h
    exact absurd (h 0 "p1") (by decide)

end

end OpenFlight.CloudProfiles
