import Mathlib.Data.Finmap

/-!
# Overlays of Optional Values and of Hash Maps

A configuration in layers is read from the lowest layer up: a value that a
higher layer sets is combined with the one below it, and a value it leaves out
is taken from below. `overlay` is that rule for one optional value, with the
combination as a parameter, and `overlayEntries` the loop that carries it out
on a map, one entry of the upper layer after the other.

A hash map is a finite map, and two are equal when every lookup agrees. The
order in which it is iterated is not a property of the map, so a loop over one
takes an `Iteration`: some enumeration of the entries of every map. What a loop
computes may not depend on it.

A combination is lawful if it is associative and idempotent, and takes the
upper value where there is none below. Overlaying by it is then a monoid on
optional values and on maps, with idempotent elements, and overlaying maps is
itself a lawful combination, so layers nest.

## Main definitions

* `HashMap`, `Iteration`: Maps and the orders of going through them.
* `overlay`, `overlayEntries`: One optional value over another, one map over
  another.
* `LawfulCombine`: The laws of a combination.

## Theorems

* `overlay_assoc`, `overlay_self`: The laws, for optional values.
* `lawfulCombine_overlayEntries`: Maps that may be absent are overlaid lawfully.
-/

namespace OpenFlight

/-- A hash map, as far as its contents go. -/
abbrev HashMap (κ ν : Type) := Finmap fun _ : κ => ν

/-- An order of iteration: the entries of every map, in some order. -/
structure Iteration (κ ν : Type) where
  entries : HashMap κ ν → List (Sigma fun _ : κ => ν)
  perm : ∀ m, (entries m : Multiset (Sigma fun _ : κ => ν)) = m.entries

noncomputable instance (κ ν : Type) : Inhabited (Iteration κ ν) :=
  ⟨⟨fun m => m.entries.toList, fun m => m.entries.coe_toList⟩⟩

section

variable {ν : Type}

/-- An optional value over another; `combine` is given what is below. -/
def overlay (combine : Option ν → ν → ν) (below : Option ν) : Option ν → Option ν
  | none => below
  | some v => some (combine below v)

/-- A combination that layers can be built from. -/
structure LawfulCombine (combine : Option ν → ν → ν) : Prop where
  bottom : ∀ v, combine none v = v
  assoc : ∀ u v w,
    combine (some (combine (some u) v)) w = combine (some u) (combine (some v) w)
  self : ∀ v, combine (some v) v = v

/-- The upper value replaces the lower one. -/
theorem lawfulCombine_replace : LawfulCombine fun (_ : Option ν) (v : ν) => v :=
  ⟨fun _ => rfl, fun _ _ _ => rfl, fun _ => rfl⟩

variable {combine : Option ν → ν → ν}

theorem overlay_none_left (h : LawfulCombine combine) (x : Option ν) :
    overlay combine none x = x := by
  cases x with
  | none => rfl
  | some v => exact congrArg some (h.bottom v)

theorem overlay_assoc (h : LawfulCombine combine) (x y z : Option ν) :
    overlay combine (overlay combine x y) z = overlay combine x (overlay combine y z) := by
  cases z with
  | none => rfl
  | some w =>
      cases y with
      | none => simp only [overlay, h.bottom]
      | some v =>
          cases x with
          | none => simp only [overlay, h.bottom]
          | some u => exact congrArg some (h.assoc u v w)

theorem overlay_self (h : LawfulCombine combine) (x : Option ν) : overlay combine x x = x := by
  cases x with
  | none => rfl
  | some v => exact congrArg some (h.self v)

end

section

variable {κ ν : Type} [DecidableEq κ]

omit [DecidableEq κ] in
theorem Iteration.nodupKeys (order : Iteration κ ν) (m : HashMap κ ν) :
    (order.entries m).NodupKeys := by
  rw [← Multiset.coe_nodupKeys, order.perm]
  exact m.nodupKeys

/-- Whatever the order, an entry is found under its key. -/
theorem Iteration.dlookup_entries (order : Iteration κ ν) (m : HashMap κ ν) (k : κ) :
    (order.entries m).dlookup k = m.lookup k := by
  have heq : (⟨order.entries m, order.nodupKeys m⟩ : AList fun _ : κ => ν).toFinmap = m :=
    Finmap.ext (order.perm m)
  exact congrArg (Finmap.lookup k) heq

/-- The entries that are gone through are those of the map. -/
theorem Iteration.mem_entries (order : Iteration κ ν) (m : HashMap κ ν) (k : κ) (v : ν) :
    (⟨k, v⟩ : Sigma fun _ : κ => ν) ∈ order.entries m ↔ m.lookup k = some v := by
  rw [← Multiset.mem_coe, order.perm, ← Finmap.mem_lookup_iff, Option.mem_def]

omit [DecidableEq κ] in
@[simp]
theorem Iteration.entries_empty (order : Iteration κ ν) : order.entries ∅ = [] :=
  (Multiset.coe_eq_zero _).mp (order.perm ∅)

omit [DecidableEq κ] in
@[simp]
theorem Iteration.entries_singleton (order : Iteration κ ν) (k : κ) (v : ν) :
    order.entries (Finmap.singleton k v) = [⟨k, v⟩] :=
  Multiset.coe_eq_singleton.mp (order.perm (Finmap.singleton k v))

/-- Every value replaced by its image. -/
def mapValues {ν' : Type} (f : ν → ν') (m : HashMap κ ν) : HashMap κ ν' where
  entries := m.entries.map fun e => ⟨e.1, f e.2⟩
  nodupKeys := by
    rw [← Multiset.nodup_keys, Multiset.keys, Multiset.map_map]
    exact Multiset.nodup_keys.mpr m.nodupKeys

theorem lookup_mapValues {ν' : Type} (f : ν → ν') (m : HashMap κ ν) (k : κ) :
    (mapValues f m).lookup k = (m.lookup k).map f := by
  refine Option.ext fun v => ?_
  rw [← Option.mem_def, Finmap.mem_lookup_iff, Option.map_eq_some_iff]
  simp only [mapValues, Multiset.mem_map]
  constructor
  · rintro ⟨⟨k', v'⟩, hmem, heq⟩
    obtain ⟨rfl, hv⟩ := Sigma.mk.inj_iff.mp heq
    exact ⟨v', Finmap.mem_lookup_iff.mpr hmem, eq_of_heq hv⟩
  · rintro ⟨v', hlookup, rfl⟩
    exact ⟨⟨k, v'⟩, Finmap.mem_lookup_iff.mp hlookup, rfl⟩

/-- The entries that pass a test. -/
def retainEntries (keep : κ → ν → Bool) (m : HashMap κ ν) : HashMap κ ν where
  entries := m.entries.filter fun e => keep e.1 e.2
  nodupKeys := by
    rw [← Multiset.nodup_keys]
    exact Multiset.nodup_of_le (Multiset.map_le_map (Multiset.filter_le _ _))
      (Multiset.nodup_keys.mpr m.nodupKeys)

theorem lookup_retainEntries (keep : κ → ν → Bool) (m : HashMap κ ν) (k : κ) :
    (retainEntries keep m).lookup k = (m.lookup k).filter (keep k) := by
  refine Option.ext fun v => ?_
  rw [← Option.mem_def, Finmap.mem_lookup_iff, Option.filter_eq_some_iff, ← Option.mem_def,
    Finmap.mem_lookup_iff]
  exact Multiset.mem_filter

/-- The values that a list has for its keys, written one after the other; a
    key without a value is left alone. -/
def insertSome (m : HashMap κ ν) (entries : List (κ × Option ν)) : HashMap κ ν :=
  entries.foldl (fun m entry => match entry.2 with
    | some v => m.insert entry.1 v
    | none => m) m

theorem lookup_insertSome_of_not_mem (m : HashMap κ ν) (entries : List (κ × Option ν)) (k : κ)
    (h : k ∉ entries.map Prod.fst) : (insertSome m entries).lookup k = m.lookup k := by
  induction entries generalizing m with
  | nil => rfl
  | cons entry rest ih =>
      rcases entry with ⟨k', v⟩
      rw [List.map_cons, List.mem_cons, not_or] at h
      cases v with
      | none => exact ih m h.2
      | some v =>
          have hrest := ih (m.insert k' v) h.2
          rw [Finmap.lookup_insert_of_ne m h.1] at hrest
          exact hrest

/-- A list with distinct keys is written key by key. -/
theorem lookup_insertSome_of_mem (m : HashMap κ ν) (entries : List (κ × Option ν))
    (hnodup : (entries.map Prod.fst).Nodup) (k : κ) (v : Option ν) (h : (k, v) ∈ entries) :
    (insertSome m entries).lookup k = v.or (m.lookup k) := by
  induction entries generalizing m with
  | nil => exact absurd h List.not_mem_nil
  | cons entry rest ih =>
      rw [List.map_cons, List.nodup_cons] at hnodup
      rcases List.mem_cons.mp h with rfl | hrest
      · -- The keys are distinct, so nothing behind this entry touches its key.
        cases v with
        | none => exact lookup_insertSome_of_not_mem m rest k hnodup.1
        | some v =>
            have hkept := lookup_insertSome_of_not_mem (m.insert k v) rest k hnodup.1
            rw [Finmap.lookup_insert] at hkept
            exact hkept
      · have hne : k ≠ entry.1 := by
          intro heq
          rw [← heq] at hnodup
          exact hnodup.1 (List.mem_map_of_mem hrest)
        rcases entry with ⟨k', v'⟩
        cases v' with
        | none => exact ih m hnodup.2 hrest
        | some v' =>
            have hlater := ih (m.insert k' v') hnodup.2 hrest
            rw [Finmap.lookup_insert_of_ne m hne] at hlater
            exact hlater

/-- One turn of the loop: an entry of the upper map goes into the lower one. -/
def overlayEntry (combine : Option ν → ν → ν) (below : HashMap κ ν)
    (entry : Sigma fun _ : κ => ν) : HashMap κ ν :=
  below.insert entry.1 (combine (below.lookup entry.1) entry.2)

/-- The loop over the upper map. -/
def overlayEntries (combine : Option ν → ν → ν) (order : Iteration κ ν)
    (below above : HashMap κ ν) : HashMap κ ν :=
  (order.entries above).foldl (overlayEntry combine) below

variable (combine : Option ν → ν → ν)

theorem lookup_foldl_overlayEntry (entries : List (Sigma fun _ : κ => ν))
    (hnodup : entries.NodupKeys) (below : HashMap κ ν) (k : κ) :
    (entries.foldl (overlayEntry combine) below).lookup k =
      overlay combine (below.lookup k) (entries.dlookup k) := by
  induction entries generalizing below with
  | nil => rfl
  | cons entry rest ih =>
      rcases entry with ⟨k', v⟩
      rw [List.nodupKeys_cons] at hnodup
      rw [List.foldl_cons, ih hnodup.2]
      unfold overlayEntry
      by_cases hk : k = k'
      · -- The key occurs only once, so the turns after this one leave it alone.
        subst hk
        rw [List.dlookup_eq_none.mpr hnodup.1, List.dlookup_cons_eq, Finmap.lookup_insert]
        rfl
      · rw [List.dlookup_cons_ne _ _ hk, Finmap.lookup_insert_of_ne _ hk]

/-- A map is overlaid key by key, in every order. -/
theorem lookup_overlayEntries (order : Iteration κ ν) (below above : HashMap κ ν) (k : κ) :
    (overlayEntries combine order below above).lookup k =
      overlay combine (below.lookup k) (above.lookup k) := by
  unfold overlayEntries
  rw [lookup_foldl_overlayEntry combine _ (order.nodupKeys above), order.dlookup_entries]

variable {combine}

theorem overlayEntries_assoc (h : LawfulCombine combine) (o₁ o₂ o₃ o₄ : Iteration κ ν)
    (x y z : HashMap κ ν) :
    overlayEntries combine o₂ (overlayEntries combine o₁ x y) z =
      overlayEntries combine o₄ x (overlayEntries combine o₃ y z) := by
  apply Finmap.ext_lookup
  intro k
  simp only [lookup_overlayEntries, overlay_assoc h]

theorem overlayEntries_self (h : LawfulCombine combine) (order : Iteration κ ν)
    (x : HashMap κ ν) : overlayEntries combine order x x = x := by
  apply Finmap.ext_lookup
  intro k
  rw [lookup_overlayEntries, overlay_self h]

theorem overlayEntries_empty_left (h : LawfulCombine combine) (order : Iteration κ ν)
    (x : HashMap κ ν) : overlayEntries combine order ∅ x = x := by
  apply Finmap.ext_lookup
  intro k
  rw [lookup_overlayEntries, Finmap.lookup_empty, overlay_none_left h]

theorem overlayEntries_empty_right (combine : Option ν → ν → ν) (order : Iteration κ ν)
    (x : HashMap κ ν) : overlayEntries combine order x ∅ = x := by
  apply Finmap.ext_lookup
  intro k
  rw [lookup_overlayEntries, Finmap.lookup_empty]
  rfl

/-- The order of iteration does not show in the result. -/
theorem overlayEntries_order (order order' : Iteration κ ν) (x y : HashMap κ ν) :
    overlayEntries combine order x y = overlayEntries combine order' x y := by
  apply Finmap.ext_lookup
  intro k
  simp only [lookup_overlayEntries]

/-- An absent map below counts as an empty one. -/
theorem lawfulCombine_overlayEntries (h : LawfulCombine combine) (order : Iteration κ ν) :
    LawfulCombine fun (below : Option (HashMap κ ν)) above =>
      overlayEntries combine order (below.getD ∅) above where
  bottom := fun v => overlayEntries_empty_left h order v
  assoc := fun u v w => overlayEntries_assoc h order order order order u v w
  self := fun v => overlayEntries_self h order v

end

end OpenFlight
