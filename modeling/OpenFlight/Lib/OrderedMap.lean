import Mathlib.Data.List.Induction
import Mathlib.Data.List.Sort

/-!
# Ordered Maps

Maps that keep their entries in the order of the keys.

The order is part of the map, so a map is known from what is found under each key, and
its entries are gone through in one order only. When a list of entries is written to a
map, the last entry of each key is the one that is found.

## Main definitions

* `OrderedMap`: Maps.
* `OrderedMap.get`, `OrderedMap.insert`, `OrderedMap.insertAll`: Reading and writing.

## Theorems

* `OrderedMap.ext_get`: Maps in which the same is found are the same.
* `OrderedMap.get_insertAll_empty`: What is found is what was written last.
-/

namespace OpenFlight

section

variable {κ ν : Type} [LinearOrder κ]

/-- Insert an entry in the order of the keys, over one with the same key. -/
def insertEntry (key : κ) (value : ν) : List (κ × ν) → List (κ × ν)
  | [] => [(key, value)]
  | (k, v) :: rest =>
      if key < k then (key, value) :: (k, v) :: rest
      else if key = k then (key, value) :: rest
      else (k, v) :: insertEntry key value rest

theorem lookup_cons_entry (k l : κ) (v : ν) (rest : List (κ × ν)) :
    ((l, v) :: rest).lookup k = if k = l then some v else rest.lookup k := by
  rw [List.lookup_cons]
  by_cases hk : k = l
  · rw [if_pos hk, beq_iff_eq.mpr hk]
  · rw [if_neg hk, beq_eq_false_iff_ne.mpr hk]

theorem lookup_insertEntry (key : κ) (value : ν) (entries : List (κ × ν)) (k : κ) :
    (insertEntry key value entries).lookup k =
      if k = key then some value else entries.lookup k := by
  induction entries with
  | nil => rw [insertEntry, lookup_cons_entry]
  | cons entry rest ih =>
      rcases entry with ⟨l, v⟩
      rw [insertEntry]
      by_cases hlt : key < l
      · rw [if_pos hlt, lookup_cons_entry]
      rw [if_neg hlt]
      by_cases hkey : key = l
      · rw [if_pos hkey, lookup_cons_entry, lookup_cons_entry, hkey]
        split_ifs <;> rfl
      · rw [if_neg hkey, lookup_cons_entry, lookup_cons_entry, ih]
        by_cases hk : k = key
        · rw [if_neg (hk ▸ hkey), if_pos hk, if_pos hk]
        · rw [if_neg hk, if_neg hk]

variable {entries : List (κ × ν)}

theorem mem_of_mem_insertEntry {key : κ} {value : ν} {entry : κ × ν}
    (h : entry ∈ insertEntry key value entries) : entry = (key, value) ∨ entry ∈ entries := by
  induction entries with
  | nil => exact .inl (List.mem_singleton.mp h)
  | cons first rest ih =>
      rcases first with ⟨l, v⟩
      rw [insertEntry] at h
      split_ifs at h with hlt hkey
      · exact List.mem_cons.mp h
      · exact (List.mem_cons.mp h).imp_right (List.mem_cons_of_mem _)
      · rcases List.mem_cons.mp h with hfirst | hrest
        · exact .inr (hfirst ▸ List.mem_cons_self)
        · exact (ih hrest).imp_right (List.mem_cons_of_mem _)

theorem pairwise_insertEntry {key : κ} {value : ν}
    (horder : entries.Pairwise fun a b => a.1 < b.1) :
    (insertEntry key value entries).Pairwise fun a b => a.1 < b.1 := by
  induction entries with
  | nil => exact List.pairwise_singleton _ _
  | cons first rest ih =>
      rcases first with ⟨l, v⟩
      have hrest := List.pairwise_cons.mp horder
      rw [insertEntry]
      split_ifs with hlt hkey
      · refine List.pairwise_cons.mpr ⟨fun entry hentry => ?_, horder⟩
        rcases List.mem_cons.mp hentry with rfl | hmem
        · exact hlt
        · exact hlt.trans (hrest.1 entry hmem)
      · exact List.pairwise_cons.mpr ⟨fun entry hmem => hkey ▸ hrest.1 entry hmem, hrest.2⟩
      · refine List.pairwise_cons.mpr ⟨fun entry hentry => ?_, ih hrest.2⟩
        rcases mem_of_mem_insertEntry hentry with rfl | hmem
        · exact lt_of_le_of_ne (not_lt.mp hlt) (Ne.symm hkey)
        · exact hrest.1 entry hmem

/-- In order, each key is there once. -/
theorem mem_iff_lookup (horder : entries.Pairwise fun a b => a.1 < b.1) (k : κ) (v : ν) :
    (k, v) ∈ entries ↔ entries.lookup k = some v := by
  induction entries with
  | nil => simp
  | cons first rest ih =>
      rcases first with ⟨l, w⟩
      have hrest := List.pairwise_cons.mp horder
      rw [lookup_cons_entry, List.mem_cons, Prod.mk.injEq]
      by_cases hk : k = l
      · have hout : (k, v) ∉ rest := fun hmem => (hk ▸ hrest.1 _ hmem).false
        rw [if_pos hk, Option.some.injEq]
        constructor
        · rintro (⟨-, hv⟩ | hmem)
          · exact hv.symm
          · exact absurd hmem hout
        · exact fun hw => .inl ⟨hk, hw.symm⟩
      · rw [if_neg hk, ← ih hrest.2]
        exact or_iff_right fun hboth => hk hboth.1

end

/-- A map that keeps its entries in the order of the keys. -/
structure OrderedMap (κ ν : Type) [LinearOrder κ] where
  entries : List (κ × ν)
  ordered : entries.Pairwise fun a b => a.1 < b.1

namespace OrderedMap

section

variable {κ ν : Type} [LinearOrder κ]

def empty : OrderedMap κ ν where
  entries := []
  ordered := List.Pairwise.nil

def get (m : OrderedMap κ ν) (key : κ) : Option ν :=
  m.entries.lookup key

def insert (m : OrderedMap κ ν) (key : κ) (value : ν) : OrderedMap κ ν where
  entries := insertEntry key value m.entries
  ordered := pairwise_insertEntry m.ordered

@[simp]
theorem get_empty (key : κ) : (empty : OrderedMap κ ν).get key = none := by
  rfl

/-- What is found after writing. -/
theorem get_insert (m : OrderedMap κ ν) (key : κ) (value : ν) (k : κ) :
    (m.insert key value).get k = if k = key then some value else m.get k :=
  lookup_insertEntry key value m.entries k

/-- The entries are what is found. -/
theorem mem_entries_iff (m : OrderedMap κ ν) (k : κ) (v : ν) :
    (k, v) ∈ m.entries ↔ m.get k = some v :=
  mem_iff_lookup m.ordered k v

/-- Maps in which the same is found are the same. -/
theorem ext_get {m n : OrderedMap κ ν} (h : ∀ k, m.get k = n.get k) : m = n := by
  have hnodup : ∀ m : OrderedMap κ ν, m.entries.Nodup := fun m =>
    m.ordered.imp fun hlt heq => (heq ▸ hlt).false
  have hmem : ∀ entry, entry ∈ m.entries ↔ entry ∈ n.entries := by
    rintro ⟨k, v⟩
    rw [mem_entries_iff, mem_entries_iff, h]
  have hperm := (List.perm_ext_iff_of_nodup (hnodup m) (hnodup n)).mpr hmem
  have hentries : m.entries = n.entries :=
    hperm.eq_of_pairwise (fun _ _ _ _ hab hba => absurd hba hab.not_gt) m.ordered n.ordered
  cases m
  cases n
  cases hentries
  rfl

end

end OrderedMap

section

variable {α κ ν : Type} [LinearOrder κ] {keyOf : α → κ} {valueOf : α → ν} {l : List α}

/-- An element that no other with the same key comes after. -/
def LastAt (keyOf : α → κ) (l : List α) (a : α) : Prop :=
  ∃ before after, l = before ++ a :: after ∧ ∀ b ∈ after, keyOf b ≠ keyOf a

/-- Write the elements of a list one after the other. -/
def OrderedMap.insertAll (keyOf : α → κ) (valueOf : α → ν) (l : List α) (m : OrderedMap κ ν) :
    OrderedMap κ ν :=
  l.foldl (fun m a => m.insert (keyOf a) (valueOf a)) m

omit [LinearOrder κ] in
theorem LastAt.mem {a : α} (h : LastAt keyOf l a) : a ∈ l := by
  rcases h with ⟨before, after, rfl, -⟩
  exact List.mem_append_right _ List.mem_cons_self

omit [LinearOrder κ] in
/-- The last of the elements, and those that are not at its key. -/
theorem lastAt_concat_iff (l : List α) (e a : α) :
    LastAt keyOf (l ++ [e]) a ↔ a = e ∨ (LastAt keyOf l a ∧ keyOf e ≠ keyOf a) := by
  constructor
  · rintro ⟨before, after, heq, hafter⟩
    rcases List.eq_nil_or_concat after with rfl | ⟨after, last, rfl⟩
    · exact .inl (List.singleton_inj.mp (List.append_inj_right' heq rfl)).symm
    · rw [List.concat_eq_append, ← List.cons_append, ← List.append_assoc] at heq
      have hlast := List.singleton_inj.mp (List.append_inj_right' heq rfl)
      refine .inr ⟨⟨before, after, List.append_inj_left' heq rfl, fun b hb => ?_⟩, ?_⟩
      · exact hafter b (by simp [hb])
      · exact hlast ▸ hafter last (by simp)
  · rintro (rfl | ⟨⟨before, after, rfl, hafter⟩, hne⟩)
    · exact ⟨l, [], rfl, fun b hb => absurd hb List.not_mem_nil⟩
    · refine ⟨before, after ++ [e], by simp, fun b hb => ?_⟩
      rcases List.mem_append.mp hb with hb | hb
      · exact hafter b hb
      · exact (List.mem_singleton.mp hb) ▸ hne

/-- What is found is what was written last. -/
theorem OrderedMap.get_insertAll_empty (l : List α) (k : κ) (v : ν) :
    (OrderedMap.insertAll keyOf valueOf l empty).get k = some v ↔
      ∃ a, LastAt keyOf l a ∧ keyOf a = k ∧ valueOf a = v := by
  induction l using List.reverseRecOn with
  | nil =>
      refine ⟨fun h => absurd h (by simp [insertAll]), ?_⟩
      rintro ⟨a, hlast, -⟩
      exact absurd hlast.mem List.not_mem_nil
  | append_singleton l e ih =>
      have hstep : OrderedMap.insertAll keyOf valueOf (l ++ [e]) empty =
          (OrderedMap.insertAll keyOf valueOf l empty).insert (keyOf e) (valueOf e) :=
        List.foldl_concat _ _ _ _
      rw [hstep, get_insert]
      by_cases hk : k = keyOf e
      · rw [if_pos hk, Option.some.injEq]
        constructor
        · exact fun hv => ⟨e, (lastAt_concat_iff l e e).mpr (.inl rfl), hk.symm, hv⟩
        · rintro ⟨a, hlast, hkey, hv⟩
          rcases (lastAt_concat_iff l e a).mp hlast with rfl | ⟨-, hne⟩
          · exact hv
          · exact absurd (hk.symm.trans hkey.symm) hne
      · rw [if_neg hk, ih]
        refine exists_congr fun a => and_congr_left fun ⟨hkey, _⟩ => ?_
        rw [lastAt_concat_iff]
        constructor
        · exact fun hlast => .inr ⟨hlast, fun he => hk (hkey.symm.trans he.symm)⟩
        · rintro (rfl | ⟨hlast, -⟩)
          · exact absurd hkey.symm hk
          · exact hlast

theorem exists_of_mem_right {β : Type} {R : α → β → Prop} {l' : List β}
    (hl : List.Forall₂ R l l') {b : β} (hb : b ∈ l') : ∃ a ∈ l, R a b := by
  induction hl with
  | nil => cases hb
  | cons hab _ ih =>
      rcases List.mem_cons.mp hb with rfl | hb
      · exact ⟨_, List.mem_cons_self, hab⟩
      · rcases ih hb with ⟨a, ha, hR⟩
        exact ⟨a, List.mem_cons_of_mem _ ha, hR⟩

omit [LinearOrder κ] in
/-- Lists with the same keys have their last elements in the same places. -/
theorem LastAt.of_forall₂ {β : Type} {keyOf' : β → κ} {R : α → β → Prop} {l' : List β}
    (hkeys : ∀ a b, R a b → keyOf' b = keyOf a) (hl : List.Forall₂ R l l') {a : α}
    (h : LastAt keyOf l a) : ∃ b, LastAt keyOf' l' b ∧ R a b := by
  rcases h with ⟨before, after, rfl, hafter⟩
  induction before generalizing l' with
  | nil =>
      cases hl with
      | @cons _ b _ after' hab htail =>
          refine ⟨b, ⟨[], after', rfl, fun c hc => ?_⟩, hab⟩
          rcases exists_of_mem_right htail hc with ⟨d, hd, hdc⟩
          rw [hkeys _ _ hdc, hkeys _ _ hab]
          exact hafter d hd
  | cons first before ih =>
      cases hl with
      | @cons _ b _ rest _ htail =>
          rcases ih htail with ⟨c, ⟨before', after', rfl, hafter'⟩, hac⟩
          exact ⟨c, ⟨b :: before', after', rfl, hafter'⟩, hac⟩

end

end OpenFlight
