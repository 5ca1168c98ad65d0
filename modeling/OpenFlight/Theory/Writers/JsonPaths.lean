import OpenFlight.Core.Writers.Diff

/-!
# Values at Paths of a JSON Document

What setting and removing a value does to a document, stated by the value under
every list of keys.

Setting goes down from object to object and makes those that are missing. It fails
if it meets something else on the way, but not if it meets it at the end: then it
does nothing. In all other cases the value is there afterwards, and what is found
under keys that lead elsewhere is what was found there before. Removing is the same
except that it makes nothing.

A document has its fields in the order of their keys, as the map of the source has.
Without that the same fields could be written down in two ways, and inserting what is
there already would not be without effect.

## Main definitions

* `Json.Ordered`: The fields are in order.
* `valueAt`: The value under a list of keys.

## Theorems

* `setParts_eq_self_iff`, `removeParts_eq_self_iff`: When setting and removing do
  nothing.
* `setParts_ordered`, `removeParts_ordered`: Documents stay ordered.
-/

namespace OpenFlight.Writers

section

/-- The fields of all objects are in the order of their keys. -/
inductive Json.Ordered : Json → Prop
  | null : Ordered .null
  | bool (b : Bool) : Ordered (.bool b)
  | number (n : JsonNumber) : Ordered (.number n)
  | string (s : String) : Ordered (.string s)
  | array (items : List Json) : (∀ item ∈ items, Ordered item) → Ordered (.array items)
  | object (fields : List (String × Json)) : (fields.Pairwise fun a b => a.1 < b.1) →
      (∀ field ∈ fields, Ordered field.2) → Ordered (.object fields)

variable {fields : List (String × Json)} {key : String} {v : Json}

theorem mem_of_lookup (h : fields.lookup key = some v) : (key, v) ∈ fields := by
  induction fields with
  | nil => cases h
  | cons field rest ih =>
      rcases field with ⟨l, w⟩
      rw [lookup_cons_field] at h
      split_ifs at h with hkey
      · rw [hkey, Option.some.inj h]
        exact List.mem_cons_self
      · exact List.mem_cons_of_mem _ (ih h)

theorem Json.Ordered.lookup (h : (Json.object fields).Ordered)
    (hlookup : fields.lookup key = some v) : v.Ordered := by
  cases h with
  | object _ _ hall => exact hall _ (mem_of_lookup hlookup)

/-- Inserting what is there does nothing. -/
theorem insertField_of_lookup (horder : fields.Pairwise fun a b => a.1 < b.1)
    (h : fields.lookup key = some v) : insertField key v fields = fields := by
  induction fields with
  | nil => cases h
  | cons field rest ih =>
      rcases field with ⟨l, w⟩
      rw [List.pairwise_cons] at horder
      rw [lookup_cons_field] at h
      rw [insertField]
      split_ifs at h with hkey
      · rw [if_pos hkey, hkey, Option.some.inj h]
      · have hlt : l < key := horder.1 _ (mem_of_lookup h)
        rw [if_neg hkey, if_neg (String.lt_asymm hlt), ih horder.2 h]

theorem insertField_eq_self_iff (horder : fields.Pairwise fun a b => a.1 < b.1) :
    insertField key v fields = fields ↔ fields.lookup key = some v := by
  refine ⟨fun h => ?_, insertField_of_lookup horder⟩
  have hlookup := lookup_insertField key v fields key
  rw [h, if_pos rfl] at hlookup
  exact hlookup

/-- An object with a new child is what it was exactly if the child is what it was. -/
theorem child_eq_self_iff {child : Json} (hjson : (Json.object fields).Ordered)
    (hlookup : fields.lookup key = some child) (outcome : Except PatchError Json) :
    (match outcome with
      | .error e => Except.error e
      | .ok child' => .ok (Json.object (insertField key child' fields))) = .ok (.object fields) ↔
        outcome = .ok child := by
  cases outcome with
  | error e => simp
  | ok child' =>
      cases hjson with
      | object _ horder _ =>
          rw [Except.ok.injEq, Except.ok.injEq, Json.object.injEq, insertField_eq_self_iff horder,
            hlookup, Option.some.injEq]
          exact eq_comm

theorem mem_insertField {field : String × Json} (h : field ∈ insertField key v fields) :
    field = (key, v) ∨ field ∈ fields := by
  rw [insertField_eq] at h
  exact mem_of_mem_insertEntry h

theorem pairwise_insertField (horder : fields.Pairwise fun a b => a.1 < b.1) :
    (insertField key v fields).Pairwise fun a b => a.1 < b.1 := by
  rw [insertField_eq]
  exact pairwise_insertEntry horder

section

variable (h : (Json.object fields).Ordered)

include h

theorem Json.Ordered.insert (hv : v.Ordered) :
    (Json.object (insertField key v fields)).Ordered := by
  cases h with
  | object _ horder hall =>
      refine .object _ (pairwise_insertField horder) fun field hfield => ?_
      rcases mem_insertField hfield with rfl | hrest
      · exact hv
      · exact hall field hrest

theorem Json.Ordered.remove (key : String) : (Json.object (removeField key fields)).Ordered := by
  cases h with
  | object _ horder hall =>
      exact .object _ (horder.filter _) fun field hfield => hall field (List.mem_filter.mp hfield).1

theorem Json.Ordered.getD (key : String) : ((fields.lookup key).getD (.object [])).Ordered := by
  cases hlookup : fields.lookup key with
  | none => exact .object [] List.Pairwise.nil fun _ hmem => absurd hmem List.not_mem_nil
  | some v => exact h.lookup hlookup

end

end

/-- The value under keys, one after the other. -/
def valueAt : List String → Json → Option Json
  | [], json => some json
  | key :: rest, json => (json.field key).bind (valueAt rest)

/-- There is something under the keys, and it is not an object. -/
def Blocked (keys : List String) (json : Json) : Prop :=
  ∃ v, valueAt keys json = some v ∧ ∀ fields, v ≠ .object fields

theorem blocked_nil_iff (json : Json) : Blocked [] json ↔ ∀ fields, json ≠ .object fields := by
  simp [Blocked, valueAt]

theorem not_blocked_object (fields : List (String × Json)) : ¬ Blocked [] (.object fields) :=
  fun h => (blocked_nil_iff _).mp h fields rfl

/-- Where there is nothing an object could be made, and then nothing would be in the way. -/
theorem blocked_cons_iff (key : String) (rest : List String) (fields : List (String × Json)) :
    Blocked (key :: rest) (.object fields) ↔
      Blocked rest ((fields.lookup key).getD (.object [])) := by
  unfold Blocked
  rw [valueAt, Json.field]
  cases fields.lookup key with
  | some child => rfl
  | none =>
      rw [Option.bind_none, Option.getD_none]
      constructor
      · rintro ⟨v, hv, -⟩
        cases hv
      · intro h
        cases rest with
        | nil => exact absurd h (not_blocked_object [])
        | cons next rest =>
            rcases h with ⟨v, hv, -⟩
            cases hv

theorem valueAt_append (before after : List String) (json : Json) :
    valueAt (before ++ after) json = (valueAt before json).bind (valueAt after) := by
  induction before generalizing json with
  | nil => rfl
  | cons key rest ih =>
      rw [List.cons_append, valueAt, valueAt]
      cases json.field key with
      | none => rfl
      | some child => exact ih child

/-- What is inside of a value is smaller than the value. -/
theorem sizeOf_valueAt_lt {keys : List String} {json v : Json} (hne : keys ≠ [])
    (h : valueAt keys json = some v) : sizeOf v < sizeOf json := by
  induction keys generalizing json with
  | nil => exact absurd rfl hne
  | cons key rest ih =>
      rw [valueAt, Option.bind_eq_some_iff] at h
      rcases h with ⟨child, hchild, hv⟩
      have hsmaller : sizeOf child < sizeOf json := by
        cases json with
        | object fields =>
            have hmem := List.sizeOf_lt_of_mem (mem_of_lookup hchild)
            simp only [Json.object.sizeOf_spec, Prod.mk.sizeOf_spec] at hmem ⊢
            omega
        | _ => cases hchild
      cases rest with
      | nil =>
          rw [valueAt, Option.some.injEq] at hv
          exact hv ▸ hsmaller
      | cons next rest => exact lt_trans (ih (List.cons_ne_nil _ _) hv) hsmaller

/-- The reader takes the components that are not empty for keys. -/
theorem getParts_eq_ok_iff (parts : List String) (json v : Json) : getParts parts json = .ok v ↔
      valueAt (parts.filter fun part => !part.isEmpty) json = some v := by
  induction parts generalizing json with
  | nil => simp [getParts, valueAt]
  | cons part rest ih =>
      unfold getParts
      by_cases hempty : part.isEmpty = true
      · rw [if_pos hempty, ih, List.filter_cons_of_neg (by simp [hempty])]
      · rw [if_neg hempty, List.filter_cons_of_pos (by simp [hempty]), valueAt]
        cases json.field part with
        | none => simp
        | some child => exact ih child

section

variable {value : Json}

/-- The value is there, and what is found elsewhere is as it was. -/
structure Written (value : Json) (parts : List String) (json json' : Json) : Prop where
  value : valueAt parts json' = some value
  frame : ∀ keys, ¬ keys <+: parts → ¬ parts <+: keys → valueAt keys json' = valueAt keys json

/-- Setting fails if something on the way to the last object is not an object. -/
theorem setParts_fails_iff (parts : List String) (json : Json) :
    (∃ e, setParts value parts json = .error e) ↔
      ∃ n, n + 1 < parts.length ∧ Blocked (parts.take n) json := by
  induction parts generalizing json with
  | nil => simp [setParts]
  | cons part rest ih =>
      cases rest with
      | nil =>
          have hok : ∀ e, setParts value [part] json ≠ .error e := by
            cases json <;> exact fun e h => by cases h
          simp [hok]
      | cons next rest =>
          by_cases hobject : ∃ fields, json = .object fields
          · rcases hobject with ⟨fields, rfl⟩
            have hchild : (∃ e, setParts value (part :: next :: rest) (.object fields) = .error e) ↔
                ∃ e, setParts value (next :: rest) ((fields.lookup part).getD (.object [])) =
                  .error e := by
              rw [setParts]
              cases setParts value (next :: rest) ((fields.lookup part).getD (.object [])) <;> simp
            rw [hchild, ih]
            constructor
            · rintro ⟨n, hn, h⟩
              exact ⟨n + 1, Nat.succ_lt_succ hn, (blocked_cons_iff part _ fields).mpr h⟩
            · rintro ⟨n, hn, h⟩
              cases n with
              | zero => exact absurd h (not_blocked_object fields)
              | succ n =>
                  exact ⟨n, Nat.lt_of_succ_lt_succ hn, (blocked_cons_iff part _ fields).mp h⟩
          · have hnot : ∀ fields, json ≠ .object fields := fun fields h => hobject ⟨fields, h⟩
            refine ⟨fun _ => ⟨0, by simp, (blocked_nil_iff json).mpr hnot⟩, fun _ => ?_⟩
            refine ⟨.expectedObject, ?_⟩
            cases json with
            | object fields => exact absurd rfl (hnot fields)
            | _ => rfl

/-- A field of an object, and the value under keys that begin with it or with another. -/
theorem valueAt_insertField (key : String) (child : Json) (fields : List (String × Json))
    (k : String) (rest : List String) :
    valueAt (k :: rest) (.object (insertField key child fields)) =
      if k = key then valueAt rest child else valueAt (k :: rest) (.object fields) := by
  rw [valueAt, Json.field, lookup_insertField]
  split_ifs with hk
  · rw [Option.bind_some]
  · rfl

theorem written_insertField (key : String) (fields : List (String × Json)) :
    Written value [key] (.object fields) (.object (insertField key value fields)) where
  value := by
    rw [valueAt_insertField, if_pos rfl]
    rfl
  frame := by
    intro keys hinside hbeyond
    cases keys with
    | nil => exact absurd List.nil_prefix hinside
    | cons k rest =>
        rw [valueAt_insertField]
        refine if_neg ?_
        rintro rfl
        exact hbeyond (List.prefix_append [k] rest)

/-- A child that was made for the purpose has nothing else in it. -/
theorem Written.insertField {key next : String} {rest : List String}
    {fields : List (String × Json)} {child : Json}
    (h : Written value (next :: rest) ((fields.lookup key).getD (.object [])) child) :
    Written value (key :: next :: rest) (.object fields)
      (.object (insertField key child fields)) where
  value := by
    rw [valueAt_insertField, if_pos rfl]
    exact h.value
  frame := by
    intro keys hinside hbeyond
    cases keys with
    | nil => exact absurd List.nil_prefix hinside
    | cons k keys =>
        rw [valueAt_insertField]
        split_ifs with hk
        · subst hk
          have hshort : ¬ keys <+: next :: rest := fun hp =>
            hinside ((List.prefix_cons_inj k).mpr hp)
          rw [h.frame keys hshort fun hp => hbeyond ((List.prefix_cons_inj k).mpr hp), valueAt,
            Json.field]
          cases fields.lookup k with
          | some old => rfl
          | none =>
              cases keys with
              | nil => exact absurd List.nil_prefix hshort
              | cons _ _ => rfl
        · rfl

variable {parts : List String}

/-- Setting does nothing if there is something at the end that is not an object, and
    otherwise the value is there. -/
theorem setParts_spec {json json' : Json} (hjson : json.Ordered) (hne : parts ≠ [])
    (h : setParts value parts json = .ok json') :
    (Blocked parts.dropLast json ∧ json' = json) ∨
      (¬ Blocked parts.dropLast json ∧ Written value parts json json') := by
  induction parts generalizing json json' with
  | nil => exact absurd rfl hne
  | cons part rest ih =>
      cases rest with
      | nil =>
          cases json with
          | object fields =>
              rw [setParts, Except.ok.injEq] at h
              exact .inr ⟨not_blocked_object fields, h ▸ written_insertField part fields⟩
          | _ => exact .inl ⟨(blocked_nil_iff _).mpr (by simp), (Except.ok.inj h).symm⟩
      | cons next rest =>
          cases json with
          | object fields =>
              rw [List.dropLast_cons_cons, blocked_cons_iff]
              rw [setParts] at h
              cases hchild : setParts value (next :: rest)
                  ((fields.lookup part).getD (.object [])) with
              | error e =>
                  rw [hchild] at h
                  cases h
              | ok child =>
                  rw [hchild] at h
                  have hresult := (Except.ok.inj h).symm
                  rcases ih (hjson.getD part) (List.cons_ne_nil _ _) hchild with
                    ⟨hblocked, hsame⟩ | ⟨hfree, hwritten⟩
                  · refine .inl ⟨hblocked, ?_⟩
                    cases hlookup : fields.lookup part with
                    | none =>
                        -- An object that was made for the purpose is not in the way.
                        rw [hlookup, Option.getD_none] at hblocked
                        have hcons :=
                          (blocked_cons_iff part (next :: rest).dropLast []).mpr hblocked
                        rcases hcons with ⟨v, hv, -⟩
                        cases hv
                    | some old =>
                        rw [hlookup, Option.getD_some] at hsame
                        cases hjson with
                        | object _ horder _ =>
                            rw [hresult, hsame, insertField_of_lookup horder hlookup]
                  · exact .inr ⟨hfree, hresult ▸ hwritten.insertField⟩
          | _ => cases h

theorem setParts_ordered {json json' : Json} (hjson : json.Ordered) (hvalue : value.Ordered)
    (h : setParts value parts json = .ok json') : json'.Ordered := by
  induction parts generalizing json json' with
  | nil => exact Except.ok.inj h ▸ hjson
  | cons part rest ih =>
      cases rest with
      | nil =>
          cases json with
          | object fields => exact Except.ok.inj h ▸ hjson.insert hvalue
          | _ => exact Except.ok.inj h ▸ hjson
      | cons next rest =>
          cases json with
          | object fields =>
              rw [setParts] at h
              cases hchild : setParts value (next :: rest)
                  ((fields.lookup part).getD (.object [])) with
              | error e =>
                  rw [hchild] at h
                  cases h
              | ok child =>
                  rw [hchild] at h
                  exact Except.ok.inj h ▸ hjson.insert (ih (hjson.getD part) hchild)
          | _ => cases h

/-- Setting changes nothing exactly if the value is there already, or cannot be put there. -/
theorem setParts_eq_self_iff {json : Json} (hjson : json.Ordered) (hne : parts ≠ []) :
    setParts value parts json = .ok json ↔
      valueAt parts json = some value ∨ Blocked parts.dropLast json := by
  induction parts generalizing json with
  | nil => exact absurd rfl hne
  | cons part rest ih =>
      cases rest with
      | nil =>
          cases json with
          | object fields =>
              cases hjson with
              | object _ horder _ =>
                  rw [setParts, Except.ok.injEq, Json.object.injEq, insertField_eq_self_iff horder,
                    valueAt, Json.field, List.dropLast_singleton,
                    or_iff_left (not_blocked_object fields)]
                  cases fields.lookup part <;> simp [valueAt]
          | _ => exact ⟨fun _ => .inr ((blocked_nil_iff _).mpr (by simp)), fun _ => rfl⟩
      | cons next rest =>
          rw [List.dropLast_cons_cons]
          cases json with
          | object fields =>
              rw [setParts, blocked_cons_iff, valueAt, Json.field]
              cases hlookup : fields.lookup part with
              | some child =>
                  rw [Option.getD_some, Option.bind_some,
                    ← ih (hjson.lookup hlookup) (List.cons_ne_nil _ _)]
                  exact child_eq_self_iff hjson hlookup _
              | none =>
                  -- A key that is missing is always added.
                  have hfree : ¬ Blocked (next :: rest).dropLast (.object []) := fun h => by
                    rcases (blocked_cons_iff part (next :: rest).dropLast []).mpr h with ⟨v, hv, -⟩
                    cases hv
                  rw [Option.getD_none, Option.bind_none]
                  refine ⟨fun h => ?_, fun h => h.elim (fun hv => by cases hv) (absurd · hfree)⟩
                  cases hchild : setParts value (next :: rest) (.object []) with
                  | error e =>
                      rw [hchild] at h
                      cases h
                  | ok child =>
                      rw [hchild] at h
                      have hnew := lookup_insertField part child fields part
                      rw [Json.object.inj (Except.ok.inj h), hlookup, if_pos rfl] at hnew
                      cases hnew
          | _ =>
              constructor
              · intro h
                cases h
              · rintro (h | ⟨v, h, -⟩) <;> cases h

end

theorem removeField_eq_self_iff (key : String) (fields : List (String × Json)) :
    removeField key fields = fields ↔ fields.lookup key = none := by
  rw [removeField, List.filter_eq_self, List.lookup_eq_none_iff]
  refine forall₂_congr fun field _ => ?_
  rw [decide_eq_true_iff, bne_iff_ne, ne_comm]

/-- Removing changes nothing exactly if the parent is there and the value is not. -/
theorem removeParts_eq_self_iff {parts : List String} {json : Json} (hjson : json.Ordered)
    (hne : parts ≠ []) :
    removeParts parts json = .ok json ↔
      (valueAt parts.dropLast json).isSome ∧ valueAt parts json = none := by
  induction parts generalizing json with
  | nil => exact absurd rfl hne
  | cons part rest ih =>
      cases rest with
      | nil =>
          cases json with
          | object fields =>
              rw [removeParts, Except.ok.injEq, Json.object.injEq, removeField_eq_self_iff,
                valueAt, Json.field]
              cases fields.lookup part <;> simp [valueAt]
          | _ => exact ⟨fun _ => ⟨rfl, rfl⟩, fun _ => rfl⟩
      | cons next rest =>
          rw [List.dropLast_cons_cons]
          cases json with
          | object fields =>
              rw [removeParts, valueAt, valueAt, Json.field]
              cases hlookup : fields.lookup part with
              | some child =>
                  rw [Option.bind_some, Option.bind_some,
                    ← ih (hjson.lookup hlookup) (List.cons_ne_nil _ _)]
                  exact child_eq_self_iff hjson hlookup _
              | none => simp
          | _ => simp [removeParts, valueAt, Json.field]

theorem removeParts_ordered {parts : List String} {json json' : Json} (hjson : json.Ordered)
    (h : removeParts parts json = .ok json') : json'.Ordered := by
  induction parts generalizing json json' with
  | nil => exact Except.ok.inj h ▸ hjson
  | cons part rest ih =>
      cases rest with
      | nil =>
          cases json with
          | object fields => exact Except.ok.inj h ▸ hjson.remove part
          | _ => exact Except.ok.inj h ▸ hjson
      | cons next rest =>
          cases json with
          | object fields =>
              rw [removeParts] at h
              cases hlookup : fields.lookup part with
              | none =>
                  rw [hlookup] at h
                  cases h
              | some old =>
                  rw [hlookup] at h
                  dsimp only at h
                  cases hchild : removeParts (next :: rest) old with
                  | error e =>
                      rw [hchild] at h
                      cases h
                  | ok child =>
                      rw [hchild] at h
                      exact Except.ok.inj h ▸ hjson.insert (ih (hjson.lookup hlookup) hchild)
          | _ => cases h

theorem valueAt_ordered {keys : List String} {json v : Json} (hjson : json.Ordered)
    (h : valueAt keys json = some v) : v.Ordered := by
  induction keys generalizing json with
  | nil => exact Option.some.inj h ▸ hjson
  | cons key rest ih =>
      rw [valueAt, Option.bind_eq_some_iff] at h
      rcases h with ⟨child, hchild, hv⟩
      cases json with
      | object fields => exact ih (hjson.lookup hchild) hv
      | _ => cases hchild

end OpenFlight.Writers
