import OpenFlight.Core.Profile.Compare

/-!
# What the Flat Diff Tells Apart

Exactly when an empty diff of two flattened profiles says that they are equal.

A flattened profile is the leaves of the profile, written one after the other. A leaf is
known in it by its path as it is spelled and by its text, and of the leaves that are
spelled the same only the last one counts. Nothing else of the profile is there: not
whether a text was a string, not whether a step was a key or an index or two of them in
one, and not what has no leaves.

The other way around the texts say too much. The two zeros are equal as numbers, and they
are written in two ways.

## Main definitions

* `Step`, `Scalar`, `Leaf`: Where the leaves are and what is there.
* `Counts`: No later leaf is spelled the same.

## Theorems

* `flatDiff_exact_iff`: An empty diff is the same as equality exactly if equal profiles
  have the same zeros and different ones do not look alike.
-/

namespace OpenFlight.ProfileCompare

open Writers (Json JsonNumber)

/-- A step down into a value. -/
inductive Step
  | key (k : String)
  | item (i : Nat)

/-- The path below a path. -/
def Step.below (path : String) : Step → String
  | key k => fieldPath path k
  | item i => itemPath path i

/-- A value that is neither an object nor an array. -/
inductive Scalar
  | null
  | bool (b : Bool)
  | number (n : JsonNumber)
  | string (s : String)

namespace Scalar

def toJson : Scalar → Json
  | null => .null
  | bool b => .bool b
  | number n => .number n
  | string s => .string s

def text (floatText : UInt64 → String) : Scalar → String
  | null => "null"
  | bool b => toString b
  | number n => numberText floatText n
  | string s => s

def zero : Scalar :=
  number (.float 0)

def negativeZero : Scalar :=
  number (.float 0x8000000000000000)

/-- One of the zeros and the other one. -/
def OppositeZeros (x y : Scalar) : Prop :=
  (x = zero ∧ y = negativeZero) ∨ (x = negativeZero ∧ y = zero)

end Scalar

/-- A scalar and the way to it. -/
structure Leaf where
  route : List Step
  value : Scalar

namespace Leaf

/-- The leaf as it is seen from one step above. -/
def under (step : Step) (leaf : Leaf) : Leaf :=
  { leaf with route := step :: leaf.route }

/-- The way to the leaf as it is spelled below a path. -/
def pathFrom (path : String) (leaf : Leaf) : String :=
  leaf.route.foldl Step.below path

def path (leaf : Leaf) : String :=
  leaf.pathFrom ""

def text (floatText : UInt64 → String) (leaf : Leaf) : String :=
  leaf.value.text floatText

end Leaf

mutual

/-- The leaves of a value, in the order in which they are written. -/
def leaves : Json → List Leaf
  | .object fields => leavesOfFields fields
  | .array items => leavesOfItems items 0
  | .string s => [⟨[], .string s⟩]
  | .null => [⟨[], .null⟩]
  | .bool b => [⟨[], .bool b⟩]
  | .number n => [⟨[], .number n⟩]

def leavesOfFields : List (String × Json) → List Leaf
  | [] => []
  | (k, v) :: rest => (leaves v).map (Leaf.under (.key k)) ++ leavesOfFields rest

def leavesOfItems : List Json → Nat → List Leaf
  | [], _ => []
  | v :: rest, i => (leaves v).map (Leaf.under (.item i)) ++ leavesOfItems rest (i + 1)

end

/-- A leaf of a value that no later leaf with the same path is written over. -/
def Counts (v : Json) (leaf : Leaf) : Prop :=
  LastAt Leaf.path (leaves v) leaf

section

variable (floatText : UInt64 → String)

/-- Write leaves into a map, with their paths below a path. -/
def writeLeaves (path : String) (l : List Leaf) (map : ProfileMap) : ProfileMap :=
  map.insertAll (Leaf.pathFrom path) (Leaf.text floatText) l

theorem writeLeaves_under (path : String) (step : Step) (l rest : List Leaf) (map : ProfileMap) :
    writeLeaves floatText path (l.map (Leaf.under step) ++ rest) map =
      writeLeaves floatText path rest (writeLeaves floatText (step.below path) l map) := by
  unfold writeLeaves OrderedMap.insertAll
  rw [List.foldl_append, List.foldl_map]
  rfl

mutual

/-- Flattening writes the leaves one after the other. -/
theorem flattenRecursive_eq (v : Json) (path : String) (map : ProfileMap) :
    flattenRecursive floatText v path map = writeLeaves floatText path (leaves v) map := by
  cases v with
  | object fields =>
      rw [flattenRecursive, leaves]
      exact flattenFields_eq fields path map
  | array items =>
      rw [flattenRecursive, leaves]
      exact flattenItems_eq items 0 path map
  | _ => rw [flattenRecursive, leaves]; rfl

theorem flattenFields_eq (fields : List (String × Json)) (path : String) (map : ProfileMap) :
    flattenFields floatText fields path map =
      writeLeaves floatText path (leavesOfFields fields) map := by
  cases fields with
  | nil => rw [flattenFields, leavesOfFields]; rfl
  | cons field rest =>
      rcases field with ⟨k, v⟩
      rw [flattenFields, leavesOfFields, writeLeaves_under, flattenRecursive_eq v]
      exact flattenFields_eq rest path _

theorem flattenItems_eq (items : List Json) (i : Nat) (path : String) (map : ProfileMap) :
    flattenItems floatText items i path map =
      writeLeaves floatText path (leavesOfItems items i) map := by
  cases items with
  | nil => rw [flattenItems, leavesOfItems]; rfl
  | cons v rest =>
      rw [flattenItems, leavesOfItems, writeLeaves_under, flattenRecursive_eq v]
      exact flattenItems_eq rest (i + 1) path _

end

/-- What is found in a flattened profile is the leaves that count. -/
theorem get_flattenProfile (v : Json) (path text : String) :
    (flattenProfile floatText v "").get path = some text ↔
      ∃ leaf, Counts v leaf ∧ leaf.path = path ∧ leaf.text floatText = text := by
  rw [flattenProfile, flattenRecursive_eq]
  exact OrderedMap.get_insertAll_empty (leaves v) path text

end

section

theorem diffLeft_eq_none_iff (right : ProfileMap) (path text : String) :
    diffLeft right (path, text) = none ↔ right.get path = some text := by
  unfold diffLeft
  cases h : right.get path with
  | none => simp
  | some rightVal =>
      by_cases hval : rightVal = text
      · simp [hval]
      · simp [hval]

theorem diffRight_eq_none_iff (left : ProfileMap) (path text : String) :
    diffRight left (path, text) = none ↔ (left.get path).isSome = true := by
  unfold diffRight
  split_ifs with h <;> simp [h]

/-- An empty diff is the same map. -/
theorem compareProfiles_isEmpty_iff (left right : ProfileMap) (leftName rightName : String) :
    (compareProfiles left right leftName rightName).isEmpty = true ↔ left = right := by
  have hempty : (compareProfiles left right leftName rightName).isEmpty = true ↔
      (∀ path text, left.get path = some text → right.get path = some text) ∧
        ∀ path text, right.get path = some text → (left.get path).isSome = true := by
    simp only [ProfileDiff.isEmpty, compareProfiles, List.isEmpty_iff, List.append_eq_nil_iff,
      List.filterMap_eq_nil_iff, Prod.forall, diffLeft_eq_none_iff, diffRight_eq_none_iff,
      OrderedMap.mem_entries_iff]
  rw [hempty]
  constructor
  · intro h
    refine OrderedMap.ext_get fun path => ?_
    cases hleft : left.get path with
    | some leftVal => exact (h.1 path leftVal hleft).symm
    | none =>
        cases hright : right.get path with
        | none => rfl
        | some rightVal =>
            have hsome := h.2 path rightVal hright
            rw [hleft] at hsome
            cases hsome
  · intro h
    subst h
    exact ⟨fun _ _ hleft => hleft, fun _ _ hleft => Option.isSome_iff_exists.mpr ⟨_, hleft⟩⟩

variable (floatText : UInt64 → String)

/-- Every leaf that counts in one is spelled the same and has the same text in the other. -/
def ShownBy (a b : Json) : Prop :=
  ∀ x, Counts a x → ∃ y, Counts b y ∧ y.path = x.path ∧ y.text floatText = x.text floatText

/-- Each of the values shows what counts in the other one. -/
def LookAlike (a b : Json) : Prop :=
  ShownBy floatText a b ∧ ShownBy floatText b a

theorem shownBy_iff (a b : Json) :
    ShownBy floatText a b ↔ ∀ path text, (flattenProfile floatText a "").get path = some text →
      (flattenProfile floatText b "").get path = some text := by
  constructor
  · intro h path text hget
    rcases (get_flattenProfile floatText a path text).mp hget with ⟨x, hx, hpath, htext⟩
    rcases h x hx with ⟨y, hy, hypath, hytext⟩
    exact (get_flattenProfile floatText b path text).mpr
      ⟨y, hy, hypath.trans hpath, hytext.trans htext⟩
  · intro h x hx
    exact (get_flattenProfile floatText b x.path (x.text floatText)).mp
      (h _ _ ((get_flattenProfile floatText a _ _).mpr ⟨x, hx, rfl, rfl⟩))

/-- An empty diff of two profiles is two that look alike. -/
theorem flatDiff_isEmpty_iff (a b : Json) (leftName rightName : String) :
    (compareProfiles (flattenProfile floatText a "") (flattenProfile floatText b "") leftName
      rightName).isEmpty = true ↔ LookAlike floatText a b := by
  rw [compareProfiles_isEmpty_iff, LookAlike, shownBy_iff, shownBy_iff]
  constructor
  · intro h
    rw [h]
    exact ⟨fun _ _ hget => hget, fun _ _ hget => hget⟩
  · intro h
    refine OrderedMap.ext_get fun path => Option.ext fun text => ?_
    exact ⟨h.1 path text, h.2 path text⟩

end

section

/-- A float without bits below its sign is one of the zeros. -/
theorem eq_zero_of_shift {bits : UInt64} (h : bits <<< 1 = 0) :
    bits = 0 ∨ bits = 0x8000000000000000 := by
  have htwice : bits.toNat * 2 % 2 ^ 64 = 0 := by
    rw [← Nat.pow_one 2, ← Nat.shiftLeft_eq]
    exact (UInt64.toNat_shiftLeft bits 1).symm.trans (congrArg UInt64.toNat h)
  have hlt := bits.toNat_lt
  have hcases : bits.toNat = 0 ∨ bits.toNat = 0x8000000000000000 := by omega
  exact hcases.imp UInt64.toNat_inj.mp UInt64.toNat_inj.mp

theorem number_eq_or_opposite {n m : JsonNumber} (h : n.eq m = true) :
    Scalar.number n = .number m ∨ Scalar.OppositeZeros (.number n) (.number m) := by
  cases n with
  | posInt a =>
      cases m with
      | posInt b => exact .inl (congrArg (Scalar.number ∘ .posInt) (beq_iff_eq.mp h))
      | _ => cases h
  | negInt a =>
      cases m with
      | negInt b => exact .inl (congrArg (Scalar.number ∘ .negInt) (beq_iff_eq.mp h))
      | _ => cases h
  | float a =>
      cases m with
      | float b =>
          rw [JsonNumber.eq, Bool.or_eq_true, Bool.and_eq_true, beq_iff_eq, beq_iff_eq,
            beq_iff_eq] at h
          rcases h with rfl | ⟨ha, hb⟩
          · exact .inl rfl
          · rcases eq_zero_of_shift ha with rfl | rfl <;> rcases eq_zero_of_shift hb with rfl | rfl
            · exact .inl rfl
            · exact .inr (.inl ⟨rfl, rfl⟩)
            · exact .inr (.inr ⟨rfl, rfl⟩)
            · exact .inl rfl
      | _ => cases h

/-- Equal scalars are the same, or they are the two zeros. -/
theorem Scalar.eq_or_opposite {x y : Scalar} (h : x.toJson.eq y.toJson = true) :
    x = y ∨ x.OppositeZeros y := by
  cases x with
  | null =>
      cases y with
      | null => exact .inl rfl
      | _ => cases h
  | bool b =>
      cases y with
      | bool c => exact .inl (congrArg Scalar.bool (beq_iff_eq.mp h))
      | _ => cases h
  | string s =>
      cases y with
      | string t => exact .inl (congrArg Scalar.string (beq_iff_eq.mp h))
      | _ => cases h
  | number n =>
      cases y with
      | number m => exact number_eq_or_opposite h
      | _ => cases h

theorem Scalar.OppositeZeros.symm {x y : Scalar} (h : x.OppositeZeros y) : y.OppositeZeros x :=
  (Or.symm h).imp And.symm And.symm

/-- The same way to the same scalar, or to the two zeros. -/
def Leaf.Same (x y : Leaf) : Prop :=
  x.route = y.route ∧ (x.value = y.value ∨ x.value.OppositeZeros y.value)

theorem Leaf.Same.symm {x y : Leaf} (h : x.Same y) : y.Same x :=
  ⟨h.1.symm, h.2.imp Eq.symm Scalar.OppositeZeros.symm⟩

theorem forall₂_under (step : Step) {l l' : List Leaf} (h : List.Forall₂ Leaf.Same l l') :
    List.Forall₂ Leaf.Same (l.map (Leaf.under step)) (l'.map (Leaf.under step)) := by
  rw [List.forall₂_map_left_iff, List.forall₂_map_right_iff]
  exact h.imp fun x y hxy => ⟨congrArg (step :: ·) hxy.1, hxy.2⟩

/-- Values that are leaves themselves. -/
theorem forall₂_leaf (x y : Scalar) (h : x.toJson.eq y.toJson = true) :
    List.Forall₂ Leaf.Same [⟨[], x⟩] [⟨[], y⟩] :=
  List.Forall₂.cons ⟨rfl, Scalar.eq_or_opposite h⟩ List.Forall₂.nil

mutual

/-- Equal values have equal leaves in the same places. -/
theorem forall₂_leaves (a b : Json) (h : a.eq b = true) :
    List.Forall₂ Leaf.Same (leaves a) (leaves b) := by
  cases a with
  | object as =>
      cases b with
      | object bs =>
          rw [Json.eq] at h
          rw [leaves, leaves]
          exact forall₂_leavesOfFields as bs h
      | _ => cases h
  | array as =>
      cases b with
      | array bs =>
          rw [Json.eq] at h
          rw [leaves, leaves]
          exact forall₂_leavesOfItems as bs 0 h
      | _ => cases h
  | string s =>
      cases b with
      | string t => exact forall₂_leaf (.string s) (.string t) h
      | _ => cases h
  | null =>
      cases b with
      | null => exact forall₂_leaf .null .null h
      | _ => cases h
  | bool x =>
      cases b with
      | bool y => exact forall₂_leaf (.bool x) (.bool y) h
      | _ => cases h
  | number n =>
      cases b with
      | number m => exact forall₂_leaf (.number n) (.number m) h
      | _ => cases h

theorem forall₂_leavesOfFields (as bs : List (String × Json)) (h : Json.eqFields as bs = true) :
    List.Forall₂ Leaf.Same (leavesOfFields as) (leavesOfFields bs) := by
  cases as with
  | nil =>
      cases bs with
      | nil => rw [leavesOfFields]; exact List.Forall₂.nil
      | cons _ _ => cases h
  | cons field as =>
      cases bs with
      | nil => cases h
      | cons field' bs =>
          rcases field with ⟨k, a⟩
          rcases field' with ⟨l, b⟩
          rw [Json.eqFields, Bool.and_eq_true, Bool.and_eq_true, beq_iff_eq] at h
          rw [leavesOfFields, leavesOfFields, h.1.1]
          exact List.rel_append (forall₂_under (.key l) (forall₂_leaves a b h.1.2))
            (forall₂_leavesOfFields as bs h.2)

theorem forall₂_leavesOfItems (as bs : List Json) (i : Nat) (h : Json.eqItems as bs = true) :
    List.Forall₂ Leaf.Same (leavesOfItems as i) (leavesOfItems bs i) := by
  cases as with
  | nil =>
      cases bs with
      | nil => rw [leavesOfItems]; exact List.Forall₂.nil
      | cons _ _ => cases h
  | cons a as =>
      cases bs with
      | nil => cases h
      | cons b bs =>
          rw [Json.eqItems, Bool.and_eq_true] at h
          rw [leavesOfItems, leavesOfItems]
          exact List.rel_append (forall₂_under (.item i) (forall₂_leaves a b h.1))
            (forall₂_leavesOfItems as bs (i + 1) h.2)

end

/-- No zero that counts in one is where the other zero counts in the other. -/
def SignsAgree (a b : Json) : Prop :=
  ∀ x y, Counts a x → Counts b y → x.path = y.path → ¬ x.value.OppositeZeros y.value

variable (floatText : UInt64 → String)

theorem text_ne_of_opposite (hzero : floatText 0 ≠ floatText 0x8000000000000000) {x y : Scalar}
    (h : x.OppositeZeros y) : x.text floatText ≠ y.text floatText := by
  rcases h with ⟨rfl, rfl⟩ | ⟨rfl, rfl⟩
  · exact hzero
  · exact hzero.symm

/-- What counts in a value is shown by one with equal leaves in the same places, unless
    it is a zero. -/
theorem shownBy_of_forall₂ {a b : Json} (hl : List.Forall₂ Leaf.Same (leaves a) (leaves b))
    (hsigns : SignsAgree a b) : ShownBy floatText a b := by
  intro x hx
  have hpath : ∀ u v : Leaf, u.Same v → v.path = u.path := fun u v huv =>
    congrArg (List.foldl Step.below "") huv.1.symm
  rcases LastAt.of_forall₂ hpath hl hx with ⟨y, hy, hxy⟩
  refine ⟨y, hy, hpath x y hxy, ?_⟩
  rcases hxy.2 with hsame | hopposite
  · exact congrArg (Scalar.text floatText) hsame.symm
  · exact absurd hopposite (hsigns x y hx hy (hpath x y hxy).symm)

theorem SignsAgree.symm {a b : Json} (h : SignsAgree a b) : SignsAgree b a :=
  fun x y hx hy hpath hopposite => h y x hy hx hpath.symm hopposite.symm

/-- Equal values look alike exactly if the signs of their zeros agree. -/
theorem lookAlike_of_eq (hzero : floatText 0 ≠ floatText 0x8000000000000000) {a b : Json}
    (heq : a.eq b = true) :
    LookAlike floatText a b ↔ SignsAgree a b := by
  constructor
  · intro h x y hx hy hpath hopposite
    -- Both texts are the one that is found under the path in the map of the second value.
    rcases h.1 x hx with ⟨z, hz, hzpath, hztext⟩
    have hfoundx := (get_flattenProfile floatText b x.path _).mpr ⟨z, hz, hzpath, hztext⟩
    have hfoundy := (get_flattenProfile floatText b x.path _).mpr ⟨y, hy, hpath.symm, rfl⟩
    exact text_ne_of_opposite floatText hzero hopposite
      (Option.some.inj (hfoundx.symm.trans hfoundy))
  · intro h
    have hl := forall₂_leaves a b heq
    exact ⟨shownBy_of_forall₂ floatText hl h,
      shownBy_of_forall₂ floatText (hl.flip.imp fun _ _ => Leaf.Same.symm) h.symm⟩

end

/-- An empty diff is the same as equality exactly if equal profiles have the same zeros,
    and different ones do not look alike. -/
theorem flatDiff_exact_iff (floatText : UInt64 → String)
    (hzero : floatText 0 ≠ floatText 0x8000000000000000) (a b : Json)
    (leftName rightName : String) :
    ((compareProfiles (flattenProfile floatText a "") (flattenProfile floatText b "") leftName
      rightName).isEmpty = true ↔ a.eq b = true) ↔
      if a.eq b = true then SignsAgree a b else ¬ LookAlike floatText a b := by
  rw [flatDiff_isEmpty_iff]
  by_cases heq : a.eq b = true
  · rw [if_pos heq, ← lookAlike_of_eq floatText hzero heq]
    exact iff_true_right heq
  · rw [if_neg heq]
    exact iff_false_right heq

/-- The texts of the zeros. -/
def zeroText (bits : UInt64) : String :=
  if bits = 0 then "0.0" else "-0.0"

/-- A profile with a value for the expo of an axis. -/
def expoProfile (value : Json) : Json :=
  .object [("axes", .object [("pitch", .object [("expo", value)])])]

/-- Two different values are told apart. -/
theorem flatDiff_exact_expo :
    (compareProfiles (flattenProfile zeroText (expoProfile (.number (.posInt 1))) "")
      (flattenProfile zeroText (expoProfile (.number (.posInt 2))) "") "a" "b").isEmpty = true ↔
        (expoProfile (.number (.posInt 1))).eq (expoProfile (.number (.posInt 2))) = true := by
  refine (flatDiff_exact_iff zeroText (by decide) _ _ "a" "b").mpr ?_
  rw [if_neg (by decide)]
  intro h
  rcases h.1 ⟨[.key "axes", .key "pitch", .key "expo"], .number (.posInt 1)⟩
    ⟨[], [], rfl, by simp⟩ with ⟨y, hy, -, htext⟩
  have hmem := List.mem_singleton.mp hy.mem
  rw [hmem] at htext
  exact absurd htext (by decide)

/-- A number and the string of its digits are different, and the diff is empty. -/
theorem flatDiff_inexact :
    (compareProfiles (flattenProfile zeroText (expoProfile (.number (.posInt 1))) "")
      (flattenProfile zeroText (expoProfile (.string "1")) "") "a" "b").isEmpty = true ∧
        (expoProfile (.number (.posInt 1))).eq (expoProfile (.string "1")) = false := by
  decide

end OpenFlight.ProfileCompare
