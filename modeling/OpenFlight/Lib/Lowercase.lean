import Mathlib.Data.List.Basic

/-!
# Lowercasing

Turning text to lower case, as far as programs that compare names without
regard to case rely on it.

The full mapping is a table of the Unicode standard, and a final sigma depends
on its neighbours, so lowercasing is a parameter here: a function on strings
with the two facts about it that hold of the standard's. Lowercase letters and
digits of ASCII are left alone. And there is nothing left to lower in what
comes out, not even after characters are taken out of it. `ascii` lowers the
letters of ASCII only, which is what the standard does to text without others.

## Main definitions

* `Lowercasing`: Lowercasing with its two laws.
* `Lowercasing.ascii`: The lowercasing of ASCII text.
-/

namespace OpenFlight

/-- A function on strings that lowers them for good. -/
structure Lowercasing where
  lower : String → String
  /-- Lowercase letters and digits of ASCII stay as they are. -/
  of_plain : ∀ s : String, s.toList.all (fun c => c.isLower || c.isDigit) = true → lower s = s
  /-- What is left of a lowered string is not changed again. -/
  stable : ∀ s t : String, t.toList.Sublist (lower s).toList → lower t = t

/-- The letter that a letter is lowered to is not lowered again. -/
theorem toLower_toLower (c : Char) : c.toLower.toLower = c.toLower := by
  by_cases h : c.val ≥ 'A'.val ∧ c.val ≤ 'Z'.val
  · have hval : c.toLower.val = c.val + ('a'.val - 'A'.val) :=
      congrArg Char.val (dif_pos h)
    -- The lowercase letters are all above the uppercase ones.
    have hnot : ¬ (c.toLower.val ≥ 'A'.val ∧ c.toLower.val ≤ 'Z'.val) := by
      have hlow : 65 ≤ c.val.toNat := UInt32.le_iff_toNat_le.mp h.1
      have hhigh : c.val.toNat ≤ 90 := UInt32.le_iff_toNat_le.mp h.2
      have hsum : c.toLower.val.toNat = c.val.toNat + 32 := by
        rw [hval, UInt32.toNat_add]
        have hdiff : ('a'.val - 'A'.val).toNat = 32 := by decide
        omega
      rintro ⟨-, hz⟩
      have hz' : c.toLower.val.toNat ≤ 90 := UInt32.le_iff_toNat_le.mp hz
      omega
    exact dif_neg hnot
  · have heq : c.toLower = c := dif_neg h
    rw [heq, heq]

theorem toLower_of_plain (c : Char) (h : (c.isLower || c.isDigit) = true) : c.toLower = c := by
  have hnot : ¬ (c.val ≥ 'A'.val ∧ c.val ≤ 'Z'.val) := by
    rintro ⟨hA, hZ⟩
    have hlow : 65 ≤ c.val.toNat := UInt32.le_iff_toNat_le.mp hA
    have hhigh : c.val.toNat ≤ 90 := UInt32.le_iff_toNat_le.mp hZ
    have hlower : c.isLower = (decide ('a'.val ≤ c.val) && decide (c.val ≤ 'z'.val)) := rfl
    simp only [hlower, Char.isDigit, Bool.or_eq_true, decide_eq_true_eq, Bool.and_eq_true,
      ge_iff_le, UInt32.le_iff_toNat_le] at h
    have ha : 'a'.val.toNat = 97 := by decide
    have h9 : '9'.val.toNat = 57 := by decide
    omega
  exact dif_neg hnot

/-- The lowercasing of ASCII text. -/
def Lowercasing.ascii : Lowercasing where
  lower s := String.ofList (s.toList.map Char.toLower)
  of_plain s h := by
    have hmap : s.toList.map Char.toLower = s.toList := by
      conv_rhs => rw [← List.map_id s.toList]
      refine List.map_congr_left fun c hc => ?_
      exact toLower_of_plain c (List.all_eq_true.mp h c hc)
    rw [hmap, String.ofList_toList]
  stable s t h := by
    rw [String.toList_ofList] at h
    have hmap : t.toList.map Char.toLower = t.toList := by
      conv_rhs => rw [← List.map_id t.toList]
      refine List.map_congr_left fun c hc => ?_
      -- Every character left is one that was lowered.
      rcases List.mem_map.mp (h.subset hc) with ⟨d, -, rfl⟩
      exact toLower_toLower d
    rw [hmap, String.ofList_toList]

end OpenFlight
