import Mathlib.Data.List.Infix
import Mathlib.Data.List.DropRight

/-!
# Splitting a Sequence at a Separator

Finding a word in a sequence, cutting the sequence there, and cutting it
everywhere, as the string functions of most languages do: from the left,
without overlaps.

What a parser needs to know of the pieces is that they are parts of the
sequence, that the separator does not occur in them, and that they are
shorter. Together these say that cutting again at the same separator does
nothing and that a recursion over the pieces ends.

## Main definitions

* `splitOnce`: What stands before and after the first occurrence of a word.

## Theorems

* `splitAll_of_absent`, `not_infix_of_splitAll`: There is one piece when the
  separator does not occur, and only then.
* `splitAll_shorter`: Where there are two pieces, each is shorter.
* `append_cons_cancel_last`: A sequence is cut at its last separator in one way only.
-/

namespace OpenFlight

section

variable {α : Type*} [DecidableEq α]

/-- The parts before and after the first occurrence of `sep`. -/
def splitOnce (sep : List α) : List α → Option (List α × List α)
  | [] => if sep = [] then some ([], []) else none
  | c :: rest =>
      if sep.isPrefixOf (c :: rest) then some ([], (c :: rest).drop sep.length)
      else (splitOnce sep rest).map fun parts => (c :: parts.1, parts.2)

/-- The pieces between the occurrences of `sep`, after at most `fuel` cuts. -/
def splitFuel (sep : List α) : Nat → List α → List (List α)
  | 0, s => [s]
  | fuel + 1, s =>
      match splitOnce sep s with
      | none => [s]
      | some (before, after) => before :: splitFuel sep fuel after

/-- The pieces between the occurrences of `sep`; there are at most as many cuts as elements. -/
def splitAll (sep s : List α) : List (List α) :=
  splitFuel sep s.length s

omit [DecidableEq α] in
/-- The sequence without the elements at both ends that satisfy the test. -/
def trimBy (test : α → Bool) (s : List α) : List α :=
  (s.dropWhile test).rdropWhile test

variable (sep : List α)

theorem splitFuel_ne_nil (fuel : Nat) (s : List α) : splitFuel sep fuel s ≠ [] := by
  cases fuel with
  | zero => exact List.cons_ne_nil _ _
  | succ fuel =>
      rw [splitFuel]
      cases splitOnce sep s <;> exact List.cons_ne_nil _ _

/-- Pieces come back from between the separators when each is cut off where it ends. -/
theorem splitFuel_intercalate_of (piece : List α) (pieces : List (List α))
    (hcut : ∀ p ∈ piece :: pieces, ∀ rest, splitOnce sep (p ++ sep ++ rest) = some (p, rest))
    (hlast : ∀ p ∈ piece :: pieces, splitOnce sep p = none) (fuel : Nat)
    (hfuel : pieces.length ≤ fuel) :
    splitFuel sep fuel (sep.intercalate (piece :: pieces)) = piece :: pieces := by
  induction pieces generalizing piece fuel with
  | nil =>
      rw [List.intercalate_singleton]
      cases fuel with
      | zero => rfl
      | succ fuel => rw [splitFuel, hlast piece List.mem_cons_self]
  | cons next rest ih =>
      cases fuel with
      | zero => simp at hfuel
      | succ fuel =>
          -- The first piece is cut off, and its turn is used up.
          rw [List.intercalate_cons_cons, splitFuel, hcut piece List.mem_cons_self]
          simp only [List.cons.injEq, true_and]
          exact ih next (fun p hp => hcut p (List.mem_cons_of_mem piece hp))
            (fun p hp => hlast p (List.mem_cons_of_mem piece hp)) fuel
            (Nat.le_of_succ_le_succ hfuel)

variable (s : List α)

theorem splitAll_ne_nil : splitAll sep s ≠ [] :=
  splitFuel_ne_nil sep s.length s

/-- The cut puts the sequence back together, and the word does not occur before
    it. -/
theorem splitOnce_eq_some (before after : List α) (h : splitOnce sep s = some (before, after)) :
    s = before ++ sep ++ after ∧ (sep ≠ [] → ¬ sep <:+: before) := by
  induction s generalizing before with
  | nil =>
      unfold splitOnce at h
      split_ifs at h with hsep
      rw [Option.some.injEq, Prod.mk.injEq] at h
      rw [← h.1, ← h.2, hsep]
      exact ⟨rfl, fun hne => absurd rfl hne⟩
  | cons c rest ih =>
      rw [splitOnce] at h
      split_ifs at h with hprefix
      · rw [Option.some.injEq, Prod.mk.injEq] at h
        rw [← h.1, ← h.2, List.nil_append]
        have hcut : sep <+: c :: rest := List.isPrefixOf_iff_prefix.mp hprefix
        refine ⟨(List.prefix_iff_eq_append.mp hcut).symm, fun hne hwithin => hne ?_⟩
        exact List.infix_nil.mp hwithin
      · rw [Option.map_eq_some_iff] at h
        rcases h with ⟨⟨pre, post⟩, hrest, heq⟩
        rw [Prod.mk.injEq] at heq
        rcases heq with ⟨rfl, rfl⟩
        rcases ih pre hrest with ⟨hjoin, hfirst⟩
        refine ⟨by rw [hjoin]; simp, fun hne hwithin => ?_⟩
        -- An occurrence at the very front was just ruled out.
        rcases List.infix_cons_iff.mp hwithin with hfront | hlater
        · refine hprefix (List.isPrefixOf_iff_prefix.mpr (hfront.trans ?_))
          rw [hjoin]
          exact ⟨sep ++ post, by simp⟩
        · exact hfirst hne hlater

/-- There is no cut when the word does not occur. -/
theorem splitOnce_eq_none (h : splitOnce sep s = none) : ¬ sep <:+: s := by
  induction s with
  | nil =>
      unfold splitOnce at h
      split_ifs at h with hsep
      exact fun hwithin => hsep (List.infix_nil.mp hwithin)
  | cons c rest ih =>
      rw [splitOnce] at h
      split_ifs at h with hprefix
      rw [Option.map_eq_none_iff] at h
      intro hwithin
      rcases List.infix_cons_iff.mp hwithin with hfront | hlater
      · exact hprefix (List.isPrefixOf_iff_prefix.mpr hfront)
      · exact ih h hlater

/-- Every piece is a part of the sequence in which the separator does not occur. -/
theorem splitFuel_spec (hsep : sep ≠ []) (fuel : Nat) (s : List α) (hfuel : s.length ≤ fuel)
    (piece : List α) (hpiece : piece ∈ splitFuel sep fuel s) : piece <:+: s ∧ ¬ sep <:+: piece := by
  induction fuel generalizing s with
  | zero =>
      have hnil : s = [] := List.length_eq_zero_iff.mp (Nat.le_zero.mp hfuel)
      rw [splitFuel, List.mem_singleton] at hpiece
      rw [hpiece, hnil]
      exact ⟨List.infix_refl [], fun hwithin => hsep (List.infix_nil.mp hwithin)⟩
  | succ fuel ih =>
      rw [splitFuel] at hpiece
      cases hsplit : splitOnce sep s with
      | none =>
          rw [hsplit, List.mem_singleton] at hpiece
          rw [hpiece]
          exact ⟨List.infix_refl s, splitOnce_eq_none sep s hsplit⟩
      | some parts =>
          rcases parts with ⟨before, after⟩
          rcases splitOnce_eq_some sep s before after hsplit with ⟨hjoin, hfirst⟩
          rw [hsplit, List.mem_cons] at hpiece
          rcases hpiece with rfl | hlater
          · exact ⟨⟨[], sep ++ after, by simp [hjoin]⟩, hfirst hsep⟩
          · have hpos := List.length_pos_of_ne_nil hsep
            have hlength : after.length ≤ fuel := by
              rw [hjoin] at hfuel
              simp only [List.length_append] at hfuel
              omega
            rcases ih after hlength hlater with ⟨hwithin, hclean⟩
            refine ⟨hwithin.trans ⟨before ++ sep, [], by simp [hjoin]⟩, hclean⟩

/-- The pieces are parts of the sequence without the word. -/
theorem splitAll_spec (piece : List α) (hsep : sep ≠ []) (h : piece ∈ splitAll sep s) :
    piece <:+: s ∧ ¬ sep <:+: piece :=
  splitFuel_spec sep hsep s.length s (le_refl _) piece h

/-- A sequence in which the separator does not occur is one piece. -/
theorem splitAll_of_absent (h : ¬ sep <:+: s) : splitAll sep s = [s] := by
  unfold splitAll
  cases hlength : s.length with
  | zero => rfl
  | succ n =>
      rw [splitFuel]
      cases hsplit : splitOnce sep s with
      | none => rfl
      | some parts =>
          rcases parts with ⟨before, after⟩
          have hjoin := (splitOnce_eq_some sep s before after hsplit).1
          exact absurd ⟨before, after, by rw [hjoin]⟩ h

/-- A sequence that is one piece does not contain the separator. -/
theorem not_infix_of_splitAll (hsep : sep ≠ []) (hone : ¬ 1 < (splitAll sep s).length) :
    ¬ sep <:+: s := by
  unfold splitAll at hone
  cases hlength : s.length with
  | zero =>
      rw [List.length_eq_zero_iff.mp hlength]
      exact fun hwithin => hsep (List.infix_nil.mp hwithin)
  | succ n =>
      rw [hlength, splitFuel] at hone
      cases hsplit : splitOnce sep s with
      | none => exact splitOnce_eq_none sep s hsplit
      | some parts =>
          -- Behind a cut there is always one more piece.
          have hpos := List.length_pos_of_ne_nil (splitFuel_ne_nil sep n parts.2)
          simp only [hsplit, List.length_cons] at hone
          omega

/-- Where there is more than one piece, each is shorter than the sequence. -/
theorem splitAll_shorter (piece : List α) (hsep : sep ≠ []) (hmany : 1 < (splitAll sep s).length)
    (h : piece ∈ splitAll sep s) : piece.length < s.length := by
  rcases splitAll_spec sep s piece hsep h with ⟨hwithin, hclean⟩
  refine lt_of_le_of_ne hwithin.length_le fun heq => ?_
  have hall : piece = s := hwithin.eq_of_length heq
  rw [hall] at hclean
  rw [splitAll_of_absent sep s hclean] at hmany
  exact absurd hmany (by simp)

omit [DecidableEq α] in
/-- Trimming leaves a part of the sequence. -/
theorem trimBy_within (test : α → Bool) (s : List α) : trimBy test s <:+: s :=
  (List.rdropWhile_prefix test _).isInfix.trans (List.dropWhile_suffix test).isInfix

end

/-- The part after the last occurrence of an element, and the part before it, can be
    told from the whole. -/
theorem append_cons_cancel_last {α : Type*} {a : α} {x y z w : List α} (hz : a ∉ z) (hw : a ∉ w)
    (h : x ++ a :: z = y ++ a :: w) : x = y ∧ z = w := by
  rcases List.append_eq_append_iff.mp h with ⟨m, hy, hm⟩ | ⟨m, hx, hm⟩
  · cases m with
    | nil => exact ⟨by rw [hy, List.append_nil], (List.cons.inj hm).2⟩
    | cons b m =>
        -- The later separator would stand in the part after the earlier one.
        refine absurd ?_ hz
        rw [(List.cons.inj hm).2]
        exact List.mem_append_right m List.mem_cons_self
  · cases m with
    | nil => exact ⟨by rw [hx, List.append_nil], (List.cons.inj hm).2.symm⟩
    | cons b m =>
        refine absurd ?_ hw
        rw [(List.cons.inj hm).2]
        exact List.mem_append_right m List.mem_cons_self

end OpenFlight
