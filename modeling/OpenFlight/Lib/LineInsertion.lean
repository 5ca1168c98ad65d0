import OpenFlight.Lib.Lines

/-!
# Lines Put into a Sequence

A line that is put into a sequence at some places, behind a separator but with none after
it: what follows goes on in the new line. `Inserted` is the relation, one element at a time,
and it keeps what follows each place up to the next separator.

Lines are compared without the elements at their ends that satisfy a test. If nothing but
such elements follows any of the places, the lines are those that were there and the new
one. If something else follows a place, a line starts with the new one and goes on.

## Main definitions

* `firstLine`, `laterLines`: The first line, and the others.
* `Inserted`: A sequence into which a line was put.

## Theorems

* `splitAll_eq`: The lines are the first and the others.
* `splitAll_sep_cons`, `splitAll_append_line`: The lines of a longer sequence.
* `mem_laterLines_of_inserted`: A line that goes on.
* `lines_of_inserted`: The lines where nothing goes on.
-/

namespace OpenFlight

section

variable {α : Type*} [DecidableEq α] {sep : α}

/-- What stands before the first separator. -/
def firstLine (sep : α) (s : List α) : List α :=
  s.takeWhile fun c => c ≠ sep

/-- The lines after the first. -/
def laterLines (sep : α) (s : List α) : List (List α) :=
  (splitAll [sep] s).tail

variable (s : List α)

/-- A separator starts a line. -/
theorem splitAll_sep_cons : splitAll [sep] (sep :: s) = [] :: splitAll [sep] s := by
  -- Pieces without separators come back from the sequence that joins them.
  have hlines : ∀ p ∈ [] :: splitAll [sep] s, sep ∉ p := by
    intro p hp
    rcases List.mem_cons.mp hp with rfl | hp
    · exact List.not_mem_nil
    · exact not_mem_of_mem_splitAll hp
  have hback := splitAll_intercalate_lines (List.cons_ne_nil _ _) hlines
  rw [List.intercalate_cons_of_ne_nil (splitAll_ne_nil [sep] s), intercalate_splitAll] at hback
  exact hback

/-- What has no separator goes to the front of the first line. -/
theorem splitAll_append_line {line : List α} (hline : sep ∉ line) (s : List α) :
    splitAll [sep] (line ++ s) = (line ++ (splitAll [sep] s).head (splitAll_ne_nil [sep] s)) ::
      (splitAll [sep] s).tail := by
  obtain ⟨p, ps, hps⟩ := List.exists_cons_of_ne_nil (splitAll_ne_nil [sep] s)
  have hs := intercalate_splitAll [sep] s
  have hmem : ∀ q ∈ p :: ps, sep ∉ q := by
    rw [← hps]
    exact fun _ hq => not_mem_of_mem_splitAll hq
  have hlines : ∀ q ∈ (line ++ p) :: ps, sep ∉ q := by
    intro q hq
    rcases List.mem_cons.mp hq with rfl | hq
    · rw [List.mem_append, not_or]
      exact ⟨hline, hmem p List.mem_cons_self⟩
    · exact hmem q (List.mem_cons_of_mem p hq)
  have hback := splitAll_intercalate_lines (List.cons_ne_nil _ _) hlines
  rw [hps] at hs
  simp only [hps, List.head_cons, List.tail_cons]
  rw [← hback]
  congr 1
  rw [← hs]
  cases ps with
  | nil => simp only [List.intercalate_singleton]
  | cons next ps => simp only [List.intercalate_cons_cons, List.append_assoc]

theorem head_splitAll : (splitAll [sep] s).head (splitAll_ne_nil [sep] s) = firstLine sep s := by
  induction s with
  | nil => rfl
  | cons c rest ih =>
      by_cases hc : c = sep
      · subst hc
        simp [splitAll_sep_cons, firstLine]
      · have hout : sep ∉ [c] := by simpa using Ne.symm hc
        have hcut := splitAll_append_line hout rest
        rw [List.singleton_append, ih] at hcut
        simp [hcut, firstLine, hc]

/-- The lines are the first and the others. -/
theorem splitAll_eq : splitAll [sep] s = firstLine sep s :: laterLines sep s := by
  rw [← head_splitAll, laterLines, List.cons_head_tail]

theorem laterLines_sep_cons : laterLines sep (sep :: s) = firstLine sep s :: laterLines sep s := by
  rw [laterLines, splitAll_sep_cons, List.tail_cons, splitAll_eq]

theorem laterLines_append_line {line : List α} (hline : sep ∉ line) (s : List α) :
    laterLines sep (line ++ s) = laterLines sep s := by
  rw [laterLines, splitAll_append_line hline, List.tail_cons, laterLines]

theorem firstLine_append_line {line : List α} (hline : sep ∉ line) (s : List α) :
    firstLine sep (line ++ s) = line ++ firstLine sep s := by
  rw [firstLine, List.takeWhile_append_of_pos, firstLine]
  intro c hc
  simpa using fun heq : c = sep => hline (heq ▸ hc)

/-- What follows a separator is not in the first line. -/
theorem firstLine_append_sep (t : List α) : firstLine sep (s ++ sep :: t) = firstLine sep s := by
  induction s with
  | nil => simp [firstLine]
  | cons c rest ih =>
      rw [firstLine] at ih
      rw [firstLine, firstLine, List.cons_append, List.takeWhile_cons, List.takeWhile_cons, ih,
        firstLine]

/-- The second sequence is the first with a line put in at some places. The last argument is
    what follows the places up to the next separator. -/
inductive Inserted (sep : α) (line : List α) : List α → List α → List (List α) → Prop
  | nil : Inserted sep line [] [] []
  | cons (c : α) {s t : List α} {ends : List (List α)} (h : Inserted sep line s t ends) :
      Inserted sep line (c :: s) (c :: t) ends
  | place {s t : List α} {ends : List (List α)} (h : Inserted sep line s t ends) :
      Inserted sep line s (sep :: (line ++ t)) (firstLine sep t :: ends)

variable {line s t : List α} {ends : List (List α)}

theorem Inserted.append {s' t' : List α} (front : List α) (h : Inserted sep line s' t' ends) :
    Inserted sep line (front ++ s') (front ++ t') ends := by
  induction front with
  | nil => exact h
  | cons c front ih => exact .cons c ih

theorem Inserted.refl (s : List α) : Inserted sep line s s [] := by
  have hend : Inserted sep line [] [] [] := .nil
  simpa only [List.append_nil] using hend.append s

/-- What follows a place goes on in the new line. -/
theorem mem_laterLines_of_inserted (hline : sep ∉ line) (h : Inserted sep line s t ends) :
    ∀ rest ∈ ends, line ++ rest ∈ laterLines sep t := by
  induction h with
  | nil => simp
  | @cons c s t ends _ ih =>
      intro rest hrest
      by_cases hc : c = sep
      · rw [hc, laterLines_sep_cons]
        exact List.mem_cons_of_mem _ (ih rest hrest)
      · have hout : sep ∉ [c] := by simpa using Ne.symm hc
        have hsame := laterLines_append_line hout t
        rw [List.singleton_append] at hsame
        rw [hsame]
        exact ih rest hrest
  | @place s t ends _ ih =>
      intro rest hrest
      rw [laterLines_sep_cons, firstLine_append_line hline, laterLines_append_line hline]
      rcases List.mem_cons.mp hrest with rfl | hrest
      · exact List.mem_cons_self
      · exact List.mem_cons_of_mem _ (ih rest hrest)

variable {blank : α → Bool}

omit [DecidableEq α] in
theorem rdropWhile_append (s t : List α) : (s ++ t).rdropWhile blank =
      if t.rdropWhile blank = [] then s.rdropWhile blank else s ++ t.rdropWhile blank := by
  simp only [List.rdropWhile, List.reverse_append, List.dropWhile_append, List.isEmpty_iff,
    List.reverse_eq_nil_iff]
  split_ifs
  · rfl
  · rw [List.reverse_append, List.reverse_reverse]

omit [DecidableEq α] in
theorem rdropWhile_append_blank {rest : List α}
    (hlast : ∀ c, line.getLast? = some c → blank c = false)
    (hrest : ∀ c ∈ rest, blank c = true) : (line ++ rest).rdropWhile blank = line := by
  rw [rdropWhile_append, if_pos (List.rdropWhile_eq_nil_iff.mpr hrest),
    List.rdropWhile_eq_self_iff]
  intro hne
  rw [hlast _ (List.getLast?_eq_some_getLast hne)]
  exact Bool.false_ne_true

/-- Where nothing goes on, the lines are those that were there, and the new one if there is a
    place. -/
theorem lines_of_inserted (hline : sep ∉ line)
    (hlast : ∀ c, line.getLast? = some c → blank c = false) (h : Inserted sep line s t ends)
    (hends : ∀ rest ∈ ends, ∀ c ∈ rest, blank c = true) :
    (firstLine sep t).rdropWhile blank = (firstLine sep s).rdropWhile blank ∧
      ∀ row, row ∈ (laterLines sep t).map (List.rdropWhile blank) ↔
        row ∈ (laterLines sep s).map (List.rdropWhile blank) ∨ (row = line ∧ ends ≠ []) := by
  induction h with
  | nil => exact ⟨rfl, by simp⟩
  | @cons c s t ends _ ih =>
      -- An element goes to the front of both first lines, or ends both of them.
      rcases ih hends with ⟨hfirst, hlater⟩
      by_cases hc : c = sep
      · refine ⟨by rw [hc, firstLine, firstLine]; simp, fun row => ?_⟩
        rw [hc, laterLines_sep_cons, laterLines_sep_cons, List.map_cons, List.map_cons,
          List.mem_cons, List.mem_cons, hfirst, hlater, or_assoc]
      · have hsingle : sep ∉ [c] := by simpa using Ne.symm hc
        have hnext : ∀ u, firstLine sep (c :: u) = [c] ++ firstLine sep u :=
          firstLine_append_line hsingle
        have hrest : ∀ u, laterLines sep (c :: u) = laterLines sep u :=
          laterLines_append_line hsingle
        refine ⟨?_, fun row => by rw [hrest, hrest, hlater]⟩
        rw [hnext, hnext, rdropWhile_append, rdropWhile_append, hfirst]
  | @place s t ends _ ih =>
      rcases ih fun rest hrest => hends rest (List.mem_cons_of_mem _ hrest) with ⟨hfirst, hlater⟩
      have hblank := hends _ List.mem_cons_self
      refine ⟨?_, fun row => ?_⟩
      · -- What is left of the line before the place was all that it said.
        rw [← hfirst, List.rdropWhile_eq_nil_iff.mpr hblank, firstLine]
        simp
      · rw [laterLines_sep_cons, firstLine_append_line hline, laterLines_append_line hline,
          List.map_cons, List.mem_cons, rdropWhile_append_blank hlast hblank, hlater]
        constructor
        · rintro (rfl | hold | ⟨rfl, -⟩)
          · exact Or.inr ⟨rfl, List.cons_ne_nil _ _⟩
          · exact Or.inl hold
          · exact Or.inr ⟨rfl, List.cons_ne_nil _ _⟩
        · rintro (hold | ⟨rfl, -⟩)
          · exact Or.inr (Or.inl hold)
          · exact Or.inl rfl

end

end OpenFlight
