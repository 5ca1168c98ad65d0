import OpenFlight.Lib.Split

/-!
# Words with Blanks between Them

Sequences that are spelled as words with one blank between any two, and what
cutting them at a word gives back.

Cutting at a word with its blanks looks for the word anywhere in the sequence,
in the middle of other words too. In a spelled sequence it cannot be found
there: an occurrence starts at a blank, and the blank after it ends the word
that follows the first one, so it is that word. `Spelled` is the relation as
an inductive one, so that this argument is an induction over the words.

## Main definitions

* `Spelled`: A sequence of words that satisfy a test.

## Theorems

* `Spelled.mono`, `Spelled.join`: Weaker tests, and longer sequences.
* `splitOnce_eq_none_of_spelled`: There is no cut at a word that is not there.
* `splitAll_intercalate`: The pieces between the words.
* `trimBy_of_spelled`: There is nothing to trim.
-/

namespace OpenFlight

section

variable {α : Type*} {blank : α} {test : List α → Prop}

/-- Words without blanks that satisfy the test, at least one, with one blank between any two. -/
inductive Spelled (blank : α) (test : List α → Prop) : List α → Prop
  | word (w : List α) (hne : w ≠ []) (hblank : blank ∉ w) (hw : test w) : Spelled blank test w
  | cons (w rest : List α) (hne : w ≠ []) (hblank : blank ∉ w) (hw : test w)
      (hrest : Spelled blank test rest) : Spelled blank test (w ++ blank :: rest)

/-- A word with a blank on each side. -/
def blankWord (blank : α) (w : List α) : List α :=
  blank :: (w ++ [blank])

variable {s : List α}

theorem Spelled.mono {test' : List α → Prop} (h : Spelled blank test s)
    (himp : ∀ w, test w → test' w) : Spelled blank test' s := by
  induction h with
  | word w hne hblank hw => exact .word w hne hblank (himp w hw)
  | cons w rest hne hblank hw _ ih => exact .cons w rest hne hblank (himp w hw) ih

theorem Spelled.ne_nil (h : Spelled blank test s) : s ≠ [] := by
  cases h with
  | word _ hne _ _ => exact hne
  | cons w rest hne _ _ _ => simp

/-- Two spelled sequences with a word between them. -/
theorem Spelled.join {t w : List α} (hs : Spelled blank test s) (hne : w ≠ []) (hblank : blank ∉ w)
    (hw : test w) (ht : Spelled blank test t) :
    Spelled blank test (s ++ blankWord blank w ++ t) := by
  induction hs with
  | word v hvne hvblank hv =>
      have hrest := Spelled.cons w t hne hblank hw ht
      simpa [blankWord] using Spelled.cons v _ hvne hvblank hv hrest
  | cons v rest hvne hvblank hv _ ih =>
      simpa [blankWord] using Spelled.cons v _ hvne hvblank hv ih

/-- A word that ends at a blank is the word that stands there. -/
theorem eq_of_prefix_blank {w v rest : List α} (hw : blank ∉ w) (hv : blank ∉ v)
    (h : w ++ [blank] <+: v ++ blank :: rest) : w = v := by
  induction w generalizing v with
  | nil =>
      cases v with
      | nil => rfl
      | cons b v =>
          rw [List.nil_append, List.cons_append, List.cons_prefix_cons] at h
          -- The blank behind the shorter word would be in the longer one.
          exact absurd (h.1 ▸ List.mem_cons_self) hv
  | cons a w ih =>
      cases v with
      | nil =>
          rw [List.cons_append, List.nil_append, List.cons_prefix_cons] at h
          exact absurd (h.1 ▸ List.mem_cons_self) hw
      | cons b v =>
          rw [List.cons_append, List.cons_append, List.cons_prefix_cons] at h
          rw [h.1, ih (fun hmem => hw (List.mem_cons_of_mem a hmem))
            (fun hmem => hv (List.mem_cons_of_mem b hmem)) h.2]

/-- A word that is not there does not stand at the front. -/
theorem Spelled.not_at_front {w : List α} (rest : List α) (h : Spelled blank (· ≠ w) s)
    (hw : blank ∉ w) : ¬ w ++ [blank] <+: s ∧ ¬ w ++ [blank] <+: s ++ blank :: rest := by
  cases h with
  | word _ hne hblank hv =>
      refine ⟨fun hfront => ?_, fun hfront => hv (eq_of_prefix_blank hw hblank hfront).symm⟩
      exact hblank (hfront.subset (by simp))
  | cons v s' hne hblank hv hs' =>
      refine ⟨fun hfront => hv (eq_of_prefix_blank hw hblank hfront).symm, fun hfront => ?_⟩
      rw [List.append_assoc, List.cons_append] at hfront
      exact hv (eq_of_prefix_blank hw hblank hfront).symm

variable [DecidableEq α]

theorem splitOnce_append (sep rest : List α) (hsep : sep ≠ []) :
    splitOnce sep (sep ++ rest) = some ([], rest) := by
  cases sep with
  | nil => exact absurd rfl hsep
  | cons c sep =>
      have hhead : (c :: sep).isPrefixOf (c :: sep ++ rest) = true :=
        List.isPrefixOf_iff_prefix.mpr (List.prefix_append _ _)
      rw [List.cons_append] at hhead ⊢
      rw [splitOnce, if_pos hhead, ← List.cons_append, List.drop_left]

/-- Looking for something that starts with a blank passes over a word. -/
theorem splitOnce_skip (w sep s : List α) (hw : blank ∉ w) : splitOnce (blank :: sep) (w ++ s)
      = (splitOnce (blank :: sep) s).map fun parts => (w ++ parts.1, parts.2) := by
  induction w with
  | nil => simp
  | cons c w ih =>
      have hhead : ¬ (blank :: sep).isPrefixOf (c :: (w ++ s)) = true := by
        rw [List.isPrefixOf_iff_prefix, List.cons_prefix_cons]
        exact fun h => hw (h.1 ▸ List.mem_cons_self)
      rw [List.cons_append, splitOnce, if_neg hhead,
        ih fun hmem => hw (List.mem_cons_of_mem c hmem), Option.map_map]
      rfl

/-- At a blank that the word does not follow, the search goes on. -/
theorem splitOnce_blank (w s : List α) (hfront : ¬ w ++ [blank] <+: s) :
    splitOnce (blankWord blank w) (blank :: s)
      = (splitOnce (blankWord blank w) s).map fun parts => (blank :: parts.1, parts.2) := by
  have hhead : ¬ (blankWord blank w).isPrefixOf (blank :: s) = true := by
    rw [List.isPrefixOf_iff_prefix, blankWord, List.cons_prefix_cons]
    exact fun h => hfront h.2
  rw [splitOnce, if_neg hhead]

/-- The first cut at a word that does not stand before it. -/
theorem splitOnce_of_spelled {s w : List α} (rest : List α) (h : Spelled blank (· ≠ w) s)
    (hw : blank ∉ w) :
    splitOnce (blankWord blank w) (s ++ blankWord blank w ++ rest) = some (s, rest) := by
  induction h with
  | word v _ hblank _ =>
      have hcut := splitOnce_append (blankWord blank w) rest (by simp [blankWord])
      rw [List.append_assoc, blankWord, splitOnce_skip v _ _ hblank, ← blankWord, hcut]
      simp
  | cons v s' _ hblank _ hs' ih =>
      -- At the blank behind the first word the search goes on.
      have hfront : ¬ w ++ [blank] <+: s' ++ blankWord blank w ++ rest := by
        have hnot := (hs'.not_at_front (w ++ [blank] ++ rest) hw).2
        simpa [blankWord] using hnot
      have hshape : v ++ blank :: s' ++ blankWord blank w ++ rest
          = v ++ blank :: (s' ++ blankWord blank w ++ rest) := by simp
      rw [hshape, blankWord, splitOnce_skip v _ _ hblank, ← blankWord,
        splitOnce_blank w _ hfront, ih]
      rfl

/-- There is no cut at a word that is not there. -/
theorem splitOnce_eq_none_of_spelled {s w : List α} (h : Spelled blank (· ≠ w) s)
    (hw : blank ∉ w) : splitOnce (blankWord blank w) s = none := by
  induction h with
  | word v _ hblank _ =>
      -- Behind the only word there is nothing left to search.
      have hend : splitOnce (blankWord blank w) [] = none := rfl
      have hskip := splitOnce_skip v (w ++ [blank]) [] hblank
      rw [List.append_nil] at hskip
      rw [blankWord] at hend ⊢
      rw [hskip, hend]
      rfl
  | cons v s' _ hblank _ hs' ih =>
      rw [blankWord, splitOnce_skip v _ _ hblank, ← blankWord,
        splitOnce_blank w _ (hs'.not_at_front [] hw).1, ih]
      rfl

/-- Pieces in which the word does not stand come back from between its occurrences. -/
theorem splitFuel_intercalate (w piece : List α) (pieces : List (List α)) (hw : blank ∉ w)
    (h : ∀ p ∈ piece :: pieces, Spelled blank (· ≠ w) p) (fuel : Nat)
    (hfuel : pieces.length ≤ fuel) :
    splitFuel (blankWord blank w) fuel ((blankWord blank w).intercalate (piece :: pieces))
      = piece :: pieces :=
  splitFuel_intercalate_of _ piece pieces (fun p hp rest => splitOnce_of_spelled rest (h p hp) hw)
    (fun p hp => splitOnce_eq_none_of_spelled (h p hp) hw) fuel hfuel

omit [DecidableEq α] in
theorem length_le_intercalate (sep piece : List α) (pieces : List (List α)) (hsep : sep ≠ []) :
    pieces.length ≤ (sep.intercalate (piece :: pieces)).length := by
  induction pieces generalizing piece with
  | nil => exact Nat.zero_le _
  | cons next rest ih =>
      -- Each separator adds at least one element.
      have hpos := List.length_pos_of_ne_nil hsep
      have hrest := ih next
      rw [List.intercalate_cons_cons]
      simp only [List.length_append, List.length_cons]
      omega

/-- Pieces in which the word does not stand come back from between its occurrences. -/
theorem splitAll_intercalate (w : List α) (pieces : List (List α)) (hne : pieces ≠ [])
    (hw : blank ∉ w) (h : ∀ p ∈ pieces, Spelled blank (· ≠ w) p) :
    splitAll (blankWord blank w) ((blankWord blank w).intercalate pieces) = pieces := by
  cases pieces with
  | nil => exact absurd rfl hne
  | cons piece pieces =>
      exact splitFuel_intercalate w piece pieces hw h _
        (length_le_intercalate _ piece pieces (by simp [blankWord]))

/-- A sequence spelled without the word is one piece. -/
theorem splitAll_of_spelled {s w : List α} (h : Spelled blank (· ≠ w) s) (hw : blank ∉ w) :
    splitAll (blankWord blank w) s = [s] :=
  splitAll_of_absent _ s (splitOnce_eq_none _ s (splitOnce_eq_none_of_spelled h hw))

omit [DecidableEq α] in
/-- Spelled pieces joined by a word are spelled. -/
theorem spelled_intercalate (w : List α) (pieces : List (List α)) (hne : pieces ≠ [])
    (hwne : w ≠ []) (hblank : blank ∉ w) (hw : test w) (h : ∀ p ∈ pieces, Spelled blank test p) :
    Spelled blank test ((blankWord blank w).intercalate pieces) := by
  induction pieces with
  | nil => exact absurd rfl hne
  | cons piece rest ih =>
      cases rest with
      | nil =>
          rw [List.intercalate_singleton]
          exact h piece List.mem_cons_self
      | cons next rest =>
          rw [List.intercalate_cons_cons]
          exact (h piece List.mem_cons_self).join hwne hblank hw
            (ih (by simp) fun p hp => h p (List.mem_cons_of_mem piece hp))

omit [DecidableEq α] in
/-- Spelled words start with the first element of a word. -/
theorem Spelled.head {drop : α → Bool} {s : List α}
    (h : Spelled blank (fun w => ∀ c ∈ w, drop c = false) s) :
    ∃ c rest, s = c :: rest ∧ drop c = false := by
  cases h with
  | word w hne _ hw =>
      rcases List.exists_cons_of_ne_nil hne with ⟨c, rest, rfl⟩
      exact ⟨c, rest, rfl, hw c List.mem_cons_self⟩
  | cons w rest hne _ hw _ =>
      rcases List.exists_cons_of_ne_nil hne with ⟨c, w', rfl⟩
      exact ⟨c, _, List.cons_append, hw c List.mem_cons_self⟩

omit [DecidableEq α] in
/-- And they end with the last element of a word. -/
theorem Spelled.getLast {drop : α → Bool} {s : List α}
    (h : Spelled blank (fun w => ∀ c ∈ w, drop c = false) s) (hs : s ≠ []) :
    drop (s.getLast hs) = false := by
  induction h with
  | word w _ _ hw => exact hw _ (List.getLast_mem hs)
  | cons w rest _ _ _ hrest ih =>
      rw [List.getLast_append_of_ne_nil _ (by simp), List.getLast_cons hrest.ne_nil]
      exact ih hrest.ne_nil

omit [DecidableEq α] in
/-- There is nothing to trim at the ends of spelled words. -/
theorem trimBy_of_spelled (drop : α → Bool) {s : List α}
    (h : Spelled blank (fun w => ∀ c ∈ w, drop c = false) s) : trimBy drop s = s := by
  have hfront : s.dropWhile drop = s := by
    rcases h.head with ⟨c, rest, rfl, hc⟩
    rw [List.dropWhile_cons, hc]
    rfl
  have hback : s.rdropWhile drop = s := by
    rw [List.rdropWhile_eq_self_iff]
    intro hs
    rw [h.getLast hs]
    exact Bool.false_ne_true
  rw [trimBy, hfront, hback]

end

end OpenFlight
