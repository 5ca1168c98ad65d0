import OpenFlight.Lib.Words

/-!
# Sequences in Lines

Sequences that are cut at each occurrence of one element, and put together again.

Cutting everywhere and putting the pieces together gives the sequence back, whatever the
separator is. The other way round the separator must not occur in the pieces, and there
must be one: no pieces and one empty piece make the same sequence. So sequences are in
lines in one way only, and there is one line more than there are separators.

Pieces may also be put together with a joint of any length between any two. A word in what
comes out stands in a piece, or it has to do with a joint: it is in one, or it goes from
the end of a piece or of a joint over to what comes next, and from there through as many
pieces and joints as it is long. This is what replacing the occurrences of a word comes
to. The pieces between the occurrences have none of their own, so the word can occur in
the result only at such a seam.

## Main definitions

* `ReadsOn`: A word starts a sequence of pieces and joints.

## Theorems

* `intercalate_lines_inj`: Lines can be told from the sequence.
* `length_splitAll_lines`, `length_le_count_intercalate`: How many lines there are.
* `trimBy_eq_self_iff`, `trimBy_concat`, `ends_trimBy`: What is trimmed.
* `head?_of_trimBy`, `getLast?_of_trimBy`: An end that is not trimmed.
* `prefix_intercalate_iff`, `infix_intercalate_iff`: Where a word stands.
* `joint_infix_intercalate`: A joint stands between the pieces.
* `infix_iff_splitAll`: There is a cut exactly where the word occurs.
-/

namespace OpenFlight

section

variable {α : Type*} [DecidableEq α] {sep : α}

/-- The pieces make the sequence. -/
theorem intercalate_splitFuel (word : List α) (fuel : Nat) (s : List α) :
    word.intercalate (splitFuel word fuel s) = s := by
  induction fuel generalizing s with
  | zero => rw [splitFuel, List.intercalate_singleton]
  | succ fuel ih =>
      rw [splitFuel]
      cases hsplit : splitOnce word s with
      | none => exact List.intercalate_singleton
      | some parts =>
          rcases parts with ⟨before, after⟩
          have hjoin := (splitOnce_eq_some word s before after hsplit).1
          -- Something always comes after a cut.
          simp only
          rw [List.intercalate_cons_of_ne_nil (splitFuel_ne_nil word fuel after), ih after]
          exact hjoin.symm

/-- The pieces make the sequence. -/
theorem intercalate_splitAll (word s : List α) : word.intercalate (splitAll word s) = s :=
  intercalate_splitFuel word s.length s

theorem not_mem_of_mem_splitAll {s piece : List α} (h : piece ∈ splitAll [sep] s) :
    sep ∉ piece := by
  intro hmem
  refine (splitAll_spec [sep] s piece (by simp) h).2 ?_
  rcases List.append_of_mem hmem with ⟨front, back, rfl⟩
  exact ⟨front, back, by simp⟩

theorem splitOnce_eq_none_of_not_mem {s : List α} (h : sep ∉ s) : splitOnce [sep] s = none := by
  cases hsplit : splitOnce [sep] s with
  | none => rfl
  | some parts =>
      have hjoin := (splitOnce_eq_some [sep] s parts.1 parts.2 hsplit).1
      rw [hjoin] at h
      simp at h

/-- The first cut is at the first separator. -/
theorem splitOnce_line {w : List α} (rest : List α) (hw : sep ∉ w) :
    splitOnce [sep] (w ++ sep :: rest) = some (w, rest) := by
  have hcut := splitOnce_append [sep] rest (by simp)
  rw [List.singleton_append] at hcut
  rw [splitOnce_skip w [] _ hw, hcut]
  simp

theorem splitFuel_intercalate_lines (piece : List α) (pieces : List (List α))
    (h : ∀ p ∈ piece :: pieces, sep ∉ p) (fuel : Nat) (hfuel : pieces.length ≤ fuel) :
    splitFuel [sep] fuel ([sep].intercalate (piece :: pieces)) = piece :: pieces :=
  splitFuel_intercalate_of _ piece pieces
    (fun p hp rest => by
      rw [List.append_assoc, List.singleton_append]
      exact splitOnce_line rest (h p hp))
    (fun p hp => splitOnce_eq_none_of_not_mem (h p hp)) fuel hfuel

variable {pieces : List (List α)}

/-- Lines come back. -/
theorem splitAll_intercalate_lines (hne : pieces ≠ []) (h : ∀ p ∈ pieces, sep ∉ p) :
    splitAll [sep] ([sep].intercalate pieces) = pieces := by
  cases pieces with
  | nil => exact absurd rfl hne
  | cons piece pieces =>
      exact splitFuel_intercalate_lines piece pieces h _
        (length_le_intercalate _ piece pieces (by simp))

/-- Lines can be told from the sequence. -/
theorem intercalate_lines_inj {pieces' : List (List α)} (hne : pieces ≠ [])
    (h : ∀ p ∈ pieces, sep ∉ p) (hne' : pieces' ≠ []) (h' : ∀ p ∈ pieces', sep ∉ p) :
    [sep].intercalate pieces = [sep].intercalate pieces' ↔ pieces = pieces' := by
  refine ⟨fun heq => ?_, fun heq => by rw [heq]⟩
  rw [← splitAll_intercalate_lines hne h, heq, splitAll_intercalate_lines hne' h']

/-- There are separators between pieces. -/
theorem length_le_count_intercalate (sep : α) (pieces : List (List α)) :
    pieces.length ≤ ([sep].intercalate pieces).count sep + 1 := by
  induction pieces with
  | nil => simp
  | cons piece rest ih =>
      cases rest with
      | nil => simp
      | cons next rest =>
          rw [List.intercalate_cons_cons, List.count_append, List.count_append]
          simp only [List.count_singleton_self, List.length_cons] at ih ⊢
          omega

/-- There are no more separators than between the lines. -/
theorem count_intercalate_lines (hne : pieces ≠ []) (h : ∀ p ∈ pieces, sep ∉ p) :
    ([sep].intercalate pieces).count sep + 1 = pieces.length := by
  induction pieces with
  | nil => exact absurd rfl hne
  | cons piece rest ih =>
      have hpiece := List.count_eq_zero_of_not_mem (h piece List.mem_cons_self)
      cases rest with
      | nil => rw [List.intercalate_singleton, hpiece, List.length_singleton]
      | cons next rest =>
          have hrest := ih (by simp) fun p hp => h p (List.mem_cons_of_mem piece hp)
          rw [List.intercalate_cons_cons, List.count_append, List.count_append, hpiece,
            List.count_singleton_self]
          rw [List.length_cons (a := piece), ← hrest]
          omega

theorem length_splitAll_lines (sep : α) (s : List α) :
    (splitAll [sep] s).length = s.count sep + 1 := by
  have hcount := count_intercalate_lines (splitAll_ne_nil [sep] s)
    fun _ hp => not_mem_of_mem_splitAll hp
  rw [intercalate_splitAll] at hcount
  exact hcount.symm

end

section

variable {α : Type*} {test : α → Bool} (s : List α)

theorem dropWhile_eq_self_iff_head :
    s.dropWhile test = s ↔ ∀ c, s.head? = some c → test c = false := by
  cases s with
  | nil => simp
  | cons c rest =>
      rw [List.dropWhile_cons, List.head?_cons]
      by_cases hc : test c = true
      · rw [if_pos hc]
        constructor
        · intro h
          have hlength := (List.dropWhile_suffix test (l := rest)).length_le
          rw [h, List.length_cons] at hlength
          omega
        · intro h
          rw [h c rfl] at hc
          exact absurd hc Bool.false_ne_true
      · rw [if_neg hc]
        simpa using hc

/-- Nothing is trimmed from a sequence whose ends do not satisfy the test. -/
theorem trimBy_eq_self_iff : trimBy test s = s ↔ (∀ c, s.head? = some c → test c = false) ∧
      ∀ c, s.getLast? = some c → test c = false := by
  have hback : s.rdropWhile test = s ↔ ∀ c, s.getLast? = some c → test c = false := by
    rw [List.rdropWhile_eq_self_iff]
    constructor
    · intro h c hc
      have hne : s ≠ [] := by
        rintro rfl
        cases hc
      rw [List.getLast?_eq_some_getLast hne, Option.some.injEq] at hc
      simpa [hc] using h hne
    · intro h hne
      simpa using h _ (List.getLast?_eq_some_getLast hne)
  rw [← dropWhile_eq_self_iff_head, ← hback]
  constructor
  · intro h
    -- Trimming at the end cannot give back what was dropped in front.
    have hfront : s.dropWhile test = s := by
      refine (List.dropWhile_suffix test).eq_of_length_le ?_
      have hlength := (List.rdropWhile_prefix test (s.dropWhile test)).length_le
      rw [← trimBy, h] at hlength
      exact hlength
    refine ⟨hfront, ?_⟩
    rw [trimBy, hfront] at h
    exact h
  · rintro ⟨hfront, hback⟩
    rw [trimBy, hfront, hback]

/-- An element at the end that satisfies the test is trimmed. -/
theorem trimBy_concat (c : α) (hc : test c = true) : trimBy test (s ++ [c]) = trimBy test s := by
  rw [trimBy, trimBy, List.dropWhile_append]
  split_ifs with hempty
  · rw [List.isEmpty_iff.mp hempty]
    simp [hc]
  · exact List.rdropWhile_concat_pos _ _ _ hc

/-- The ends of what is left do not satisfy the test. -/
theorem ends_trimBy : (∀ c, (trimBy test s).head? = some c → test c = false) ∧
      ∀ c, (trimBy test s).getLast? = some c → test c = false := by
  constructor
  · intro c hc
    have hfront := List.head?_dropWhile_not test s
    rw [← List.singleton_prefix_iff_head?_eq_some] at hc
    rw [List.singleton_prefix_iff_head?_eq_some.mp (hc.trans (List.rdropWhile_prefix test _))]
      at hfront
    exact hfront
  · intro c hc
    have hne : trimBy test s ≠ [] := by
      intro hnil
      rw [hnil] at hc
      cases hc
    rw [List.getLast?_eq_some_getLast hne, Option.some.injEq] at hc
    rw [← hc, ← Bool.not_eq_true]
    exact List.rdropWhile_last_not _ _ hne

/-- Nothing is trimmed in front where the first element does not satisfy the test. -/
theorem head?_of_trimBy {s : List α} {c : α} (hfirst : ∀ d, s.head? = some d → test d = false)
    (h : (trimBy test s).head? = some c) : s.head? = some c := by
  rw [trimBy, (dropWhile_eq_self_iff_head s).mpr hfirst,
    ← List.singleton_prefix_iff_head?_eq_some] at h
  exact List.singleton_prefix_iff_head?_eq_some.mp (h.trans (List.rdropWhile_prefix test s))

theorem getLast?_of_trimBy {s : List α} {c : α} (hlast : ∀ d, s.getLast? = some d → test d = false)
    (h : (trimBy test s).getLast? = some c) : s.getLast? = some c := by
  have hback : (s.dropWhile test).rdropWhile test = s.dropWhile test := by
    rw [List.rdropWhile_eq_self_iff]
    intro hne
    have hend := List.singleton_suffix_iff_getLast?_eq_some.mpr (List.getLast?_eq_some_getLast hne)
    have hs := List.singleton_suffix_iff_getLast?_eq_some.mp
      (hend.trans (List.dropWhile_suffix test))
    rw [hlast _ hs]
    exact Bool.false_ne_true
  rw [trimBy, hback, ← List.singleton_suffix_iff_getLast?_eq_some] at h
  exact List.singleton_suffix_iff_getLast?_eq_some.mp (h.trans (List.dropWhile_suffix test))

end

section

variable {α : Type*}

/-- A word is at the front of the pieces, read with a joint between any two. -/
def ReadsOn (joint : List α) : List α → List (List α) → Prop
  | word, [] => word = []
  | word, [piece] => word <+: piece
  | word, piece :: next :: pieces =>
      word <+: piece ∨ ∃ rest, word = piece ++ rest ∧
        (rest <+: joint ∨ ∃ more, rest = joint ++ more ∧ ReadsOn joint more (next :: pieces))

/-- A word is in a joint of the pieces, or it goes on over the end of a piece or of a joint. -/
def AcrossSeam (joint word : List α) : List (List α) → Prop
  | [] => False
  | [_] => False
  | piece :: next :: pieces =>
      word <:+: joint ∨
      (∃ front rest, word = front ++ rest ∧ front <:+ piece ∧
        (rest <+: joint ∨ ∃ more, rest = joint ++ more ∧ ReadsOn joint more (next :: pieces))) ∨
      (∃ front rest, word = front ++ rest ∧ front <:+ joint ∧
        ReadsOn joint rest (next :: pieces)) ∨
      AcrossSeam joint word (next :: pieces)

theorem prefix_append_iff (word s t : List α) :
    word <+: s ++ t ↔ word <+: s ∨ ∃ rest, word = s ++ rest ∧ rest <+: t := by
  constructor
  · rintro ⟨tail, htail⟩
    rcases List.append_eq_append_iff.mp htail with ⟨rest, hs, -⟩ | ⟨rest, hword, ht⟩
    · exact Or.inl ⟨rest, hs.symm⟩
    · exact Or.inr ⟨rest, hword, tail, ht.symm⟩
  · rintro (h | ⟨rest, rfl, h⟩)
    · exact h.trans (List.prefix_append s t)
    · exact (List.prefix_append_right_inj s).mpr h

/-- What stands at the front of pieces that are put together. -/
theorem prefix_intercalate_iff (joint word : List α) (pieces : List (List α)) :
    word <+: joint.intercalate pieces ↔ ReadsOn joint word pieces := by
  induction pieces generalizing word with
  | nil => rw [List.intercalate_nil, List.prefix_nil, ReadsOn]
  | cons piece rest ih =>
      cases rest with
      | nil => rw [List.intercalate_singleton, ReadsOn]
      | cons next rest =>
          rw [List.intercalate_cons_cons, List.append_assoc, prefix_append_iff]
          simp only [prefix_append_iff, ih, ReadsOn]

/-- A word stands in a piece or at a seam. -/
theorem infix_intercalate_iff (joint word : List α) (pieces : List (List α)) (hne : pieces ≠ []) :
    word <:+: joint.intercalate pieces ↔
      (∃ piece ∈ pieces, word <:+: piece) ∨ AcrossSeam joint word pieces := by
  induction pieces with
  | nil => exact absurd rfl hne
  | cons piece rest ih =>
      cases rest with
      | nil => simp [List.intercalate_singleton, AcrossSeam]
      | cons next rest =>
          -- Twice the cases of an occurrence in two parts: in one of them, or over the end.
          rw [List.intercalate_cons_cons, List.exists_mem_cons_iff, AcrossSeam, List.append_assoc,
            List.infix_append_iff, List.infix_append_iff, ih (List.cons_ne_nil next rest)]
          simp only [prefix_append_iff, prefix_intercalate_iff]
          exact iff_of_eq (by ac_rfl)

/-- Where there are two pieces, there is a joint. -/
theorem joint_infix_intercalate (joint : List α) (pieces : List (List α))
    (hmany : 1 < pieces.length) : joint <:+: joint.intercalate pieces := by
  match pieces, hmany with
  | piece :: next :: rest, _ =>
      rw [List.intercalate_cons_cons]
      exact List.infix_append piece joint _

/-- There is more than one piece exactly where the word occurs. -/
theorem infix_iff_splitAll [DecidableEq α] (word s : List α) (hword : word ≠ []) :
    word <:+: s ↔ 1 < (splitAll word s).length := by
  constructor
  · intro h
    by_contra hone
    exact not_infix_of_splitAll word s hword hone h
  · intro hmany
    by_contra h
    rw [splitAll_of_absent word s h] at hmany
    exact absurd hmany (by simp)

end

end OpenFlight
