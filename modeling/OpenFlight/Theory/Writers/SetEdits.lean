import OpenFlight.Lib.LineInsertion
import OpenFlight.Theory.Writers.AcceptedEdits
import OpenFlight.Theory.Writers.ResolutionUndo

/-!
# Keys That Are Set

What is left of the changes of a diff that sets keys.

Each change is made to the text that the one before has left. Whether a key is there is
looked up anywhere in the text, but only lines that start with it are replaced; and a key
that is not there is put behind every place where the name of the section stands, wherever
that is. So a change gets lost where the key ends another word, or where the name of the
section is not there, and it is spoilt where something follows that name on its line.

Lines are taken here without the carriage returns at their ends, because each change takes
some of these away. Where a change is ready, the lines afterwards are the old ones with those
of the key replaced, or the old ones and one more. Then the other keys are set as they were
before, and the rest is an induction on the changes. Its converse needs that no two changes
write the same line, since one of them can make up for the other.

## Main definitions

* `whatFollows`, `Ready`, `AllReady`: The text before a change, and before each change.
* `SetsAll`: The condition for all changes of a diff.

## Theorems

* `sets_of_allReady`, `allReady_of_sets`: All changes.
* `set_edits_kept`: When the changes of a diff are in the file.
-/

namespace OpenFlight.Writers.CurveConflict

open Rules (Text isWhitespace lines stripCarriageReturn)

section

/-- A line without the carriage returns at its end. -/
def stripReturns (line : Text) : Text :=
  line.rdropWhile fun c => c = '\r'

/-- The lines of a text without their carriage returns. -/
def rows (content : Text) : List Text :=
  (splitAll ['\n'] content).map stripReturns

/-- Some line gives a key its value, and no line gives it another one. -/
structure Sets (content : Text) (key value : String) : Prop where
  there : ∃ row ∈ rows content, row.dropWhile isWhitespace = entryLine key.toList value.toList
  only : ∀ row ∈ rows content, setsKey key row = true →
    row.dropWhile isWhitespace = entryLine key.toList value.toList

/-- A key and a value that a line can say. -/
structure WritableEntry (key value : String) : Prop where
  keyLine : '\n' ∉ key.toList
  keyFront : ∀ c, key.toList.head? = some c → isWhitespace c = false
  valueLine : '\n' ∉ value.toList
  valueEnd : value.toList.getLast? ≠ some '\r'

variable {key value : String}

theorem toList_entry (key value : String) :
    (key ++ "=" ++ value).toList = entryLine key.toList value.toList := by
  rw [String.toList_append, String.toList_append]
  rfl

theorem setsKey_iff (key : String) (line : Text) :
    setsKey key line = true ↔ key.toList ++ ['='] <+: line.dropWhile isWhitespace := by
  rw [setsKey, List.isPrefixOf_iff_prefix, String.toList_append]
  rfl

theorem prefix_entryLine (key value : Text) : key ++ ['='] <+: entryLine key value :=
  ⟨value, rfl⟩

theorem not_returns_stripReturns (line : Text) : (stripReturns line).getLast? ≠ some '\r' := by
  intro h
  have hne : stripReturns line ≠ [] := by
    intro hnil
    rw [hnil] at h
    cases h
  rw [List.getLast?_eq_some_getLast hne, Option.some.injEq] at h
  exact List.rdropWhile_last_not _ _ hne (by simpa [stripReturns] using h)

theorem not_mem_of_mem_rows {content row : Text} (h : row ∈ rows content) : '\n' ∉ row := by
  rcases List.mem_map.mp h with ⟨line, hline, rfl⟩
  exact fun hmem => not_mem_of_mem_splitAll hline ((List.rdropWhile_prefix _ line).subset hmem)

/-- Carriage returns at the end of a line do not change the key that it sets. -/
theorem setsKey_stripReturns (key : String) (line : Text) :
    setsKey key (stripReturns line) = setsKey key line := by
  have hline : line.rdropWhile (fun c => decide (c = '\r'))
      ++ line.rtakeWhile (fun c => decide (c = '\r')) = line := List.rdropWhile_append_rtakeWhile
  have hreturns : ∀ c ∈ line.rtakeWhile fun c => decide (c = '\r'), c = '\r' :=
    fun c hc => by simpa using List.mem_rtakeWhile_imp hc
  rw [Bool.eq_iff_iff, setsKey_iff, setsKey_iff, stripReturns]
  generalize line.rdropWhile (fun c => decide (c = '\r')) = front at hline
  generalize line.rtakeWhile (fun c => decide (c = '\r')) = returns at hline hreturns
  rw [← hline, List.dropWhile_append]
  split_ifs with hempty
  · have hnone : returns.dropWhile isWhitespace = [] := by
      refine List.dropWhile_eq_nil_iff.mpr fun c hc => ?_
      rw [hreturns c hc]
      decide
    rw [hnone, List.isEmpty_iff.mp hempty]
  · rw [prefix_append_iff]
    refine ⟨Or.inl, ?_⟩
    rintro (h | ⟨rest, hrest, hwithin⟩)
    · exact h
    · rcases List.eq_nil_or_concat rest with rfl | ⟨start, last, rfl⟩
      · rw [List.append_nil] at hrest
        rw [hrest]
      · -- The sign of the assignment would be a carriage return.
        rw [List.concat_eq_append, ← List.append_assoc] at hrest
        have hsign := (List.append_inj_right' hrest rfl)
        have hlast := hreturns last (hwithin.subset (by simp))
        rw [hlast] at hsign
        exact absurd hsign (by decide)

section

variable (h : WritableEntry key value)

include h

/-- A line that starts with the entry has no blanks in front. -/
theorem WritableEntry.dropWhile_append (rest : Text) :
    (entryLine key.toList value.toList ++ rest).dropWhile isWhitespace
      = entryLine key.toList value.toList ++ rest := by
  rw [dropWhile_eq_self_iff_head, List.head?_append, head?_entryLine, Option.some_or]
  intro c hc
  rw [Option.some.injEq] at hc
  rw [← hc]
  cases hhead : key.toList.head? with
  | none => decide
  | some d => exact h.keyFront d hhead

theorem WritableEntry.dropWhile : (entryLine key.toList value.toList).dropWhile isWhitespace
      = entryLine key.toList value.toList := by
  have hfront := h.dropWhile_append []
  rwa [List.append_nil] at hfront

theorem WritableEntry.not_mem : '\n' ∉ entryLine key.toList value.toList := by
  simp [entryLine, h.keyLine, h.valueLine]

theorem WritableEntry.getLast? : (entryLine key.toList value.toList).getLast? ≠ some '\r' := by
  rw [getLast?_entryLine]
  cases hlast : value.toList.getLast? with
  | none => decide
  | some c =>
      rw [Option.getD_some, ne_eq, Option.some.injEq]
      rintro rfl
      exact h.valueEnd hlast

end

/-- Only an entry that a line can say is there. -/
theorem WritableEntry.of_sets {content : Text} (h : Sets content key value) :
    WritableEntry key value := by
  rcases h.there with ⟨row, hrow, hread⟩
  have hsuffix := List.dropWhile_suffix isWhitespace (l := row)
  have hfeed : '\n' ∉ entryLine key.toList value.toList := by
    rw [← hread]
    exact fun hmem => not_mem_of_mem_rows hrow (hsuffix.subset hmem)
  rw [entryLine, List.mem_append, List.mem_append, not_or, not_or] at hfeed
  refine
    { keyLine := hfeed.1.1
      keyFront := fun c hc => ?_
      valueLine := hfeed.2
      valueEnd := fun hlast => ?_ }
  · have hfront := List.head?_dropWhile_not isWhitespace row
    rw [hread, head?_entryLine, hc] at hfront
    exact hfront
  · have hend : (row.dropWhile isWhitespace).getLast? = some '\r' := by
      rw [hread, getLast?_entryLine, hlast, Option.getD_some]
    rw [← List.singleton_suffix_iff_getLast?_eq_some] at hend
    rcases List.mem_map.mp hrow with ⟨line, -, rfl⟩
    exact not_returns_stripReturns line
      (List.singleton_suffix_iff_getLast?_eq_some.mp (hend.trans hsuffix))

end

section

variable {key value : String}

theorem stripReturns_stripCarriageReturn (line : Text) :
    stripReturns (stripCarriageReturn line) = stripReturns line := by
  unfold stripCarriageReturn
  split_ifs with h
  · obtain ⟨front, rfl⟩ := List.getLast?_eq_some_iff.mp h
    rw [List.dropLast_concat, stripReturns, stripReturns,
      List.rdropWhile_concat_pos _ _ _ (by decide)]
  · rfl

/-- The loop over the lines sees all of them but for an empty one at the end. -/
theorem mem_rows_iff_lines {content row : Text} (hrow : row ≠ []) :
    row ∈ rows content ↔ ∃ line ∈ lines content, stripReturns line = row := by
  have hlines : lines content = reread (splitAll ['\n'] content) := rfl
  have hstrip : stripReturns ∘ stripCarriageReturn = stripReturns :=
    funext stripReturns_stripCarriageReturn
  rcases List.eq_nil_or_concat (splitAll ['\n'] content) with hnil | ⟨front, last, hpieces⟩
  · exact absurd hnil (splitAll_ne_nil _ _)
  · rw [← List.mem_map, rows, hlines, hpieces, List.concat_eq_append, reread_concat,
      List.map_append, List.map_append, List.map_map, hstrip, List.mem_append, List.mem_append]
    refine or_congr_right ?_
    by_cases hlast : last = []
    · rw [if_pos hlast, hlast]
      simpa [stripReturns] using hrow
    · rw [if_neg hlast]

theorem lines_ne_nil {content : Text} (hcontent : content ≠ []) : lines content ≠ [] := by
  have hlines : lines content = reread (splitAll ['\n'] content) := rfl
  have hjoin := intercalate_splitAll ['\n'] content
  intro hnil
  rcases List.eq_nil_or_concat (splitAll ['\n'] content) with hnone | ⟨front, last, hpieces⟩
  · exact splitAll_ne_nil _ _ hnone
  · rw [hlines, hpieces, List.concat_eq_append, reread_concat, List.append_eq_nil_iff,
      List.map_eq_nil_iff] at hnil
    have hlast : last = [] := by
      by_contra hne
      rw [if_neg hne] at hnil
      cases hnil.2
    rw [hpieces, List.concat_eq_append, hnil.1, hlast] at hjoin
    exact hcontent hjoin.symm

theorem ne_nil_of_setsKey {row : Text} (h : setsKey key row = true) : row ≠ [] := by
  rintro rfl
  rw [setsKey_iff, List.dropWhile_nil, List.prefix_nil] at h
  simp at h

theorem WritableEntry.stripReturns (h : WritableEntry key value) :
    stripReturns (entryLine key.toList value.toList) = entryLine key.toList value.toList := by
  rw [CurveConflict.stripReturns, List.rdropWhile_eq_self_iff]
  intro hne hreturn
  refine h.getLast? ?_
  rw [List.getLast?_eq_some_getLast hne, Option.some.injEq]
  simpa using hreturn

/-- The lines after those of a key were replaced. -/
theorem mem_rows_replaced (h : WritableEntry key value) {content row : Text}
    (hcontent : content ≠ []) (hrow : row ≠ []) :
    row ∈ rows (joinLines ((lines content).map fun line =>
        if setsKey key line then (key ++ "=" ++ value).toList else line)).toList ↔
      ∃ old ∈ rows content, row =
        if setsKey key old then entryLine key.toList value.toList else old := by
  have hone : ∀ line ∈ (lines content).map fun line =>
      if setsKey key line then (key ++ "=" ++ value).toList else line, '\n' ∉ line := by
    simp only [List.forall_mem_map, toList_entry]
    intro line hline
    split_ifs
    · exact h.not_mem
    · exact not_mem_lines hline
  have hne : ((lines content).map fun line =>
      if setsKey key line then (key ++ "=" ++ value).toList else line) ≠ [] :=
    fun hnil => lines_ne_nil hcontent (List.map_eq_nil_iff.mp hnil)
  rw [joinLines, String.toList_ofList, rows, splitAll_intercalate_lines hne hone, List.map_map,
    List.mem_map]
  simp only [Function.comp_apply, toList_entry]
  constructor
  -- The loop over the lines takes one return off; the others go with the rows.
  · rintro ⟨line, hline, rfl⟩
    refine ⟨CurveConflict.stripReturns line, ?_, ?_⟩
    · refine (mem_rows_iff_lines fun hnil => hrow ?_).mpr ⟨line, hline, rfl⟩
      have hset : ¬ setsKey key line = true := by
        rw [← setsKey_stripReturns, hnil]
        exact fun hset => ne_nil_of_setsKey hset rfl
      rw [if_neg hset, hnil]
    · rw [setsKey_stripReturns]
      split_ifs
      · exact h.stripReturns
      · rfl
  · rintro ⟨old, hold, rfl⟩
    have hold' : old ≠ [] := by
      rintro rfl
      refine hrow ?_
      rw [if_neg fun hset => ne_nil_of_setsKey hset rfl]
    rcases (mem_rows_iff_lines hold').mp hold with ⟨line, hline, rfl⟩
    refine ⟨line, hline, ?_⟩
    rw [setsKey_stripReturns]
    split_ifs
    · exact h.stripReturns
    · rfl

/-- What follows each of the names before these pieces, up to the end of the line or of the
    next name. -/
def afterNames (name : Text) : List Text → List Text
  | [] => []
  | [piece] => [firstLine '\n' piece]
  | piece :: next :: rest => firstLine '\n' (piece ++ name) :: afterNames name (next :: rest)

/-- What follows the occurrences of a name. The empty name stands before every character
    and at the end. -/
def whatFollows (name content : Text) : List Text :=
  if name = [] then content.map (fun c => firstLine '\n' [c]) ++ [[]]
  else afterNames name (splitAll name content).tail

/-- The lines after a line was put into a text, behind places that nothing follows. -/
theorem mem_rows_of_inserted {line s t : Text} {ends : List Text} (hline : '\n' ∉ line)
    (hlast : line.getLast? ≠ some '\r') (h : Inserted '\n' line s t ends) (hne : ends ≠ [])
    (hends : ∀ rest ∈ ends, ∀ c ∈ rest, c = '\r') (row : Text) :
    row ∈ rows t ↔ row ∈ rows s ∨ row = line := by
  have hlast' : ∀ c, line.getLast? = some c → decide (c = '\r') = false := by
    intro c hc
    refine decide_eq_false ?_
    rintro rfl
    exact hlast hc
  rcases lines_of_inserted hline hlast' h (fun rest hrest c hc =>
    decide_eq_true (hends rest hrest c hc)) with ⟨hfirst, hlater⟩
  rw [rows, rows, splitAll_eq, splitAll_eq, List.map_cons, List.map_cons, List.mem_cons,
    List.mem_cons, or_assoc]
  refine or_congr ?_ ?_
  · rw [stripReturns, hfirst, stripReturns]
  · exact (hlater row).trans (or_congr_right (and_iff_left hne))

theorem inserted_intercalate (line name piece : Text) (pieces : List Text) :
    Inserted '\n' line (name.intercalate (piece :: pieces))
      ((name ++ '\n' :: line).intercalate (piece :: pieces)) (afterNames name pieces) := by
  induction pieces generalizing piece with
  | nil =>
      rw [List.intercalate_singleton, List.intercalate_singleton]
      exact Inserted.refl piece
  | cons next rest ih =>
      have hfirst : afterNames name (next :: rest) =
          firstLine '\n' ((name ++ '\n' :: line).intercalate (next :: rest)) ::
            afterNames name rest := by
        cases rest with
        | nil => rw [List.intercalate_singleton, afterNames, afterNames]
        | cons later rest =>
            rw [List.intercalate_cons_cons, ← List.append_assoc, List.append_assoc,
              List.cons_append, firstLine_append_sep, afterNames]
      rw [List.intercalate_cons_cons, List.intercalate_cons_cons, hfirst]
      have hplace := (Inserted.place (ih next)).append (piece ++ name)
      simpa using hplace

theorem inserted_everywhere (line content : Text) :
    Inserted '\n' line content (content.flatMap (fun c => '\n' :: line ++ [c]) ++ '\n' :: line)
      (content.map (fun c => firstLine '\n' [c]) ++ [[]]) := by
  induction content with
  | nil =>
      have hplace := Inserted.place (Inserted.nil : Inserted '\n' line [] [] [])
      rw [List.append_nil] at hplace
      exact hplace
  | cons c rest ih =>
      -- The next place comes right after the character.
      obtain ⟨later, hlater⟩ : ∃ later, rest.flatMap (fun c => '\n' :: line ++ [c]) ++ '\n' :: line
          = '\n' :: later := by
        cases rest <;> exact ⟨_, rfl⟩
      have hplace := Inserted.place (Inserted.cons c ih)
      rw [hlater, ← List.singleton_append (l := '\n' :: later), firstLine_append_sep, ← hlater]
        at hplace
      simpa using hplace

/-- The text with a line behind each occurrence of a name. -/
theorem inserted_replaceText (content name line : String) : Inserted '\n' line.toList content.toList
      (replaceText content name (name ++ "\n" ++ line)).toList
      (whatFollows name.toList content.toList) := by
  have hline : (name ++ "\n" ++ line).toList = name.toList ++ '\n' :: line.toList := by
    simp
  unfold whatFollows
  by_cases hname : name = ""
  · subst hname
    have hempty : "".isEmpty = true := rfl
    rw [if_pos (show "".toList = [] from rfl), replaceText, if_pos hempty,
      String.toList_ofList, hline]
    exact inserted_everywhere line.toList content.toList
  · have hne : name.toList ≠ [] := fun h => hname (String.toList_eq_nil_iff.mp h)
    obtain ⟨piece, pieces, hpieces⟩ :=
      List.exists_cons_of_ne_nil (splitAll_ne_nil name.toList content.toList)
    have hjoin := intercalate_splitAll name.toList content.toList
    rw [if_neg hne, toList_replaceText hname, hline, hpieces, List.tail_cons]
    rw [hpieces] at hjoin
    have hinserted := inserted_intercalate line.toList name.toList piece pieces
    rwa [hjoin] at hinserted

theorem whatFollows_ne_nil {name content : Text} (h : name <:+: content) :
    whatFollows name content ≠ [] := by
  unfold whatFollows
  split_ifs with hname
  · exact List.append_ne_nil_of_right_ne_nil _ (List.cons_ne_nil _ _)
  · have hmany := (infix_iff_splitAll name content hname).mp h
    match splitAll name content, hmany with
    | piece :: next :: rest, _ =>
        cases rest <;> exact List.cons_ne_nil _ _

end

section

variable {sectionName : Option String} {content key value : String}

/-- A text that a key can be set in: some line sets it, or it is nowhere, and the section, if
    there is one, is there with nothing behind its name. -/
def Ready (sectionName : Option String) (content : Text) (key : String) : Prop :=
  if (key ++ "=").toList <:+: content then ∃ line ∈ lines content, setsKey key line = true
  else
    ∀ name, sectionName = some name → name.toList <:+: content ∧
      ∀ rest ∈ whatFollows name.toList content, ∀ c ∈ rest, c = '\r'

/-- The key is somewhere in the text, but not necessarily at the start of a line. -/
theorem infix_of_setsKey {row : Text} (hrow : row ∈ rows content.toList)
    (h : setsKey key row = true) : (key ++ "=").toList <:+: content.toList := by
  rcases List.mem_map.mp hrow with ⟨line, hline, rfl⟩
  rw [setsKey, List.isPrefixOf_iff_prefix] at h
  exact h.isInfix.trans ((List.dropWhile_suffix _).isInfix.trans
    ((List.rdropWhile_prefix _ line).isInfix.trans (splitAll_spec _ _ line (by simp) hline).1))

/-- What the line of a key that is nowhere is put into. -/
theorem inserted_setChange (sectionName : Option String) (value : String)
    (habsent : ¬ (key ++ "=").toList <:+: content.toList) :
    (¬ Ready sectionName content.toList key ∧ setChange sectionName content key value = content) ∨
    ∃ ends, ends ≠ [] ∧ Inserted '\n' (entryLine key.toList value.toList) content.toList
        (setChange sectionName content key value).toList ends ∧
      (Ready sectionName content.toList key ↔ ∀ rest ∈ ends, ∀ c ∈ rest, c = '\r') := by
  unfold setChange Ready
  rw [if_neg habsent, if_neg habsent]
  cases sectionName with
  | none =>
      refine Or.inr ⟨[[]], List.cons_ne_nil _ _, ?_, by simp⟩
      have hend : Inserted '\n' (entryLine key.toList value.toList) [] [] [] := .nil
      have hplace := hend.place.append content.toList
      simpa [entryLine, firstLine] using hplace
  | some name =>
      by_cases hname : name.toList <:+: content.toList
      · refine Or.inr ⟨_, whatFollows_ne_nil hname, ?_, ?_⟩
        · have hinserted := inserted_replaceText content name (key ++ "=" ++ value)
          rw [toList_entry] at hinserted
          simpa only [if_pos hname] using hinserted
        · simp [hname]
      · exact Or.inl ⟨fun h => hname (h name rfl).1, by simp only [if_neg hname]⟩

/-- The lines after the line of a key was added. -/
theorem mem_rows_added (h : WritableEntry key value)
    (habsent : ¬ (key ++ "=").toList <:+: content.toList)
    (hready : Ready sectionName content.toList key) (row : Text) :
    row ∈ rows (setChange sectionName content key value).toList ↔
      row ∈ rows content.toList ∨ row = entryLine key.toList value.toList := by
  rcases inserted_setChange sectionName value habsent with ⟨hnot, -⟩ | ⟨ends, hne, hinserted, hends⟩
  · exact absurd hready hnot
  · exact mem_rows_of_inserted h.not_mem h.getLast? hinserted hne (hends.mp hready) row

/-- The lines after those of a key were replaced by a change. -/
theorem mem_rows_set (h : WritableEntry key value)
    (hpresent : (key ++ "=").toList <:+: content.toList) {row : Text} (hrow : row ≠ []) :
    row ∈ rows (setChange sectionName content key value).toList ↔
      ∃ old ∈ rows content.toList, row =
        if setsKey key old then entryLine key.toList value.toList else old := by
  have hcontent : content.toList ≠ [] := by
    intro hnil
    rw [hnil, List.infix_nil] at hpresent
    simp at hpresent
  unfold setChange
  rw [if_pos hpresent]
  exact mem_rows_replaced h hcontent hrow

theorem setsKey_of_dropWhile {row : Text}
    (h : row.dropWhile isWhitespace = entryLine key.toList value.toList) :
    setsKey key row = true := by
  rw [setsKey_iff, h]
  exact prefix_entryLine _ _

/-- A key that is somewhere is set if and only if a line sets it. -/
theorem sets_replaced_iff (h : WritableEntry key value)
    (hpresent : (key ++ "=").toList <:+: content.toList) :
    Sets (setChange sectionName content key value).toList key value ↔
      Ready sectionName content.toList key := by
  rw [Ready, if_pos hpresent]
  constructor
  · rintro ⟨⟨row, hrow, hread⟩, -⟩
    have hset := setsKey_of_dropWhile hread
    rcases (mem_rows_set h hpresent (ne_nil_of_setsKey hset)).mp hrow with ⟨old, hold, heq⟩
    have hold' : setsKey key old = true := by
      by_contra hnot
      rw [if_neg hnot] at heq
      exact hnot (heq ▸ hset)
    rcases (mem_rows_iff_lines (ne_nil_of_setsKey hold')).mp hold with ⟨line, hline, rfl⟩
    exact ⟨line, hline, by rwa [setsKey_stripReturns] at hold'⟩
  · rintro ⟨line, hline, hset⟩
    rw [← setsKey_stripReturns] at hset
    have hold := (mem_rows_iff_lines (ne_nil_of_setsKey hset)).mpr ⟨line, hline, rfl⟩
    refine ⟨⟨_, (mem_rows_set h hpresent (ne_nil_of_setsKey
      (setsKey_of_dropWhile h.dropWhile))).mpr ⟨_, hold, (if_pos hset).symm⟩, h.dropWhile⟩, ?_⟩
    intro row hrow hset'
    rcases (mem_rows_set h hpresent (ne_nil_of_setsKey hset')).mp hrow with ⟨old, -, heq⟩
    split_ifs at heq with hold'
    · rw [heq, h.dropWhile]
    · exact absurd (heq ▸ hset') hold'

/-- A key that is nowhere is set if and only if nothing follows the places for it. -/
theorem sets_added_iff (h : WritableEntry key value)
    (habsent : ¬ (key ++ "=").toList <:+: content.toList) :
    Sets (setChange sectionName content key value).toList key value ↔
      Ready sectionName content.toList key := by
  have hnone : ∀ row ∈ rows content.toList, ¬ setsKey key row = true :=
    fun row hrow hset => habsent (infix_of_setsKey hrow hset)
  constructor
  · intro hsets
    rcases inserted_setChange sectionName value habsent with
      ⟨-, hsame⟩ | ⟨ends, -, hinserted, hends⟩
    · rw [hsame] at hsets
      rcases hsets.there with ⟨row, hrow, hread⟩
      exact absurd (setsKey_of_dropWhile hread) (hnone row hrow)
    · refine hends.mpr fun rest hrest => ?_
      -- Something else behind the new line would be a line that gives another value.
      by_contra hnot
      have hblank : rest.rdropWhile (fun c => decide (c = '\r')) ≠ [] := by
        rw [ne_eq, List.rdropWhile_eq_nil_iff]
        simpa using hnot
      have hlater := mem_laterLines_of_inserted h.not_mem hinserted rest hrest
      have hrow : stripReturns (entryLine key.toList value.toList ++ rest) ∈
          rows (setChange sectionName content key value).toList := by
        rw [rows, splitAll_eq]
        exact List.mem_map_of_mem (List.mem_cons_of_mem _ hlater)
      rw [stripReturns, rdropWhile_append, if_neg hblank] at hrow
      have hset : setsKey key (entryLine key.toList value.toList ++
          rest.rdropWhile fun c => decide (c = '\r')) = true := by
        rw [setsKey_iff, h.dropWhile_append]
        exact (prefix_entryLine _ _).trans (List.prefix_append _ _)
      have hread := hsets.only _ hrow hset
      rw [h.dropWhile_append, List.append_right_eq_self] at hread
      exact hblank hread
  · intro hready
    have hrows := mem_rows_added h habsent hready
    refine ⟨⟨_, (hrows _).mpr (Or.inr rfl), h.dropWhile⟩, fun row hrow hset => ?_⟩
    rcases (hrows row).mp hrow with hold | rfl
    · exact absurd hset (hnone row hold)
    · exact h.dropWhile

/-- A change sets its key if and only if the text is ready for it. -/
theorem sets_setChange_iff (h : WritableEntry key value) :
    Sets (setChange sectionName content key value).toList key value ↔
      Ready sectionName content.toList key := by
  by_cases hpresent : (key ++ "=").toList <:+: content.toList
  · exact sets_replaced_iff h hpresent
  · exact sets_added_iff h hpresent

/-- The line of an entry sets a key. -/
def Starts (key key' value' : String) : Prop :=
  key.toList ++ ['='] <+: entryLine key'.toList value'.toList

variable {key' value' : String}

section

variable (h : WritableEntry key value) (hready : Ready sectionName content.toList key)

include h hready

/-- A change leaves other keys set, if the lines that set both keys are the same. -/
theorem Sets.setChange (hnew : Starts key' key value →
      entryLine key.toList value.toList = entryLine key'.toList value'.toList)
    (hold : Starts key key' value' →
      entryLine key.toList value.toList = entryLine key'.toList value'.toList)
    (hsets : Sets content.toList key' value') :
    Sets (CurveConflict.setChange sectionName content key value).toList key' value' := by
  rcases hsets with ⟨⟨row, hrow, hread⟩, honly⟩
  have hrow' : row ≠ [] := ne_nil_of_setsKey (setsKey_of_dropWhile hread)
  have hentry : ∀ row, row = entryLine key.toList value.toList → setsKey key' row = true →
      row.dropWhile isWhitespace = entryLine key'.toList value'.toList := by
    rintro _ rfl hset
    rw [setsKey_iff, h.dropWhile] at hset
    rw [h.dropWhile, hnew hset]
  by_cases hpresent : (key ++ "=").toList <:+: content.toList
  · constructor
    · by_cases hset : setsKey key row = true
      · -- The line is replaced by itself.
        have hsame := hold (by rwa [setsKey_iff, hread] at hset)
        have hne : entryLine key.toList value.toList ≠ [] :=
          ne_nil_of_setsKey (setsKey_of_dropWhile h.dropWhile)
        refine ⟨_, (mem_rows_set h hpresent hne).mpr ⟨row, hrow, (if_pos hset).symm⟩, ?_⟩
        rw [h.dropWhile, hsame]
      · exact ⟨row, (mem_rows_set h hpresent hrow').mpr ⟨row, hrow, (if_neg hset).symm⟩, hread⟩
    · intro row hrow hset
      rcases (mem_rows_set h hpresent (ne_nil_of_setsKey hset)).mp hrow with ⟨old, hold', heq⟩
      split_ifs at heq
      · exact hentry row heq hset
      · rw [heq] at hset ⊢
        exact honly old hold' hset
  · have hrows := mem_rows_added h hpresent hready
    refine ⟨⟨row, (hrows row).mpr (Or.inl hrow), hread⟩, fun row hrow hset => ?_⟩
    rcases (hrows row).mp hrow with hrow | heq
    · exact honly row hrow hset
    · exact hentry row heq hset

/-- Keys that are set after a change were so before, if no line sets both. -/
theorem Sets.of_setChange (hnew : ¬ Starts key' key value) (hold : ¬ Starts key key' value')
    (hsets : Sets (CurveConflict.setChange sectionName content key value).toList key' value') :
    Sets content.toList key' value' := by
  rcases hsets with ⟨⟨row, hrow, hread⟩, honly⟩
  have hset := setsKey_of_dropWhile hread
  have hother : row ≠ entryLine key.toList value.toList := by
    rintro rfl
    rw [setsKey_iff, h.dropWhile] at hset
    exact hnew hset
  by_cases hpresent : (key ++ "=").toList <:+: content.toList
  · constructor
    · rcases (mem_rows_set h hpresent (ne_nil_of_setsKey hset)).mp hrow with ⟨old, hold', heq⟩
      split_ifs at heq
      · exact absurd heq hother
      · exact ⟨old, hold', heq ▸ hread⟩
    · intro row hrow hset'
      -- A line cannot set both keys: one would start with the other.
      have hapart : ¬ setsKey key row = true := by
        intro hboth
        rw [setsKey_iff] at hboth hset'
        rcases List.prefix_or_prefix_of_prefix hboth hset' with hpre | hpre
        · exact hold (hpre.trans (prefix_entryLine _ _))
        · exact hnew (hpre.trans (prefix_entryLine _ _))
      exact honly row ((mem_rows_set h hpresent (ne_nil_of_setsKey hset')).mpr
        ⟨row, hrow, (if_neg hapart).symm⟩) hset'
  · have hrows := mem_rows_added h hpresent hready
    refine ⟨⟨row, ((hrows row).mp hrow).resolve_right hother, hread⟩, fun row hrow hset => ?_⟩
    exact honly row ((hrows row).mpr (Or.inl hrow)) hset

end

end

section

variable (sectionName : Option String) (expand : String → String)

/-- The loop over the changes. -/
def setAll (content : String) (entries : List (Sigma fun _ : String => String)) : String :=
  entries.foldl (fun content entry => setChange sectionName content entry.1 (expand entry.2))
    content

/-- The text is ready for each change as the changes before it have left it. -/
def AllReady : String → List (Sigma fun _ : String => String) → Prop
  | _, [] => True
  | content, entry :: rest =>
      Ready sectionName content.toList entry.1 ∧
        AllReady (setChange sectionName content entry.1 (expand entry.2)) rest

variable {sectionName expand} {content key value : String}
  {entries : List (Sigma fun _ : String => String)}

/-- Changes for which the text is ready leave another key set. -/
theorem Sets.setAll (hwritable : ∀ entry ∈ entries, WritableEntry entry.1 (expand entry.2))
    (hnew : ∀ entry ∈ entries, Starts key entry.1 (expand entry.2) →
      entryLine entry.1.toList (expand entry.2).toList = entryLine key.toList value.toList)
    (hold : ∀ entry ∈ entries, Starts entry.1 key value →
      entryLine entry.1.toList (expand entry.2).toList = entryLine key.toList value.toList)
    (hready : AllReady sectionName expand content entries)
    (hsets : Sets content.toList key value) :
    Sets (CurveConflict.setAll sectionName expand content entries).toList key value := by
  induction entries generalizing content with
  | nil => exact hsets
  | cons entry rest ih =>
      have hfirst := hsets.setChange (hwritable entry List.mem_cons_self) hready.1
        (hnew entry List.mem_cons_self) (hold entry List.mem_cons_self)
      exact ih (fun e he => hwritable e (List.mem_cons_of_mem entry he))
        (fun e he => hnew e (List.mem_cons_of_mem entry he))
        (fun e he => hold e (List.mem_cons_of_mem entry he)) hready.2 hfirst

/-- A key that is set after changes for which the text was ready was set before. -/
theorem Sets.of_setAll (hwritable : ∀ entry ∈ entries, WritableEntry entry.1 (expand entry.2))
    (hapart : ∀ entry ∈ entries, ¬ Starts key entry.1 (expand entry.2) ∧ ¬ Starts entry.1 key value)
    (hready : AllReady sectionName expand content entries)
    (hsets : Sets (CurveConflict.setAll sectionName expand content entries).toList key value) :
    Sets content.toList key value := by
  induction entries generalizing content with
  | nil => exact hsets
  | cons entry rest ih =>
      rcases hapart entry List.mem_cons_self with ⟨hnew, hold⟩
      exact (ih (fun e he => hwritable e (List.mem_cons_of_mem entry he))
        (fun e he => hapart e (List.mem_cons_of_mem entry he)) hready.2 hsets).of_setChange
          (hwritable entry List.mem_cons_self) hready.1 hnew hold

/-- Where the text is ready for each change, all keys are set. -/
theorem sets_of_allReady (hready : AllReady sectionName expand content entries)
    (hwritable : ∀ entry ∈ entries, WritableEntry entry.1 (expand entry.2))
    (hsame : ∀ entry ∈ entries, ∀ other ∈ entries, Starts entry.1 other.1 (expand other.2) →
      entryLine other.1.toList (expand other.2).toList
        = entryLine entry.1.toList (expand entry.2).toList) :
    ∀ entry ∈ entries,
      Sets (setAll sectionName expand content entries).toList entry.1 (expand entry.2) := by
  induction entries generalizing content with
  | nil => simp
  | cons entry rest ih =>
      have hwritable' : ∀ e ∈ rest, WritableEntry e.1 (expand e.2) :=
        fun e he => hwritable e (List.mem_cons_of_mem entry he)
      intro changed hchanged
      rcases List.mem_cons.mp hchanged with rfl | hrest
      · -- The key is set by its own turn and left set by the later ones.
        have hset := (sets_setChange_iff (hwritable changed List.mem_cons_self)).mpr hready.1
        have hlater : Sets (setAll sectionName expand
            (setChange sectionName content changed.1 (expand changed.2)) rest).toList
              changed.1 (expand changed.2) := by
          refine hset.setAll hwritable' (fun e he => ?_) (fun e he => ?_) hready.2
          · exact hsame changed List.mem_cons_self e (List.mem_cons_of_mem _ he)
          · exact fun hstarts =>
              (hsame e (List.mem_cons_of_mem _ he) changed List.mem_cons_self hstarts).symm
        exact hlater
      · exact ih hready.2 hwritable' (fun e he o ho =>
          hsame e (List.mem_cons_of_mem entry he) o (List.mem_cons_of_mem entry ho)) changed hrest

/-- Where all keys are set and none starts the line of another, the text was ready for each
    change. -/
theorem allReady_of_sets (hapart : entries.Pairwise fun entry other =>
      ¬ Starts entry.1 other.1 (expand other.2) ∧ ¬ Starts other.1 entry.1 (expand entry.2))
    (hsets : ∀ entry ∈ entries,
      Sets (setAll sectionName expand content entries).toList entry.1 (expand entry.2)) :
    AllReady sectionName expand content entries := by
  -- From the last change back: the text was ready for those after the first, and they did not
  -- set its key.
  induction entries generalizing content with
  | nil => trivial
  | cons entry rest ih =>
      have hwritable : ∀ e ∈ entry :: rest, WritableEntry e.1 (expand e.2) :=
        fun e he => WritableEntry.of_sets (hsets e he)
      rw [List.pairwise_cons] at hapart
      have hrest : AllReady sectionName expand
          (setChange sectionName content entry.1 (expand entry.2)) rest :=
        ih hapart.2 fun e he => hsets e (List.mem_cons_of_mem entry he)
      refine ⟨(sets_setChange_iff (hwritable entry List.mem_cons_self)).mp ?_, hrest⟩
      exact (hsets entry List.mem_cons_self).of_setAll
        (fun e he => hwritable e (List.mem_cons_of_mem entry he)) hapart.1 hrest

end

section

variable (order : Iteration String String) (cwd : Path) (parameters : HashMap String String)

/-- Each key of a diff is set to its expanded value. -/
def AllSet (diff : CcConfigDiff) (content : Text) : Prop :=
  ∀ key value, diff.changes.lookup key = some value →
    Sets content key (expandParameters order value parameters)

/-- Two changes of a diff do not write the same line. -/
def DistinctLines (diff : CcConfigDiff) : Prop :=
  ∀ key value key' value', diff.changes.lookup key = some value →
    diff.changes.lookup key' = some value' → key ≠ key' →
      entryLine key.toList (expandParameters order value parameters).toList ≠
        entryLine key'.toList (expandParameters order value' parameters).toList

/-- A diff and a text in which it sets its keys. -/
structure SetsAll (diff : CcConfigDiff) (content : String) : Prop where
  writable : ∀ key value, diff.changes.lookup key = some value →
    WritableEntry key (expandParameters order value parameters)
  same : ∀ key value key' value', diff.changes.lookup key = some value →
    diff.changes.lookup key' = some value' →
      Starts key key' (expandParameters order value' parameters) →
        entryLine key'.toList (expandParameters order value' parameters).toList =
          entryLine key.toList (expandParameters order value parameters).toList
  ready : AllReady diff.sectionName (expandParameters order · parameters) content
    (order.entries diff.changes)

variable {order cwd parameters} {t t' : Tree} {diff : CcConfigDiff} {content : String}

theorem readText_of_set (hset : diff.operation = .set)
    (hread : readText cwd t (expandParameters order diff.file parameters) = some content)
    (h : applyDiff order cwd parameters t diff = (t', .ok ())) :
    readText cwd t' (expandParameters order diff.file parameters) =
      some (setAll diff.sectionName (expandParameters order · parameters) content
        (order.entries diff.changes)) := by
  unfold applyDiff at h
  simp only [hset] at h
  split_ifs at h
  · unfold rewriteFile at h
    simp only [hread] at h
    cases hwrite : writeText cwd t (expandParameters order diff.file parameters)
        (editText order parameters diff content) with
    | none =>
        rw [hwrite] at h
        cases h
    | some t₁ =>
        rw [hwrite, Prod.mk.injEq] at h
        rcases writeText_eq_some hwrite with ⟨p, hpath, hset'⟩
        rw [readText, hpath, Option.bind_some, ← h.1, hset',
          readToString_of_fileAt (by rw [FileTree.fileAt_set_file, if_pos rfl])]
        simp only [editText, hset]
        rfl
  · cases h

/-- After a diff that sets keys was applied, all of them are set if the text was ready for each
    change, and, where no two changes write the same line, only if it was. -/
theorem set_edits_kept (hset : diff.operation = .set)
    (hread : readText cwd t (expandParameters order diff.file parameters) = some content)
    (h : applyDiff order cwd parameters t diff = (t', .ok ())) :
    ∃ result, readText cwd t' (expandParameters order diff.file parameters) = some result ∧
      (SetsAll order parameters diff content → AllSet order parameters diff result.toList) ∧
      (DistinctLines order parameters diff → AllSet order parameters diff result.toList →
        SetsAll order parameters diff content) := by
  have hmem := order.mem_entries diff.changes
  refine ⟨_, readText_of_set hset hread h, fun hall => ?_, fun hdistinct hall => ?_⟩
  · intro key value hlookup
    have hsets := sets_of_allReady hall.ready
      (fun entry hentry => hall.writable _ _ ((hmem entry.1 entry.2).mp hentry))
      (fun entry hentry other hother => hall.same _ _ _ _ ((hmem entry.1 entry.2).mp hentry)
        ((hmem other.1 other.2).mp hother))
    exact hsets ⟨key, value⟩ ((hmem key value).mpr hlookup)
  · -- The line of a change that starts with another key gives that key its value.
    have hsame : ∀ key value key' value', diff.changes.lookup key = some value →
        diff.changes.lookup key' = some value' →
          Starts key key' (expandParameters order value' parameters) →
            entryLine key'.toList (expandParameters order value' parameters).toList =
              entryLine key.toList (expandParameters order value parameters).toList := by
      intro key value key' value' hlookup hlookup' hstarts
      rcases (hall key' value' hlookup').there with ⟨row, hrow, hread'⟩
      rw [← hread']
      refine (hall key value hlookup).only row hrow ?_
      rwa [setsKey_iff, hread']
    refine
      { writable := fun key value hlookup => WritableEntry.of_sets (hall key value hlookup)
        same := hsame
        ready := allReady_of_sets ?_ fun entry hentry =>
          hall entry.1 entry.2 ((hmem entry.1 entry.2).mp hentry) }
    refine (order.nodupKeys diff.changes).pairwise_ne.imp_of_mem fun {entry other} he ho hne => ?_
    have hentry := (hmem entry.1 entry.2).mp he
    have hother := (hmem other.1 other.2).mp ho
    refine ⟨fun hstarts => ?_, fun hstarts => ?_⟩
    · exact hdistinct _ _ _ _ hother hentry (Ne.symm hne)
        (hsame _ _ _ _ hentry hother hstarts)
    · exact hdistinct _ _ _ _ hentry hother hne (hsame _ _ _ _ hother hentry hstarts)

end

section

/-- A rate is set, without a section. -/
def rateDiff : CcConfigDiff where
  file := "game.cfg"
  sectionName := none
  changes := Finmap.singleton "Rate" "7"
  operation := .set

variable (order : Iteration String String)

theorem expandParameters_empty (text : String) : expandParameters order text ∅ = text := by
  rw [expandParameters, Iteration.entries_empty]
  rfl

theorem readText_rate {t : Tree} {content : String}
    (h : t.fileAt ["game.cfg"] = some content.toUTF8) :
    readText [] t (expandParameters order rateDiff.file ∅) = some content := by
  have hpath : filePath [] rateDiff.file = some ["game.cfg"] := by decide
  rw [expandParameters_empty, readText, hpath, Option.bind_some, readToString_of_fileAt h]

theorem fileAt_oneFile (content : String) :
    (oneFile "game.cfg" content).fileAt ["game.cfg"] = some content.toUTF8 := by
  rw [oneFile, FileTree.fileAt_set_file, if_pos rfl]

theorem applyDiff_rate (content : String) :
    applyDiff order [] ∅ (oneFile "game.cfg" content) rateDiff =
      ((oneFile "game.cfg" content).set ["game.cfg"]
        (.file (setChange none content "Rate" "7").toUTF8), .ok ()) := by
  have hpath : filePath [] rateDiff.file = some ["game.cfg"] := by decide
  have hread := readText_rate order (fileAt_oneFile content)
  have hedit : editText order ∅ rateDiff content = setChange none content "Rate" "7" := by
    simp only [editText, rateDiff, Iteration.entries_singleton, List.foldl_cons, List.foldl_nil,
      expandParameters_empty]
  rw [expandParameters_empty] at hread
  have hexists : pathExists [] (oneFile "game.cfg" content) rateDiff.file = true := by
    rw [pathExists, hpath]
    rfl
  have hoperation : rateDiff.operation = .set := rfl
  unfold applyDiff
  simp only [hoperation, expandParameters_empty, hexists, if_true, rewriteFile, hread, hedit,
    writeText, hpath]
  rfl

theorem lookup_rateDiff {key value : String} (h : rateDiff.changes.lookup key = some value) :
    key = "Rate" ∧ value = "7" := by
  have hmem := Finmap.mem_of_lookup_eq_some h
  rw [rateDiff, Finmap.mem_singleton] at hmem
  subst hmem
  rw [rateDiff, Finmap.lookup_singleton_eq, Option.some.injEq] at h
  exact ⟨rfl, h.symm⟩

theorem setsAll_rate : SetsAll default ∅ rateDiff "Rate=5" := by
  refine { writable := ?_, same := ?_, ready := ?_ }
  · intro key value hlookup
    rcases lookup_rateDiff hlookup with ⟨rfl, rfl⟩
    rw [expandParameters_empty]
    exact
      { keyLine := by decide
        keyFront := fun c hc => by
          rw [← Option.some.inj (show some 'R' = some c from hc)]
          decide
        valueLine := by decide
        valueEnd := by decide }
  · intro key value key' value' hlookup hlookup' _
    rcases lookup_rateDiff hlookup with ⟨rfl, rfl⟩
    rcases lookup_rateDiff hlookup' with ⟨rfl, rfl⟩
    rfl
  · rw [rateDiff, Iteration.entries_singleton]
    refine ⟨?_, trivial⟩
    rw [Ready, if_pos (by decide)]
    exact ⟨"Rate=5".toList, by decide, by decide⟩

/-- A rate that a line sets gets its value. -/
theorem set_edits_kept_rate : AllSet default ∅ rateDiff "Rate=7".toList := by
  have hset : rateDiff.operation = .set := rfl
  have hchange : setChange none "Rate=5" "Rate" "7" = "Rate=7" := by decide
  rcases set_edits_kept hset (readText_rate default (fileAt_oneFile "Rate=5"))
    (applyDiff_rate default "Rate=5") with ⟨result, hresult, hkept, -⟩
  rw [readText_rate default (by rw [FileTree.fileAt_set_file, if_pos rfl]), hchange,
    Option.some.injEq] at hresult
  rw [hresult]
  exact hkept setsAll_rate

/-- A rate that is only the end of another name is not set. -/
theorem not_set_edits_kept :
    ¬ ∀ (order : Iteration String String) (cwd : Path) (parameters : HashMap String String)
      (t t' : Tree) (diff : CcConfigDiff) (content : String), diff.operation = .set →
      (∀ key value, diff.changes.lookup key = some value →
        '\n' ∉ key.toList ∧ '\n' ∉ value.toList) →
      readText cwd t (expandParameters order diff.file parameters) = some content →
      applyDiff order cwd parameters t diff = (t', .ok ()) →
      ∃ result, readText cwd t' (expandParameters order diff.file parameters) = some result ∧
        AllSet order parameters diff result.toList := by
  intro h
  have hlines : ∀ key value, rateDiff.changes.lookup key = some value →
      '\n' ∉ key.toList ∧ '\n' ∉ value.toList := by
    intro key value hlookup
    rcases lookup_rateDiff hlookup with ⟨rfl, rfl⟩
    decide
  have hchange : setChange none "MaxRate=5" "Rate" "7" = "MaxRate=5" := by decide
  rcases h default [] ∅ _ _ rateDiff "MaxRate=5" rfl hlines
    (readText_rate default (fileAt_oneFile "MaxRate=5")) (applyDiff_rate default "MaxRate=5")
    with ⟨result, hresult, hall⟩
  rw [readText_rate default (by rw [FileTree.fileAt_set_file, if_pos rfl]), hchange,
    Option.some.injEq] at hresult
  have hsets := hall "Rate" "7" rfl
  rw [expandParameters_empty, ← hresult] at hsets
  rcases hsets.there with ⟨row, hrow, hread⟩
  have hrows : rows "MaxRate=5".toList = ["MaxRate=5".toList] := by decide
  rw [hrows, List.mem_singleton] at hrow
  rw [hrow] at hread
  exact absurd hread (by decide)

end

end OpenFlight.Writers.CurveConflict
