import OpenFlight.Core.Writers.Verify
import OpenFlight.Theory.Writers.IniLines

/-!
# Edits of INI Files

When an edit of a section has exactly the requested effect: the file says what it said,
with the changes of the section over it, verification accepts it, and the same edit again
does nothing.

The first two hold for every file, as long as the name of the section has no line feed.
The third does not. An edit takes a text apart into lines and puts line feeds between
them, so the line feed at the end is lost, and of two carriage returns before a line feed
one. If the text still ends with a line feed then, or a line with a carriage return, the
next edit takes that. So the lines have to be such that they come back when they are read
again, and the rest is to say which files have such results.

## Main definitions

* `AddsAtEnd`, `KeepsReturn`, `Settles`: The result is read as it was made.
* `IniExact`: Exactly the requested effect.

## Theorems

* `ini_exact_iff`: When an edit has exactly the requested effect.
-/

namespace OpenFlight.Writers

open Rules (Text trim lines stripCarriageReturn)

section

variable (order : Iteration String String) (target : Text) (changes : HashMap String String)

/-- The lines before keys are inserted. -/
def baseLines (ls : List Text) : List Text :=
  editLines target changes none ls ++ if HasSection target ls then [] else [[], headerLine target]

/-- The lines of the result. -/
def resultLines (ls : List Text) : List Text :=
  (order.entries changes).foldl (addKey target (appliedKeys target changes none ls))
    (baseLines target changes ls)

theorem applyIniChanges_eq (content sectionName : String) :
    applyIniChanges order content sectionName changes
      = String.ofList ([('\n' : Char)].intercalate
          (resultLines order sectionName.toList changes (lines content.toList))) := by
  rcases scan_eq sectionName.toList changes none (lines content.toList) {} rfl with
    ⟨hlines, happlied, hfound⟩
  have hbase : (if ((lines content.toList).foldl (scanLine sectionName.toList changes)
      {}).sectionFound then
        ((lines content.toList).foldl (scanLine sectionName.toList changes) {}).lines
      else ((lines content.toList).foldl (scanLine sectionName.toList changes) {}).lines ++
        [[], ['['] ++ sectionName.toList ++ [']']])
      = baseLines sectionName.toList changes (lines content.toList) := by
    rw [hlines, baseLines]
    by_cases hsection : HasSection sectionName.toList (lines content.toList)
    · rw [if_pos (hfound.mpr (Or.inr hsection)), if_pos hsection, List.append_nil]
      rfl
    · have hnot : ¬ ((lines content.toList).foldl (scanLine sectionName.toList changes)
          {}).sectionFound = true := fun h => hsection ((hfound.mp h).resolve_left (by simp))
      rw [if_neg hnot, if_neg hsection]
      rfl
  simp only [applyIniChanges]
  rw [hbase, happlied]
  rfl

variable {target changes} {ls : List Text}

section

variable (hlegible : LegibleChanges changes)

include hlegible

theorem hasSection_editLines (current : Option Text) :
    HasSection target (editLines target changes current ls) ↔ HasSection target ls := by
  induction ls generalizing current with
  | nil => rfl
  | cons line rest ih =>
      have hrest := ih (nextSection current line)
      simp only [HasSection] at hrest ⊢
      rw [editLines, List.exists_mem_cons_iff, List.exists_mem_cons_iff, hrest,
        (editLine_spec hlegible line).1]

theorem hasSection_baseLines (target : Text) (ls : List Text) :
    HasSection target (baseLines target changes ls) := by
  unfold baseLines
  split_ifs with hsection
  · rw [List.append_nil]
    exact (hasSection_editLines hlegible none).mpr hsection
  · exact ⟨headerLine target, by simp, sectionHeader_headerLine target⟩

theorem legible_entries :
    ∀ entry ∈ order.entries changes, LegibleEntry entry.1.toList entry.2.toList :=
  fun entry hentry =>
    hlegible entry.1 entry.2 ((order.mem_entries changes entry.1 entry.2).mp hentry)

/-- The keys that are not set in place are inserted at one place of the section. -/
theorem resultLines_split (target : Text) (ls : List Text) :
    ∃ front back, baseLines target changes ls = front ++ back ∧
      sectionAfter none front = some target ∧
      insertIndex target false 0 (baseLines target changes ls) = front.length ∧
      resultLines order target changes ls = front ++
        newLines (appliedKeys target changes none ls) (order.entries changes) ++ back := by
  rcases insertIndex_split none 0 (baseLines target changes ls)
    (Or.inr (hasSection_baseLines hlegible target ls)) with ⟨front, back, hbase, hafter, hindex⟩
  have hfalse : decide ((none : Option Text) = some target) = false := rfl
  rw [hfalse] at hindex
  simp only [Nat.zero_add] at hindex
  refine ⟨front, back, hbase, hafter, ?_, ?_⟩
  · have hhere := hindex [] (by simp)
    rw [List.append_nil] at hhere
    rw [hbase, hhere]
  · have hadd := addKeys_eq (appliedKeys target changes none ls) (order.entries changes) front []
      back (fun entry hentry => (entryLine_spec (legible_entries order hlegible entry hentry)).1)
      (by simp) hindex
    rw [List.append_nil, List.nil_append] at hadd
    rw [resultLines, hbase, hadd]

end

variable {entries : List (Sigma fun _ : String => String)}

section

variable (hentries : ∀ entry ∈ entries, LegibleEntry entry.1.toList entry.2.toList)

include hentries

/-- Inserted keys stay in their section. -/
theorem sectionAfter_newLines (applied : List String) (current : Option Text) :
    sectionAfter current (newLines applied entries) = current := by
  have hnone : ∀ line ∈ newLines applied entries, sectionHeader line = none := by
    simp only [newLines, List.forall_mem_map]
    intro entry hentry
    have hwritten := hentries entry (List.mem_of_mem_filter hentry)
    exact (entryLine_spec hwritten).1
  generalize newLines applied entries = added at hnone
  induction added generalizing current with
  | nil => rfl
  | cons line rest ih =>
      have hline : nextSection current line = current := by
        rw [nextSection, hnone line List.mem_cons_self, Option.none_or]
      rw [sectionAfter, List.foldl_cons, hline]
      exact ih current fun l hl => hnone l (List.mem_cons_of_mem line hl)

/-- Inserted keys, as they are read. -/
theorem valueFrom_newLines (hnodup : entries.NodupKeys) (applied : List String)
    (sectionName : Option Text) (key : Text) :
    valueFrom sectionName key (some target) (newLines applied entries) =
      if sectionName = some target ∧ String.ofList key ∉ applied then
        (entries.dlookup (String.ofList key)).map String.toList
      else none := by
  induction entries with
  | nil => simp [newLines, valueFrom]
  | cons entry rest ih =>
      rcases entry with ⟨k, v⟩
      have hwritten := hentries ⟨k, v⟩ List.mem_cons_self
      -- No later entry has this key, so the last line that sets it is this one.
      have hrest := ih (fun e he => hentries e (List.mem_cons_of_mem _ he))
        (List.nodupKeys_cons.mp hnodup).2
      have hlater : k ∉ rest.keys := (List.nodupKeys_cons.mp hnodup).1
      by_cases happlied : k ∈ applied
      · have hsame : newLines applied (⟨k, v⟩ :: rest) = newLines applied rest := by
          simp [newLines, happlied]
        rw [hsame, hrest]
        by_cases hk : String.ofList key = k
        · rw [hk, if_neg fun h => h.2 happlied, if_neg fun h => h.2 happlied]
        · rw [List.dlookup_cons_ne _ _ hk]
      · have hcons : newLines applied (⟨k, v⟩ :: rest)
            = entryLine k.toList v.toList :: newLines applied rest := by
          simp [newLines, happlied]
        rcases entryLine_spec hwritten with ⟨hheader, hassigned, -⟩
        have hnext : nextSection (some target) (entryLine k.toList v.toList) = some target := by
          rw [nextSection, hheader, Option.none_or]
        rw [hcons, valueFrom, hnext, hrest]
        by_cases hk : k.toList = key
        · have hof : String.ofList key = k := by rw [← hk, String.ofList_toList]
          have hown : ownValue key (entryLine k.toList v.toList) = some v.toList := by
            rw [ownValue, hassigned, Option.bind_some]
            exact if_pos hk
          rw [hof, List.dlookup_eq_none.mpr hlater, List.dlookup_cons_eq, hown]
          by_cases hsection : sectionName = some target
          · simp [hsection, happlied]
          · simp [hsection, Ne.symm hsection]
        · have hof : String.ofList key ≠ k := by
            rintro rfl
            exact hk String.toList_ofList
          have hown : ownValue key (entryLine k.toList v.toList) = none := by
            rw [ownValue, hassigned, Option.bind_some]
            exact if_neg hk
          rw [hown, ite_self, Option.or_none, List.dlookup_cons_ne _ _ hof]

end

/-- The result, as it is read: the old values, overridden by the changes. -/
theorem valueFrom_resultLines (hlegible : LegibleChanges changes) (sectionName : Option Text)
    (key : Text) :
    valueFrom sectionName key none (resultLines order target changes ls) =
      if sectionName = some target then
        ((changes.lookup (String.ofList key)).map String.toList).or
          (valueFrom sectionName key none ls)
      else valueFrom sectionName key none ls := by
  have hbaseLines : valueFrom sectionName key none (baseLines target changes ls) =
      valueFrom sectionName key none (editLines target changes none ls) := by
    have hextra : ∀ current, valueFrom sectionName key current
        (if HasSection target ls then [] else [[], headerLine target]) = none := by
      intro current
      have hblank : ownValue key [] = none := rfl
      have hheader : ownValue key (headerLine target) = none := by
        rw [ownValue, assigned_of_header (sectionHeader_headerLine target), Option.bind_none]
      split_ifs
      · rfl
      · rw [valueFrom, valueFrom, valueFrom, hblank, hheader, ite_self, ite_self, Option.or_none,
          Option.or_none]
    rw [baseLines, valueFrom_append, hextra, Option.none_or]
  rcases resultLines_split order hlegible target ls with
    ⟨front, back, hbase, hafter, -, hresult⟩
  have hentries := legible_entries order hlegible
  rw [hresult, valueFrom_append, valueFrom_append, sectionAfter_append, hafter,
    sectionAfter_newLines hentries, valueFrom_newLines hentries (order.nodupKeys changes),
    order.dlookup_entries]
  rw [hbase, valueFrom_append, hafter, valueFrom_editLines hlegible] at hbaseLines
  by_cases hsection : sectionName = some target
  · rw [if_pos hsection] at hbaseLines ⊢
    have happlied := mem_appliedKeys target changes none (String.ofList key) ls
    rw [String.toList_ofList, ← hsection] at happlied
    by_cases hset : String.ofList key ∈ appliedKeys target changes none ls
    · -- Set in place: the old value was there and was overwritten.
      rw [if_neg fun h => h.2 hset, Option.none_or, hbaseLines]
      rcases happlied.mp hset with ⟨hlookup, hold⟩
      obtain ⟨value, hvalue⟩ := Option.isSome_iff_exists.mp hlookup
      obtain ⟨old, hold⟩ := Option.isSome_iff_exists.mp hold
      rw [hold, hvalue]
      simp [changedValue, hvalue]
    · rw [if_pos ⟨hsection, hset⟩]
      cases hlookup : changes.lookup (String.ofList key) with
      | none =>
          have hsame : changedValue changes key = id := by
            funext old
            simp [changedValue, hlookup]
          rw [hsame, Option.map_id, id] at hbaseLines
          rw [Option.map_none, Option.none_or, Option.none_or, hbaseLines]
      | some value =>
          -- Not set in place, so the section did not have the key and it is inserted.
          have hold : valueFrom sectionName key none ls = none := by
            by_contra hne
            exact hset (happlied.mpr ⟨by rw [hlookup]; rfl, Option.isSome_iff_ne_none.mpr hne⟩)
          rw [hold, Option.map_none, Option.or_eq_none_iff] at hbaseLines
          rw [hbaseLines.1, hbaseLines.2, hold, Option.none_or]
  · rw [if_neg hsection] at hbaseLines ⊢
    rw [if_neg fun h => hsection h.1, Option.none_or, hbaseLines]

/-- Without a line feed in the name of the section there is none in the lines. -/
theorem oneLine_resultLines (hlegible : LegibleChanges changes) (htarget : '\n' ∉ target)
    (hls : ∀ line ∈ ls, '\n' ∉ line) :
    ∀ line ∈ resultLines order target changes ls, '\n' ∉ line := by
  have hedited : ∀ current, ∀ line ∈ editLines target changes current ls, '\n' ∉ line := by
    induction ls with
    | nil => simp [editLines]
    | cons line rest ih =>
        intro current
        rw [editLines, List.forall_mem_cons]
        refine ⟨?_, ih (fun l hl => hls l (List.mem_cons_of_mem line hl)) _⟩
        unfold editLine
        cases hover : overwrittenBy target changes current line with
        | none => exact hls line List.mem_cons_self
        | some entry =>
            have hwritten := hlegible _ _ (overwrittenBy_eq_some hover).2.2
            rw [String.toList_ofList] at hwritten
            exact (entryLine_spec hwritten).2.2.1
  have hbaseLines : ∀ line ∈ baseLines target changes ls, '\n' ∉ line := by
    unfold baseLines
    intro line hline
    rcases List.mem_append.mp hline with hline | hline
    · exact hedited none line hline
    · split_ifs at hline
      · cases hline
      · rcases List.mem_pair.mp hline with rfl | rfl
        · simp
        · simp [headerLine, htarget]
  rcases resultLines_split order hlegible target ls with
    ⟨front, back, hbase, -, -, hresult⟩
  rw [hbase] at hbaseLines
  rw [hresult]
  intro line hline
  rcases List.mem_append.mp hline with hline | hline
  · rcases List.mem_append.mp hline with hline | hline
    · exact hbaseLines line (List.mem_append_left back hline)
    · obtain ⟨entry, hentry, rfl⟩ := List.mem_map.mp hline
      have hwritten := legible_entries order hlegible entry (List.mem_of_mem_filter hentry)
      exact (entryLine_spec hwritten).2.2.1
  · exact hbaseLines line (List.mem_append_right front hline)

theorem hasSection_resultLines (hlegible : LegibleChanges changes) (target : Text)
    (ls : List Text) :
    HasSection target (resultLines order target changes ls) := by
  rcases resultLines_split order hlegible target ls with
    ⟨front, back, hbase, -, -, hresult⟩
  rcases hasSection_baseLines hlegible target ls with ⟨line, hline, htarget⟩
  refine ⟨line, ?_, htarget⟩
  rw [hbase, List.mem_append] at hline
  rw [hresult, List.append_assoc, List.mem_append, List.mem_append]
  exact hline.imp_right Or.inr

theorem HasSection.ne_nil (h : HasSection target ls) : ls ≠ [] := by
  rintro rfl
  rcases h with ⟨line, hline, -⟩
  cases hline

/-- Reading lines again keeps the sections. -/
theorem hasSection_reread (h : HasSection target ls) : HasSection target (reread ls) := by
  rcases h with ⟨line, hline, htarget⟩
  rcases List.eq_nil_or_concat ls with rfl | ⟨front, last, rfl⟩
  · cases hline
  · rw [List.concat_eq_append, List.mem_append] at hline
    rw [List.concat_eq_append, reread_concat]
    rcases hline with hfront | hlast
    · refine ⟨stripCarriageReturn line, List.mem_append_left _ (List.mem_map_of_mem hfront), ?_⟩
      rw [sectionHeader_congr (trim_stripCarriageReturn line), htarget]
    · rw [List.mem_singleton] at hlast
      rw [hlast] at htarget
      have hne : last ≠ [] := by
        rintro rfl
        cases htarget
      exact ⟨last, by rw [if_neg hne]; simp, htarget⟩

/-- The result as a map. -/
theorem readIni_applyIniChanges (hlegible : LegibleChanges changes) (content sectionName : String)
    (hsection : '\n' ∉ sectionName.toList) (name : Option Text) (key : Text) :
    readIni (applyIniChanges order content sectionName changes) name key =
      if name = some sectionName.toList then
        ((changes.lookup (String.ofList key)).map String.toList).or (readIni content name key)
      else readIni content name key := by
  rw [readIni, applyIniChanges_eq, String.toList_ofList,
    lines_join (hasSection_resultLines order hlegible _ _).ne_nil
      (oneLine_resultLines order hlegible hsection fun _ hline => not_mem_lines hline),
    valueFrom_reread,
    valueFrom_resultLines order hlegible]
  rfl

end

section

variable {target : Text} {current : Option Text}

theorem checkLine_eq (check : IniCheck) (line : Text) (key : String)
    (hcheck : check.inTargetSection = decide (current = some target)) :
    (checkLine target check line).inTargetSection
      = decide (nextSection current line = some target) ∧
    (checkLine target check line).foundChanges.lookup key =
      ((if current = some target then ownValue key.toList line else none).map String.ofList).or
        (check.foundChanges.lookup key) := by
  unfold checkLine
  cases hheader : sectionHeader line with
  | some name =>
      have hnone : ownValue key.toList line = none := by
        rw [ownValue, assigned_of_header hheader, Option.bind_none]
      simp [nextSection, hheader, hnone]
  | none =>
      have hassigned : assigned line
          = (splitOnce ['='] (trim line)).map fun parts => (trim parts.1, trim parts.2) := by
        rw [assigned, hheader]
        rfl
      have hnext : nextSection current line = current := by
        rw [nextSection, hheader, Option.none_or]
      rw [hnext, hcheck]
      by_cases hcurrent : current = some target
      · cases hcut : splitOnce ['='] (trim line) with
        | none => simp [hcurrent, hcheck, ownValue, hassigned, hcut]
        | some parts =>
            by_cases hkey : key = String.ofList (trim parts.1)
            · subst hkey
              simp [hcurrent, ownValue, hassigned, hcut]
            · have hne : trim parts.1 ≠ key.toList := by
                intro h
                exact hkey (by rw [h, String.ofList_toList])
              simp [hcurrent, ownValue, hassigned, hcut, hne, Finmap.lookup_insert_of_ne _ hkey]
      · simp [hcurrent, hcheck]

/-- What the loop finds is what the section says. -/
theorem foundChanges_eq (current : Option Text) (ls : List Text) (check : IniCheck) (key : String)
    (hcheck : check.inTargetSection = decide (current = some target)) :
    (ls.foldl (checkLine target) check).foundChanges.lookup key =
      ((valueFrom (some target) key.toList current ls).map String.ofList).or
        (check.foundChanges.lookup key) := by
  induction ls generalizing check current with
  | nil => simp [valueFrom]
  | cons line rest ih =>
      rcases checkLine_eq check line key hcheck with ⟨hnext, hfound⟩
      rw [List.foldl_cons, ih _ _ hnext, hfound, valueFrom, Option.map_or, Option.or_assoc]

/-- A section is accepted exactly if it says what is expected. -/
theorem verifyIniSection_iff (order : Iteration String String) (content sectionName : String)
    (expected : HashMap String String) :
    verifyIniSection order content sectionName expected = true ↔
      ∀ key value, expected.lookup key = some value →
        readIni content (some sectionName.toList) key.toList = some value.toList := by
  have hfound : ∀ key value, ((lines content.toList).foldl (checkLine sectionName.toList)
      {}).foundChanges.lookup key = some value ↔
        readIni content (some sectionName.toList) key.toList = some value.toList := by
    intro key value
    rw [foundChanges_eq none _ {} key rfl, Finmap.lookup_empty, Option.or_none,
      Option.map_eq_some_iff, ← readIni]
    constructor
    · rintro ⟨text, htext, rfl⟩
      rw [htext, String.toList_ofList]
    · intro h
      exact ⟨_, h, String.ofList_toList⟩
  simp only [verifyIniSection, List.all_eq_true, decide_eq_true_eq]
  constructor
  · intro h key value hlookup
    exact (hfound key value).mp
      (h ⟨key, value⟩ ((order.mem_entries expected key value).mpr hlookup))
  · intro h entry hentry
    exact (hfound _ _).mpr (h entry.1 entry.2 ((order.mem_entries expected _ _).mp hentry))

end

section

variable {target : Text} {changes : HashMap String String} {current : Option Text}

theorem editLines_append (l₁ l₂ : List Text) :
    editLines target changes current (l₁ ++ l₂) = editLines target changes current l₁ ++
      editLines target changes (sectionAfter current l₁) l₂ := by
  induction l₁ generalizing current with
  | nil => rfl
  | cons line rest ih =>
      rw [List.cons_append, editLines, editLines, ih, List.cons_append]
      rfl

theorem length_editLines (ls : List Text) :
    (editLines target changes current ls).length = ls.length := by
  induction ls generalizing current with
  | nil => rfl
  | cons line rest ih => rw [editLines, List.length_cons, List.length_cons, ih]

/-- Parts of lines that an edit in place leaves alone are left alone. -/
theorem editLines_append_eq_self_iff (l₁ l₂ : List Text) :
    editLines target changes current (l₁ ++ l₂) = l₁ ++ l₂ ↔
      editLines target changes current l₁ = l₁ ∧
        editLines target changes (sectionAfter current l₁) l₂ = l₂ := by
  rw [editLines_append]
  refine ⟨fun h => List.append_inj h (length_editLines l₁), fun h => by rw [h.1, h.2]⟩

/-- A line that sets a key as the changes want it is left alone. -/
theorem editLine_entryLine (hlegible : LegibleChanges changes) {key value : String}
    (hlookup : changes.lookup key = some value) :
    editLine target changes current (entryLine key.toList value.toList)
      = entryLine key.toList value.toList := by
  have hwritten := hlegible key value hlookup
  rw [← String.ofList_toList (s := key)] at hlookup
  have hassigned := (entryLine_spec hwritten).2.1
  by_cases hcurrent : current = some target
  · simp [editLine, overwrittenBy, hcurrent, hassigned, hlookup]
  · simp [editLine, overwrittenBy, hcurrent]

/-- Editing in place again does nothing. -/
theorem editLines_editLines (hlegible : LegibleChanges changes) (ls : List Text) :
    editLines target changes current (editLines target changes current ls)
      = editLines target changes current ls := by
  induction ls generalizing current with
  | nil => rfl
  | cons line rest ih =>
      rw [editLines, editLines, nextSection_editLine hlegible, ih]
      congr 1
      cases hover : overwrittenBy target changes current line with
      | none =>
          have hsame : editLine target changes current line = line := by rw [editLine, hover]
          rw [hsame, hsame]
      | some entry =>
          have hlookup := (overwrittenBy_eq_some hover).2.2
          have hline : editLine target changes current line
              = entryLine (String.ofList entry.1).toList entry.2.toList := by
            rw [editLine, hover, String.toList_ofList]
          rw [hline, editLine_entryLine hlegible hlookup]

theorem sectionAfter_map_strip (ls : List Text) :
    sectionAfter current (ls.map stripCarriageReturn) = sectionAfter current ls := by
  induction ls generalizing current with
  | nil => rfl
  | cons line rest ih =>
      have hline : nextSection current (stripCarriageReturn line) = nextSection current line := by
        rw [nextSection, nextSection, sectionHeader_congr (trim_stripCarriageReturn line)]
      rw [List.map_cons, sectionAfter, List.foldl_cons, hline]
      exact ih

section

variable (hlegible : LegibleChanges changes) {ls : List Text}
  (h : editLines target changes current ls = ls)

include hlegible ls h

/-- What is left alone is so without its carriage returns. -/
theorem editLines_map_strip : editLines target changes current (ls.map stripCarriageReturn)
      = ls.map stripCarriageReturn := by
  induction ls generalizing current with
  | nil => rfl
  | cons line rest ih =>
      rw [editLines, List.cons.injEq] at h
      have htrim := trim_stripCarriageReturn line
      have hnext : nextSection current (stripCarriageReturn line) = nextSection current line := by
        rw [nextSection, nextSection, sectionHeader_congr htrim]
      have hover : overwrittenBy target changes current (stripCarriageReturn line)
          = overwrittenBy target changes current line := by
        rw [overwrittenBy, overwrittenBy, assigned_congr htrim]
      rw [List.map_cons, editLines, hnext, ih h.2]
      congr 1
      cases hline : overwrittenBy target changes current line with
      | none => rw [editLine, hover, hline]
      | some entry =>
          have hwritten := hlegible _ _ (overwrittenBy_eq_some hline).2.2
          rw [String.toList_ofList] at hwritten
          have hentry : line = entryLine entry.1 entry.2.toList := by
            rw [← h.1, editLine, hline]
          have hstrip : stripCarriageReturn line = line := by
            rw [hentry]
            exact if_neg (entryLine_spec hwritten).2.2.2.2
          rw [hstrip, h.1]

/-- Reading lines again leaves them alone too. -/
theorem editLines_reread : editLines target changes current (reread ls) = reread ls := by
  rcases List.eq_nil_or_concat ls with rfl | ⟨front, last, rfl⟩
  · rfl
  · rw [List.concat_eq_append] at h ⊢
    rcases (editLines_append_eq_self_iff front [last]).mp h with ⟨hfront, hlast⟩
    rw [reread_concat, editLines_append_eq_self_iff, sectionAfter_map_strip]
    refine ⟨editLines_map_strip hlegible hfront, ?_⟩
    split_ifs
    · rfl
    · exact hlast

end

variable (order : Iteration String String) {ls : List Text}

/-- The result has all that the edit in place does. -/
theorem editLines_resultLines (hlegible : LegibleChanges changes) (target : Text) (ls : List Text) :
    editLines target changes none (resultLines order target changes ls)
      = resultLines order target changes ls := by
  rcases resultLines_split order hlegible target ls with
    ⟨front, back, hbase, hafter, -, hresult⟩
  have hentries := legible_entries order hlegible
  have hbaseLines : editLines target changes none (front ++ back) = front ++ back := by
    rw [← hbase, baseLines, editLines_append_eq_self_iff]
    refine ⟨editLines_editLines hlegible ls, ?_⟩
    have hblank : ∀ current, editLine target changes current [] = [] := by
      intro current
      have hnone : assigned [] = none := rfl
      simp [editLine, overwrittenBy, hnone]
    have hheader : ∀ current, editLine target changes current (headerLine target)
        = headerLine target := by
      intro current
      simp [editLine, overwrittenBy, assigned_of_header (sectionHeader_headerLine target)]
    split_ifs
    · rfl
    · rw [editLines, editLines, editLines, hblank, hheader]
  rcases (editLines_append_eq_self_iff front back).mp hbaseLines with ⟨hfront, hback⟩
  have hnew : ∀ current, editLines target changes current
      (newLines (appliedKeys target changes none ls) (order.entries changes))
      = newLines (appliedKeys target changes none ls) (order.entries changes) := by
    have hlines : ∀ line ∈ newLines (appliedKeys target changes none ls) (order.entries changes),
        ∀ current, editLine target changes current line = line := by
      simp only [newLines, List.forall_mem_map]
      intro entry hentry current
      exact editLine_entryLine hlegible
        ((order.mem_entries changes _ _).mp (List.mem_of_mem_filter hentry))
    generalize newLines (appliedKeys target changes none ls) (order.entries changes) = added
      at hlines
    induction added with
    | nil => exact fun _ => rfl
    | cons line rest ih =>
        intro current
        rw [editLines, hlines line List.mem_cons_self,
          ih fun l hl => hlines l (List.mem_cons_of_mem line hl)]
  rw [hresult, editLines_append_eq_self_iff, editLines_append_eq_self_iff, sectionAfter_append,
    hafter, sectionAfter_newLines hentries]
  rw [hafter] at hback
  exact ⟨⟨hfront, hnew _⟩, hback⟩

theorem foldl_addKey_of_applied (applied : List String)
    (entries : List (Sigma fun _ : String => String)) (h : ∀ entry ∈ entries, entry.1 ∈ applied) :
    entries.foldl (addKey target applied) ls = ls := by
  induction entries with
  | nil => rfl
  | cons entry rest ih =>
      rw [List.foldl_cons, addKey, if_pos (h entry List.mem_cons_self)]
      exact ih fun e he => h e (List.mem_cons_of_mem entry he)

/-- Applying the changes to the lines of the result does nothing. -/
theorem resultLines_reread (hlegible : LegibleChanges changes) (order' : Iteration String String) :
    resultLines order' target changes (reread (resultLines order target changes ls))
      = reread (resultLines order target changes ls) := by
  have hedited := editLines_reread hlegible (editLines_resultLines order hlegible target ls)
  have happlied : ∀ entry ∈ order'.entries changes, entry.1 ∈ appliedKeys target changes none
      (reread (resultLines order target changes ls)) := by
    intro entry hentry
    have hlookup := (order'.mem_entries changes entry.1 entry.2).mp hentry
    rw [mem_appliedKeys, valueFrom_reread, valueFrom_resultLines order hlegible, if_pos rfl,
      String.ofList_toList, hlookup]
    exact ⟨rfl, rfl⟩
  have hsection := hasSection_reread (hasSection_resultLines order hlegible target ls)
  rw [resultLines, foldl_addKey_of_applied _ _ happlied, baseLines, if_pos hsection,
    List.append_nil, hedited]

/-- Lines are as they were when they are read again if and only if the last is not empty and no
    other ends with a carriage return. -/
theorem reread_eq_self_iff (hne : ls ≠ []) : reread ls = ls ↔
      (∀ line ∈ ls.dropLast, line.getLast? ≠ some '\r') ∧ ls.getLast? ≠ some [] := by
  rcases List.eq_nil_or_concat ls with rfl | ⟨front, last, rfl⟩
  · exact absurd rfl hne
  · have hstrip : ∀ line : Text, stripCarriageReturn line = line ↔
        line.getLast? ≠ some '\r' := by
      intro line
      unfold stripCarriageReturn
      split_ifs with hreturn
      · refine ⟨fun h => ?_, fun h => absurd hreturn h⟩
        obtain ⟨start, rfl⟩ := List.getLast?_eq_some_iff.mp hreturn
        simp at h
      · exact ⟨fun _ => hreturn, fun _ => rfl⟩
    have hmap : front.map stripCarriageReturn = front ↔
        ∀ line ∈ front, stripCarriageReturn line = line := by
      have hinj := List.map_inj_left (l := front) (f := stripCarriageReturn) (g := id)
      rw [List.map_id] at hinj
      exact hinj
    rw [List.concat_eq_append, reread_concat, List.dropLast_concat, List.getLast?_concat]
    have hlengths : (front.map stripCarriageReturn).length = front.length := List.length_map _
    constructor
    · intro h
      rcases List.append_inj h hlengths with ⟨hfront, hlast⟩
      refine ⟨fun line hline => ?_, fun hempty => ?_⟩
      · exact (hstrip line).mp (hmap.mp hfront line hline)
      · rw [if_pos (Option.some.inj hempty)] at hlast
        cases hlast
    · rintro ⟨hfront, hlast⟩
      have hsame := hmap.mpr fun line hline => (hstrip line).mpr (hfront line hline)
      rw [hsame, if_neg fun hempty => hlast (by rw [hempty])]

/-- Applying the changes to the result leaves it as it is if and only if its lines come back. -/
theorem again_iff (hlegible : LegibleChanges changes) (content sectionName : String)
    (hsection : '\n' ∉ sectionName.toList) (order' : Iteration String String) :
    applyIniChanges order' (applyIniChanges order content sectionName changes) sectionName changes
        = applyIniChanges order content sectionName changes ↔
      reread (resultLines order sectionName.toList changes (lines content.toList))
        = resultLines order sectionName.toList changes (lines content.toList) := by
  have honeLine := oneLine_resultLines order hlegible hsection
    fun line (hline : line ∈ lines content.toList) => not_mem_lines hline
  have hhas := hasSection_resultLines order hlegible sectionName.toList (lines content.toList)
  rw [applyIniChanges_eq order' changes, applyIniChanges_eq order changes, String.toList_ofList,
    lines_join hhas.ne_nil honeLine, resultLines_reread order hlegible]
  have honeLine' : ∀ line ∈ reread (resultLines order sectionName.toList changes
      (lines content.toList)), '\n' ∉ line := by
    rw [← lines_join hhas.ne_nil honeLine]
    exact fun _ hline => not_mem_lines hline
  rw [← intercalate_lines_inj (hasSection_reread hhas).ne_nil honeLine' hhas.ne_nil honeLine]
  exact ⟨fun h => String.ofList_injective h, fun h => by rw [h]⟩

end

section

variable (target : Text) (changes : HashMap String String)

/-- Something new is the last line of the result: the section, or a key of a section that no
    other follows. -/
def AddsAtEnd (ls : List Text) : Prop :=
  ¬ HasSection target ls ∨
    (insertIndex target false 0 ls = ls.length ∧ ∃ key value, changes.lookup key = some value ∧
      valueFrom (some target) key.toList none ls = none)

/-- A line that ends with a carriage return stays. -/
def KeepsReturn : Option Text → List Text → Prop
  | _, [] => False
  | current, line :: rest =>
      (overwrittenBy target changes current line = none ∧ line.getLast? = some '\r') ∨
        KeepsReturn (nextSection current line) rest

/-- The result is one that is read as it was made. -/
structure Settles (ls : List Text) : Prop where
  oneLine : '\n' ∉ target
  lastLine : ¬ AddsAtEnd target changes ls → ls.getLast? ≠ some []
  returns : ¬ KeepsReturn target changes none ls.dropLast
  lastReturn : AddsAtEnd target changes ls → ¬ KeepsReturn target changes none ls

variable {target changes} {current : Option Text} {ls : List Text}

theorem keepsReturn_append (l₁ l₂ : List Text) :
    KeepsReturn target changes current (l₁ ++ l₂) ↔ KeepsReturn target changes current l₁ ∨
      KeepsReturn target changes (sectionAfter current l₁) l₂ := by
  induction l₁ generalizing current with
  | nil => simp [KeepsReturn, sectionAfter]
  | cons line rest ih =>
      rw [List.cons_append, KeepsReturn, ih, KeepsReturn, or_assoc]
      rfl

section

variable (hlegible : LegibleChanges changes)

include hlegible

theorem editLine_getLast? (line : Text) :
    (editLine target changes current line).getLast? = some '\r' ↔
      overwrittenBy target changes current line = none ∧ line.getLast? = some '\r' := by
  unfold editLine
  cases hover : overwrittenBy target changes current line with
  | none => simp
  | some entry =>
      have hwritten := hlegible _ _ (overwrittenBy_eq_some hover).2.2
      rw [String.toList_ofList] at hwritten
      simp [(entryLine_spec hwritten).2.2.2.2]

theorem keepsReturn_iff :
    (∀ line ∈ editLines target changes current ls, line.getLast? ≠ some '\r') ↔
      ¬ KeepsReturn target changes current ls := by
  induction ls generalizing current with
  | nil => simp [editLines, KeepsReturn]
  | cons line rest ih =>
      rw [editLines, List.forall_mem_cons, ih, KeepsReturn, not_or, ne_eq,
        editLine_getLast? hlegible]

theorem insertIndex_editLines (inSection : Bool) (i : Nat) :
    insertIndex target inSection i (editLines target changes current ls)
      = insertIndex target inSection i ls := by
  induction ls generalizing current inSection i with
  | nil => rfl
  | cons line rest ih =>
      rw [editLines, insertIndex, insertIndex, (editLine_spec hlegible line).1]
      simp only [ih]

theorem editLine_eq_nil (line : Text) : editLine target changes current line = [] ↔ line = [] := by
  unfold editLine
  cases hover : overwrittenBy target changes current line with
  | none => rfl
  | some entry =>
      rcases overwrittenBy_eq_some hover with ⟨-, ⟨old, hassigned⟩, hlookup⟩
      have hwritten := hlegible _ _ hlookup
      rw [String.toList_ofList] at hwritten
      refine ⟨fun h => absurd h (entryLine_spec hwritten).2.2.2.1, ?_⟩
      rintro rfl
      cases hassigned

/-- The last line, and those before it, after an edit in place. -/
theorem editLines_ends (target : Text) (current : Option Text) (ls : List Text) :
    ((editLines target changes current ls).getLast? = some [] ↔ ls.getLast? = some []) ∧
      (editLines target changes current ls).dropLast
        = editLines target changes current ls.dropLast := by
  rcases List.eq_nil_or_concat ls with rfl | ⟨front, last, rfl⟩
  · exact ⟨Iff.rfl, rfl⟩
  · rw [List.concat_eq_append, editLines_append, editLines, editLines, List.getLast?_concat,
      List.getLast?_concat, List.dropLast_concat, List.dropLast_concat]
    simp [editLine_eq_nil hlegible]

end

variable (order : Iteration String String)

theorem newLines_eq_nil :
    newLines (appliedKeys target changes none ls) (order.entries changes) = [] ↔
      ∀ key value, changes.lookup key = some value →
        valueFrom (some target) key.toList none ls ≠ none := by
  simp only [newLines, List.map_eq_nil_iff, List.filter_eq_nil_iff, decide_eq_true_eq, not_not]
  constructor
  · intro h key value hlookup
    have happlied := h ⟨key, value⟩ ((order.mem_entries changes key value).mpr hlookup)
    exact Option.isSome_iff_ne_none.mp ((mem_appliedKeys target changes none key ls).mp happlied).2
  · intro h entry hentry
    have hlookup := (order.mem_entries changes entry.1 entry.2).mp hentry
    exact (mem_appliedKeys target changes none entry.1 ls).mpr
      ⟨by rw [hlookup]; rfl, Option.isSome_iff_ne_none.mpr (h _ _ hlookup)⟩

section

variable (hlegible : LegibleChanges changes)

include hlegible

/-- Inserted lines are not empty and do not end with a carriage return. -/
theorem newLines_spec (applied : List String) : ∀ line ∈ newLines applied (order.entries changes),
      line ≠ [] ∧ line.getLast? ≠ some '\r' := by
  simp only [newLines, List.forall_mem_map]
  intro entry hentry
  have hwritten := legible_entries order hlegible entry (List.mem_of_mem_filter hentry)
  exact (entryLine_spec hwritten).2.2.2

/-- The last line of the result, where something new is. -/
theorem getLast?_resultLines (h : AddsAtEnd target changes ls) :
    ∃ last, (resultLines order target changes ls).getLast? = some last ∧ last ≠ [] ∧
      last.getLast? ≠ some '\r' := by
  have hheader : headerLine target ≠ [] ∧ (headerLine target).getLast? ≠ some '\r' := by
    rw [getLast?_headerLine]
    simp [headerLine]
  rcases resultLines_split order hlegible target ls with
    ⟨front, back, hbase, -, hindex, hresult⟩
  have hnew := newLines_spec order hlegible (appliedKeys target changes none ls)
  rw [hresult, List.getLast?_append, List.getLast?_append]
  by_cases hsection : HasSection target ls
  · -- The keys go to the end of the text, and one of them is new.
    rcases h.resolve_left fun hnot => hnot hsection with ⟨hend, key, value, hlookup, hnone⟩
    have hback : back = [] := by
      have hlength := congrArg List.length hbase
      have hbaseLines : baseLines target changes ls = editLines target changes none ls := by
        rw [baseLines, if_pos hsection, List.append_nil]
      rw [hbaseLines, insertIndex_editLines hlegible, hend] at hindex
      rw [hbaseLines, length_editLines, List.length_append, hindex] at hlength
      exact List.length_eq_zero_iff.mp (by omega)
    have hne : newLines (appliedKeys target changes none ls) (order.entries changes) ≠ [] :=
      fun hnil => (newLines_eq_nil order).mp hnil key value hlookup hnone
    rw [hback, List.getLast?_nil, Option.none_or, List.getLast?_eq_some_getLast hne,
      Option.some_or]
    exact ⟨_, rfl, hnew _ (List.getLast_mem hne)⟩
  · have hlast : (front ++ back).getLast? = some (headerLine target) := by
      rw [← hbase, baseLines, if_neg hsection, List.getLast?_append]
      rfl
    rw [List.getLast?_append] at hlast
    cases hback : back.getLast? with
    | some last =>
        rw [hback, Option.some_or, Option.some.injEq] at hlast
        exact ⟨headerLine target, by rw [hlast, Option.some_or], hheader⟩
    | none =>
        rw [hback, Option.none_or] at hlast
        cases hadded : (newLines (appliedKeys target changes none ls)
            (order.entries changes)).getLast? with
        | some last => exact ⟨last, rfl, hnew last (List.mem_of_getLast? hadded)⟩
        | none => exact ⟨headerLine target, by rw [hlast]; rfl, hheader⟩

/-- Which lines of the result end with a carriage return. -/
theorem returns_resultLines_iff (target : Text) (ls : List Text) :
    (∀ line ∈ resultLines order target changes ls, line.getLast? ≠ some '\r') ↔
      ¬ KeepsReturn target changes none ls := by
  have hextra : ∀ line ∈ (if HasSection target ls then [] else [[], headerLine target]),
      line.getLast? ≠ some '\r' := by
    split_ifs
    · simp
    · simp [getLast?_headerLine]
  have hnew := newLines_spec order hlegible (appliedKeys target changes none ls)
  rcases resultLines_split order hlegible target ls with
    ⟨front, back, hbase, -, -, hresult⟩
  have hiff : (∀ line ∈ baseLines target changes ls, line.getLast? ≠ some '\r') ↔
      ¬ KeepsReturn target changes none ls := by
    rw [← keepsReturn_iff hlegible, baseLines, List.forall_mem_append]
    exact and_iff_left hextra
  rw [hresult, ← hiff, hbase, List.forall_mem_append, List.forall_mem_append,
    List.forall_mem_append]
  exact ⟨fun h => ⟨h.1.1, h.2⟩, fun h => ⟨⟨h.1, fun line hline => (hnew line hline).2⟩, h.2⟩⟩

/-- Where nothing new is at the end, the last line and those before it. -/
theorem ends_resultLines (h : ¬ AddsAtEnd target changes ls) :
    ((resultLines order target changes ls).getLast? = some [] ↔ ls.getLast? = some []) ∧
    ((∀ line ∈ (resultLines order target changes ls).dropLast, line.getLast? ≠ some '\r') ↔
      ¬ KeepsReturn target changes none ls.dropLast) := by
  rw [AddsAtEnd, not_or, not_not] at h
  rcases h with ⟨hsection, hend⟩
  have hbaseLines : baseLines target changes ls = editLines target changes none ls := by
    rw [baseLines, if_pos hsection, List.append_nil]
  rcases editLines_ends hlegible target none ls with
    ⟨hlast, hdrop⟩
  have hnew := newLines_spec order hlegible (appliedKeys target changes none ls)
  rcases resultLines_split order hlegible target ls with
    ⟨front, back, hbase, -, hindex, hresult⟩
  rw [hbaseLines] at hbase hindex
  rw [← keepsReturn_iff hlegible, ← hdrop, ← hlast, hbase, hresult]
  rcases List.eq_nil_or_concat back with rfl | ⟨start, last, rfl⟩
  · -- Nothing is inserted here.
    have hnil : newLines (appliedKeys target changes none ls) (order.entries changes) = [] := by
      rw [newLines_eq_nil]
      intro key value hlookup hnone
      refine hend ⟨?_, key, value, hlookup, hnone⟩
      rw [List.append_nil] at hbase
      rw [insertIndex_editLines hlegible] at hindex
      rw [hindex, ← hbase, length_editLines]
    rw [hnil, List.append_nil, List.append_nil]
    exact ⟨Iff.rfl, Iff.rfl⟩
  · rw [List.concat_eq_append, ← List.append_assoc, ← List.append_assoc, List.getLast?_concat,
      List.getLast?_concat, List.dropLast_concat, List.dropLast_concat, List.forall_mem_append,
      List.forall_mem_append, List.forall_mem_append]
    exact ⟨Iff.rfl, fun h => ⟨h.1.1, h.2⟩,
      fun h => ⟨⟨h.1, fun line hline => (hnew line hline).2⟩, h.2⟩⟩

/-- The lines of the result come back if and only if they settle. -/
theorem reread_resultLines_iff (htarget : '\n' ∉ target) :
    reread (resultLines order target changes ls) = resultLines order target changes ls ↔
      Settles target changes ls := by
  rw [reread_eq_self_iff (hasSection_resultLines order hlegible _ _).ne_nil]
  by_cases hadds : AddsAtEnd target changes ls
  · rcases getLast?_resultLines order hlegible hadds with ⟨last, hlast, hne, hreturn⟩
    have hall := returns_resultLines_iff order hlegible target ls
    obtain ⟨start, hstart⟩ := List.getLast?_eq_some_iff.mp hlast
    rw [hstart, List.forall_mem_append] at hall
    rw [hstart, List.dropLast_concat, List.getLast?_concat]
    constructor
    · rintro ⟨hstays, -⟩
      have hnone := hall.mp ⟨hstays, by simpa using hreturn⟩
      refine ⟨htarget, fun hnot => absurd hadds hnot, fun hkeeps => hnone ?_, fun _ => hnone⟩
      obtain ⟨rest, hrest⟩ := List.dropLast_prefix ls
      rw [← hrest, keepsReturn_append]
      exact Or.inl hkeeps
    · intro h
      exact ⟨(hall.mpr (h.lastReturn hadds)).1, fun hempty => hne (Option.some.inj hempty)⟩
  · rcases ends_resultLines order hlegible hadds with ⟨hlast, hdrop⟩
    rw [hdrop, ne_eq, hlast]
    exact ⟨fun h => ⟨htarget, fun _ => h.2, h.1, fun hyes => absurd hyes hadds⟩,
      fun h => ⟨h.returns, h.lastLine hadds⟩⟩

end

end

section

variable (order : Iteration String String)

/-- There are no more line feeds in a text than lines. -/
theorem count_le_length_lines (s : Text) : s.count '\n' ≤ (lines s).length := by
  have hpieces := length_splitAll_lines '\n' s
  rw [lines, List.length_append, List.length_map, List.length_dropLast, hpieces]
  omega

/-- A name with a line feed is not found. -/
theorem not_hasSection {target s : Text} (htarget : '\n' ∈ target) :
    ¬ HasSection target (lines s) := by
  rintro ⟨line, hline, hheader⟩
  refine not_mem_lines hline ?_
  unfold sectionHeader at hheader
  simp only at hheader
  split_ifs at hheader
  rw [← Option.some.inj hheader] at htarget
  exact (trimBy_within _ line).subset
    (List.mem_of_mem_tail (List.mem_of_mem_dropLast htarget))

/-- Where the section is not found, every application adds lines. -/
theorem count_applyIniChanges {changes : HashMap String String} (hlegible : LegibleChanges changes)
    (content sectionName : String)
    (hsection : ¬ HasSection sectionName.toList (lines content.toList)) :
    content.toList.count '\n'
      < (applyIniChanges order content sectionName changes).toList.count '\n' := by
  rw [applyIniChanges_eq, String.toList_ofList]
  have hlines := count_le_length_lines content.toList
  have hresult := length_le_count_intercalate '\n'
    (resultLines order sectionName.toList changes (lines content.toList))
  have hbaseLength : (baseLines sectionName.toList changes (lines content.toList)).length
      = (lines content.toList).length + 2 := by
    rw [baseLines, if_neg hsection, List.length_append, length_editLines]
    rfl
  rcases resultLines_split order hlegible sectionName.toList
    (lines content.toList) with ⟨front, back, hbase, -, -, hsplit⟩
  have hlength := congrArg List.length hsplit
  rw [hbase] at hbaseLength
  simp only [List.length_append] at hlength hbaseLength
  omega

theorem verifyIniSection_applyIniChanges {changes : HashMap String String}
    (hlegible : LegibleChanges changes) (content sectionName : String)
    (hsection : '\n' ∉ sectionName.toList) (order' : Iteration String String) :
    verifyIniSection order' (applyIniChanges order content sectionName changes) sectionName changes
      = true := by
  rw [verifyIniSection_iff]
  intro key value hlookup
  rw [readIni_applyIniChanges order hlegible content sectionName hsection, if_pos rfl,
    String.ofList_toList, hlookup, Option.map_some, Option.some_or]

/-- An edit has exactly the requested effect: the map is the old one overridden by the changes,
    the section is accepted, and the same edit leaves the result as it is. -/
structure IniExact (content sectionName : String) (changes : HashMap String String) : Prop where
  reads : ∀ name key, readIni (applyIniChanges order content sectionName changes) name key =
    if name = some sectionName.toList then
      ((changes.lookup (String.ofList key)).map String.toList).or (readIni content name key)
    else readIni content name key
  verified : verifyIniSection order (applyIniChanges order content sectionName changes) sectionName
    changes = true
  again : applyIniChanges order (applyIniChanges order content sectionName changes) sectionName
    changes = applyIniChanges order content sectionName changes

/-- An edit has exactly the requested effect if and only if the lines settle: the name of the
    section has no line feed, an empty last line does not stay the last, and no line that
    stays before another one ends with a carriage return. -/
theorem ini_exact_iff {changes : HashMap String String} (hplain : PlainChanges changes)
    (content sectionName : String) :
    IniExact order content sectionName changes ↔
      Settles sectionName.toList changes (lines content.toList) := by
  constructor
  · intro h
    by_cases hsection : '\n' ∈ sectionName.toList
    · -- The section is added again and again.
      have hmore := count_applyIniChanges order hplain.legible
        (applyIniChanges order content sectionName changes) sectionName (not_hasSection hsection)
      rw [h.again] at hmore
      exact absurd hmore (lt_irrefl _)
    · exact (reread_resultLines_iff order hplain.legible hsection).mp
        ((again_iff order hplain.legible content sectionName hsection order).mp h.again)
  · intro h
    exact
      { reads := readIni_applyIniChanges order hplain.legible content sectionName h.oneLine
        verified :=
          verifyIniSection_applyIniChanges order hplain.legible content sectionName h.oneLine
          order
        again := (again_iff order hplain.legible content sectionName h.oneLine order).mpr
          ((reread_resultLines_iff order hplain.legible h.oneLine).mpr h) }

end

theorem plainChanges_singleton {key value : String} (hkey : PlainKey key.toList)
    (hvalue : PlainValue value.toList) : PlainChanges (Finmap.singleton key value) := by
  intro k v hlookup
  have hmem : k ∈ (Finmap.singleton key value : HashMap String String) :=
    Finmap.mem_of_lookup_eq_some hlookup
  rw [Finmap.mem_singleton] at hmem
  subst hmem
  rw [Finmap.lookup_singleton_eq, Option.some.injEq] at hlookup
  rw [← hlookup]
  exact ⟨hkey, hvalue⟩

/-- A key gets a new value. -/
def oneChange : HashMap String String :=
  Finmap.singleton "a" "2"

theorem plainChanges_oneChange : PlainChanges oneChange :=
  plainChanges_singleton ⟨by decide, by decide, by decide, by decide, by decide⟩
    ⟨by decide, by decide⟩

/-- An edit of a file without a line at its end that is empty. -/
theorem ini_exact_one : IniExact default "[s]\na=1\nb=1" "s" oneChange := by
  have hlines : lines "[s]\na=1\nb=1".toList
      = ["[s]".toList, "a=1".toList, "b=1".toList] := by decide
  refine (ini_exact_iff default plainChanges_oneChange _ _).mpr ?_
  rw [hlines]
  exact
    { oneLine := by decide
      lastLine := fun _ => by decide
      returns := by simp [KeepsReturn]
      lastReturn := fun _ => by simp [KeepsReturn] }

/-- Where the last line is empty, each edit takes a line feed away. -/
theorem ini_loses_line : PlainChanges oneChange ∧ ∀ order,
      applyIniChanges order "[s]\na=1\n\n" "s" oneChange = "[s]\na=2\n" ∧
      applyIniChanges order "[s]\na=2\n" "s" oneChange = "[s]\na=2" ∧
      ¬ IniExact order "[s]\na=1\n\n" "s" oneChange := by
  refine ⟨plainChanges_oneChange, fun order => ?_⟩
  have hfirst : applyIniChanges order "[s]\na=1\n\n" "s" oneChange = "[s]\na=2\n" := by
    simp only [applyIniChanges, oneChange, Iteration.entries_singleton]
    decide
  have hsecond : applyIniChanges order "[s]\na=2\n" "s" oneChange = "[s]\na=2" := by
    simp only [applyIniChanges, oneChange, Iteration.entries_singleton]
    decide
  refine ⟨hfirst, hsecond, fun h => ?_⟩
  have hagain := h.again
  rw [hfirst, hsecond] at hagain
  exact absurd hagain (by decide)

end OpenFlight.Writers
