import OpenFlight.Core.Writers.Diff
import OpenFlight.Lib.Lines

/-!
# INI Files in Lines

What an INI file says, and what the loops of an edit do to its lines.

A file is a map from sections to keys to values, where the last assignment to a key
counts, and the rules for a line are those of the edit. All of them look at a line
through trimming, so the carriage returns at the ends of lines do not count, and
neither does an empty line.

An edit overwrites the lines of its section that set changed keys, and inserts the other
keys at the end of the section where it stands first. Both are described by recursions
over the lines that carry the section along: what the loop over the lines computes is
such a recursion, and the index of an insertion is a cut of the lines that stays where
it is while lines are inserted there.

## Main definitions

* `PlainChanges`: Keys and values that can stand on a line.
* `editLines`, `appliedKeys`: The edit in place.

## Theorems

* `valueFrom_append`, `valueFrom_reread`: Reading lines, and reading them again.
* `insertIndex_split`, `addKeys_eq`: Where keys are inserted.
-/

namespace OpenFlight.Writers

open Rules (Text trim isWhitespace lines stripCarriageReturn)

section

/-- The key and the value that a line sets. -/
def assigned (line : Text) : Option (Text × Text) :=
  if (sectionHeader line).isSome then none
  else (splitOnce ['='] (trim line)).map fun parts => (trim parts.1, trim parts.2)

/-- The section after a line. -/
def nextSection (current : Option Text) (line : Text) : Option Text :=
  (sectionHeader line).or current

/-- The section after lines. -/
def sectionAfter (current : Option Text) (ls : List Text) : Option Text :=
  ls.foldl nextSection current

/-- The value that a line gives a key. -/
def ownValue (key line : Text) : Option Text :=
  (assigned line).bind fun entry => if entry.1 = key then some entry.2 else none

/-- The value of a key in a section, from a line on. The last assignment counts. -/
def valueFrom (sectionName : Option Text) (key : Text) : Option Text → List Text → Option Text
  | _, [] => none
  | current, line :: rest =>
      (valueFrom sectionName key (nextSection current line) rest).or
        (if current = sectionName then ownValue key line else none)

/-- A file as a map; `none` is what stands before the first section. -/
def readIni (content : String) (sectionName : Option Text) (key : Text) : Option Text :=
  valueFrom sectionName key none (lines content.toList)

variable {sectionName current : Option Text} {key : Text}

theorem assigned_of_header {line name : Text} (h : sectionHeader line = some name) :
    assigned line = none := by
  rw [assigned, h]
  rfl

theorem sectionAfter_append (l₁ l₂ : List Text) :
    sectionAfter current (l₁ ++ l₂) = sectionAfter (sectionAfter current l₁) l₂ :=
  List.foldl_append

theorem valueFrom_append (l₁ l₂ : List Text) : valueFrom sectionName key current (l₁ ++ l₂)
      = (valueFrom sectionName key (sectionAfter current l₁) l₂).or
          (valueFrom sectionName key current l₁) := by
  induction l₁ generalizing current with
  | nil => rw [List.nil_append, valueFrom, Option.or_none]; rfl
  | cons line rest ih =>
      rw [List.cons_append, valueFrom, valueFrom, ih, Option.or_assoc]
      rfl

/-- Only what is left of lines after trimming counts. -/
theorem sectionHeader_congr {line line' : Text} (h : trim line = trim line') :
    sectionHeader line = sectionHeader line' := by
  rw [sectionHeader, sectionHeader, h]

theorem assigned_congr {line line' : Text} (h : trim line = trim line') :
    assigned line = assigned line' := by
  rw [assigned, assigned, sectionHeader_congr h, h]

theorem valueFrom_congr {ls ls' : List Text} (h : ls.map trim = ls'.map trim) :
    valueFrom sectionName key current ls = valueFrom sectionName key current ls' := by
  induction ls generalizing ls' current with
  | nil => rw [List.map_eq_nil_iff.mp h.symm]
  | cons line rest ih =>
      cases ls' with
      | nil => cases h
      | cons line' rest' =>
          rw [List.map_cons, List.map_cons, List.cons.injEq] at h
          rw [valueFrom, valueFrom, nextSection, nextSection, ownValue, ownValue,
            sectionHeader_congr h.1, assigned_congr h.1, ih h.2]

theorem trim_stripCarriageReturn (line : Text) : trim (stripCarriageReturn line) = trim line := by
  unfold stripCarriageReturn
  split_ifs with h
  · obtain ⟨front, rfl⟩ := List.getLast?_eq_some_iff.mp h
    rw [List.dropLast_concat, trim, trim, trimBy_concat front '\r' (by decide)]
  · rfl

end

/-- Lines as they are read again. -/
def reread (ls : List Text) : List Text :=
  ls.dropLast.map stripCarriageReturn ++ ls.getLast?.toList.filter fun p => p ≠ []

theorem lines_join {ls : List Text} (hne : ls ≠ []) (h : ∀ line ∈ ls, '\n' ∉ line) :
    lines ([('\n' : Char)].intercalate ls) = reread ls := by
  rw [lines, splitAll_intercalate_lines hne h]
  rfl

theorem not_mem_lines {s line : Text} (h : line ∈ lines s) : '\n' ∉ line := by
  have hpieces : ∀ piece ∈ splitAll ['\n'] s, '\n' ∉ piece := fun _ hp =>
    not_mem_of_mem_splitAll hp
  rw [lines, List.mem_append, List.mem_map] at h
  rcases h with ⟨piece, hpiece, rfl⟩ | hlast
  · have hpiece' := hpieces piece (List.mem_of_mem_dropLast hpiece)
    unfold stripCarriageReturn
    split_ifs
    · exact fun hmem => hpiece' (List.mem_of_mem_dropLast hmem)
    · exact hpiece'
  · have hmem := Option.mem_toList.mp (List.mem_of_mem_filter hlast)
    exact hpieces line (List.mem_of_getLast? hmem)

theorem reread_concat (front : List Text) (last : Text) :
    reread (front ++ [last]) = front.map stripCarriageReturn ++
      if last = [] then [] else [last] := by
  simp only [reread, List.dropLast_concat, List.getLast?_concat, Option.toList_some,
    List.filter_singleton]
  by_cases hempty : last = [] <;> simp [hempty]

theorem map_trim_reread (ls : List Text) :
    (reread ls).map trim = ls.map trim ∨ ∃ front, ls = front ++ [[]] ∧
      (reread ls).map trim = front.map trim := by
  rcases List.eq_nil_or_concat ls with rfl | ⟨front, last, rfl⟩
  · exact Or.inl rfl
  · have hfront : (front.map stripCarriageReturn).map trim = front.map trim := by
      rw [List.map_map]
      exact List.map_congr_left fun line _ => trim_stripCarriageReturn line
    rw [List.concat_eq_append, reread_concat, List.map_append, List.map_append, hfront]
    by_cases hlast : last = []
    · exact Or.inr ⟨front, by rw [hlast], by simp [hlast]⟩
    · exact Or.inl (by simp [hlast])

/-- Reading lines again does not change what they say. -/
theorem valueFrom_reread {sectionName current : Option Text} {key : Text} (ls : List Text) :
    valueFrom sectionName key current (reread ls) = valueFrom sectionName key current ls := by
  rcases map_trim_reread ls with h | ⟨front, rfl, h⟩
  · exact valueFrom_congr h
  · have hblank : ∀ current', valueFrom sectionName key current' [[]] = none := by
      intro current'
      have hnone : ownValue key [] = none := rfl
      rw [valueFrom, valueFrom, hnone, ite_self, Option.or_none]
    rw [valueFrom_congr h, valueFrom_append, hblank, Option.none_or]

section

/-- A key that can stand before the sign of an assignment. -/
structure PlainKey (key : Text) : Prop where
  trimmed : trim key = key
  nonempty : key ≠ []
  oneLine : '\n' ∉ key
  unassigned : '=' ∉ key
  noHeader : key.head? ≠ some '['

structure PlainValue (value : Text) : Prop where
  trimmed : trim value = value
  oneLine : '\n' ∉ value

/-- Changes with plain keys and values. -/
def PlainChanges (changes : HashMap String String) : Prop :=
  ∀ key value, changes.lookup key = some value → PlainKey key.toList ∧ PlainValue value.toList

/-- A key and its value as they are written in files. -/
structure WrittenEntry (key value : Text) : Prop where
  keyTrimmed : trim key = key
  valueTrimmed : trim value = value
  keyLine : '\n' ∉ key
  valueLine : '\n' ∉ value
  unassigned : '=' ∉ key

/-- A line with this key and this value is in the brackets of a section. -/
def Bracketed (key value : Text) : Prop :=
  key.head? = some '[' ∧ value.getLast? = some ']'

/-- A key and its value that are read as they are meant. -/
structure LegibleEntry (key value : Text) : Prop extends WrittenEntry key value where
  noHeader : ¬ Bracketed key value

def LegibleChanges (changes : HashMap String String) : Prop :=
  ∀ key value, changes.lookup key = some value → LegibleEntry key.toList value.toList

theorem PlainChanges.legible {changes : HashMap String String} (h : PlainChanges changes) :
    LegibleChanges changes := by
  intro key value hlookup
  rcases h key value hlookup with ⟨hkey, hvalue⟩
  exact
    { keyTrimmed := hkey.trimmed
      valueTrimmed := hvalue.trimmed
      keyLine := hkey.oneLine
      valueLine := hvalue.oneLine
      unassigned := hkey.unassigned
      noHeader := fun h => hkey.noHeader h.1 }

/-- The line that sets a key. -/
def entryLine (key value : Text) : Text :=
  key ++ ['='] ++ value

variable {key value : Text}

theorem head?_entryLine (key value : Text) :
    (entryLine key value).head? = some (key.head?.getD '=') := by
  cases key <;> rfl

theorem getLast?_entryLine (key value : Text) :
    (entryLine key value).getLast? = some (value.getLast?.getD '=') := by
  rw [entryLine, List.getLast?_append, List.getLast?_concat]
  cases value.getLast? <;> rfl

/-- Nothing is trimmed from the line of a key and a value of which nothing is. -/
theorem trim_entryLine (hkey : trim key = key) (hvalue : trim value = value) :
    trim (entryLine key value) = entryLine key value := by
  refine (trimBy_eq_self_iff _).mpr ⟨fun c hc => ?_, fun c hc => ?_⟩
  · rw [head?_entryLine, Option.some.injEq] at hc
    rw [← hc]
    cases hhead : key.head? with
    | none => decide
    | some d => exact ((trimBy_eq_self_iff key).mp hkey).1 d hhead
  · rw [getLast?_entryLine, Option.some.injEq] at hc
    rw [← hc]
    cases hlast : value.getLast? with
    | none => decide
    | some d => exact ((trimBy_eq_self_iff value).mp hvalue).2 d hlast

/-- The line that sets a key is that of the key and its value. -/
theorem entryLine_spec (h : LegibleEntry key value) : sectionHeader (entryLine key value) = none ∧
      assigned (entryLine key value) = some (key, value) ∧
      '\n' ∉ entryLine key value ∧ entryLine key value ≠ [] ∧
      (entryLine key value).getLast? ≠ some '\r' := by
  have htrim := trim_entryLine h.keyTrimmed h.valueTrimmed
  have hheader : sectionHeader (entryLine key value) = none := by
    rw [sectionHeader, htrim, head?_entryLine, getLast?_entryLine]
    refine if_neg fun hbrackets => h.noHeader ⟨?_, ?_⟩
    · cases hhead : key.head? <;> simp_all
    · cases hlast : value.getLast? <;> simp_all
  refine ⟨hheader, ?_, ?_, by simp [entryLine], fun hreturn => ?_⟩
  · have hcut : splitOnce ['='] (entryLine key value) = some (key, value) := by
      rw [entryLine, List.append_assoc, List.singleton_append]
      exact splitOnce_line value h.unassigned
    rw [assigned, hheader, htrim, hcut]
    simp [h.keyTrimmed, h.valueTrimmed]
  · simp [entryLine, h.keyLine, h.valueLine]
  · have hends := ((trimBy_eq_self_iff _).mp htrim).2 '\r' hreturn
    exact absurd hends (by decide)

end

section

variable (target : Text) (changes : HashMap String String)

/-- The change that a line of a section is overwritten with. -/
def overwrittenBy (current : Option Text) (line : Text) : Option (Text × String) :=
  if current = some target then
    (assigned line).bind fun entry =>
      (changes.lookup (String.ofList entry.1)).map fun value => (entry.1, value)
  else none

/-- A line after the edit in place. -/
def editLine (current : Option Text) (line : Text) : Text :=
  match overwrittenBy target changes current line with
  | some (key, value) => entryLine key value.toList
  | none => line

/-- The lines after the edit in place. -/
def editLines : Option Text → List Text → List Text
  | _, [] => []
  | current, line :: rest =>
      editLine target changes current line :: editLines (nextSection current line) rest

/-- The keys that are set in place. -/
def appliedKeys : Option Text → List Text → List String
  | _, [] => []
  | current, line :: rest =>
      ((overwrittenBy target changes current line).map fun entry =>
        String.ofList entry.1).toList ++ appliedKeys (nextSection current line) rest

/-- A section of this name starts. -/
def HasSection (ls : List Text) : Prop :=
  ∃ line ∈ ls, sectionHeader line = some target

variable {target changes} {current : Option Text}

theorem scanLine_eq (changes : HashMap String String) (scan : IniScan) (line : Text)
    (hscan : scan.inTargetSection = decide (current = some target)) :
    scanLine target changes scan line =
      { inTargetSection := decide (nextSection current line = some target)
        sectionFound := scan.sectionFound || decide (sectionHeader line = some target)
        appliedChanges := scan.appliedChanges ++
          ((overwrittenBy target changes current line).map fun entry =>
            String.ofList entry.1).toList
        lines := scan.lines ++ [editLine target changes current line] } := by
  unfold scanLine
  cases hheader : sectionHeader line with
  | some name =>
      have hnone : overwrittenBy target changes current line = none := by
        rw [overwrittenBy, assigned_of_header hheader, Option.bind_none, ite_self]
      simp [nextSection, hheader, editLine, hnone]
  | none =>
      have hassigned : assigned line
          = (splitOnce ['='] (trim line)).map fun parts => (trim parts.1, trim parts.2) := by
        rw [assigned, hheader]
        rfl
      have hnext : nextSection current line = current := by
        rw [nextSection, hheader, Option.none_or]
      rw [hscan]
      by_cases hcurrent : current = some target
      · cases hcut : splitOnce ['='] (trim line) with
        | none =>
            have hnone : overwrittenBy target changes current line = none := by
              rw [overwrittenBy, hassigned, hcut, Option.map_none, Option.bind_none, ite_self]
            subst hcurrent
            simp [hnext, editLine, hnone]
        | some parts =>
            have hover : overwrittenBy target changes current line =
                (changes.lookup (String.ofList (trim parts.1))).map
                  fun value => (trim parts.1, value) := by
              rw [overwrittenBy, if_pos hcurrent, hassigned, hcut, Option.map_some,
                Option.bind_some]
            subst hcurrent
            cases hlookup : changes.lookup (String.ofList (trim parts.1)) with
            | none => simp [hnext, editLine, hover, hlookup]
            | some value => simp [hnext, editLine, hover, hlookup, entryLine]
      · have hnone : overwrittenBy target changes current line = none := by
          rw [overwrittenBy, if_neg hcurrent]
        simp [hcurrent, hnext, editLine, hnone]

/-- The loop over the lines. -/
theorem scan_eq (target : Text) (changes : HashMap String String) (current : Option Text)
    (ls : List Text) (scan : IniScan)
    (hscan : scan.inTargetSection = decide (current = some target)) :
    (ls.foldl (scanLine target changes) scan).lines
      = scan.lines ++ editLines target changes current ls ∧
    (ls.foldl (scanLine target changes) scan).appliedChanges
      = scan.appliedChanges ++ appliedKeys target changes current ls ∧
    ((ls.foldl (scanLine target changes) scan).sectionFound = true ↔
      scan.sectionFound = true ∨ HasSection target ls) := by
  induction ls generalizing scan current with
  | nil => simp [editLines, appliedKeys, HasSection]
  | cons line rest ih =>
      have hline := scanLine_eq changes scan line hscan
      have hnext : (scanLine target changes scan line).inTargetSection
          = decide (nextSection current line = some target) := by rw [hline]
      rcases ih (nextSection current line) (scanLine target changes scan line) hnext with
        ⟨hlines, happlied, hfound⟩
      rw [List.foldl_cons, hlines, happlied, hfound, hline]
      refine ⟨?_, ?_, ?_⟩
      · rw [List.append_assoc, List.singleton_append, editLines]
      · rw [List.append_assoc, appliedKeys]
      · simp [HasSection, or_assoc]

end

section

variable {target : Text} {changes : HashMap String String} {current : Option Text}

theorem overwrittenBy_eq_some {line key : Text} {value : String}
    (h : overwrittenBy target changes current line = some (key, value)) :
    current = some target ∧ (∃ old, assigned line = some (key, old)) ∧
      changes.lookup (String.ofList key) = some value := by
  unfold overwrittenBy at h
  split_ifs at h with hcurrent
  rw [Option.bind_eq_some_iff] at h
  rcases h with ⟨⟨k, old⟩, hassigned, hlookup⟩
  rw [Option.map_eq_some_iff] at hlookup
  rcases hlookup with ⟨v, hlookup, heq⟩
  rcases Prod.mk.inj heq with ⟨rfl, rfl⟩
  exact ⟨hcurrent, ⟨old, hassigned⟩, hlookup⟩

/-- An edit in place keeps the headers and gives keys their new values. -/
theorem editLine_spec (hlegible : LegibleChanges changes) (line : Text) :
    sectionHeader (editLine target changes current line) = sectionHeader line ∧
    assigned (editLine target changes current line) =
      match overwrittenBy target changes current line with
      | some (key, value) => some (key, value.toList)
      | none => assigned line := by
  unfold editLine
  cases hover : overwrittenBy target changes current line with
  | none => exact ⟨rfl, rfl⟩
  | some entry =>
      rcases overwrittenBy_eq_some hover with ⟨-, ⟨old, hassigned⟩, hlookup⟩
      have hwritten := hlegible _ _ hlookup
      rw [String.toList_ofList] at hwritten
      rcases entryLine_spec hwritten with ⟨hheader, hentry, -⟩
      refine ⟨?_, hentry⟩
      cases hline : sectionHeader line with
      | none => exact hheader
      | some name =>
          rw [assigned_of_header hline] at hassigned
          cases hassigned

theorem nextSection_editLine (hlegible : LegibleChanges changes) (line : Text) :
    nextSection current (editLine target changes current line) = nextSection current line := by
  rw [nextSection, nextSection, (editLine_spec hlegible line).1]

/-- The value that a changed key has instead of an old one. -/
def changedValue (changes : HashMap String String) (key old : Text) : Text :=
  ((changes.lookup (String.ofList key)).map String.toList).getD old

theorem ownValue_editLine (hlegible : LegibleChanges changes) (key line : Text) :
    ownValue key (editLine target changes current line) =
      if current = some target then (ownValue key line).map (changedValue changes key)
      else ownValue key line := by
  rw [ownValue, (editLine_spec hlegible line).2, ownValue]
  by_cases hcurrent : current = some target
  · rw [if_pos hcurrent]
    cases hassigned : assigned line with
    | none => simp [overwrittenBy, hassigned]
    | some entry =>
        rcases entry with ⟨k, old⟩
        by_cases hkey : k = key
        · cases hlookup : changes.lookup (String.ofList k) with
          | none =>
              rw [hkey] at hlookup
              simp [overwrittenBy, hassigned, hcurrent, hkey, hlookup, changedValue]
          | some value =>
              rw [hkey] at hlookup
              simp [overwrittenBy, hassigned, hcurrent, hkey, hlookup, changedValue]
        · cases hlookup : changes.lookup (String.ofList k) with
          | none => simp [overwrittenBy, hassigned, hcurrent, hkey, hlookup]
          | some value => simp [overwrittenBy, hassigned, hcurrent, hkey, hlookup]
  · rw [if_neg hcurrent, overwrittenBy, if_neg hcurrent]

/-- The edit in place, as it is read. -/
theorem valueFrom_editLines (hlegible : LegibleChanges changes) (sectionName : Option Text)
    (key : Text)
    (ls : List Text) :
    valueFrom sectionName key current (editLines target changes current ls) =
      if sectionName = some target then
        (valueFrom sectionName key current ls).map (changedValue changes key)
      else valueFrom sectionName key current ls := by
  induction ls generalizing current with
  | nil => simp [editLines, valueFrom]
  | cons line rest ih =>
      rw [editLines, valueFrom, nextSection_editLine hlegible, ih, ownValue_editLine hlegible,
        valueFrom]
      by_cases hsection : sectionName = some target
      · rw [if_pos hsection, if_pos hsection, Option.map_or]
        by_cases hcurrent : current = sectionName
        · rw [if_pos hcurrent, if_pos hcurrent, if_pos (hcurrent.trans hsection)]
        · rw [if_neg hcurrent, if_neg hcurrent, Option.map_none]
      · rw [if_neg hsection, if_neg hsection]
        by_cases hcurrent : current = sectionName
        · rw [if_pos hcurrent, if_neg fun h => hsection (hcurrent.symm.trans h), if_pos hcurrent]
        · rw [if_neg hcurrent, if_neg hcurrent]

/-- The keys that are set in place are the changed ones that the section has. -/
theorem mem_appliedKeys (target : Text) (changes : HashMap String String) (current : Option Text)
    (key : String) (ls : List Text) :
    key ∈ appliedKeys target changes current ls ↔ (changes.lookup key).isSome ∧
      (valueFrom (some target) key.toList current ls).isSome := by
  induction ls generalizing current with
  | nil => simp [appliedKeys, valueFrom]
  | cons line rest ih =>
      have hown : key ∈ ((overwrittenBy target changes current line).map fun entry =>
          String.ofList entry.1).toList ↔ (changes.lookup key).isSome ∧
            (if current = some target then ownValue key.toList line else none).isSome := by
        by_cases hcurrent : current = some target
        · cases hassigned : assigned line with
          | none => simp [overwrittenBy, ownValue, hassigned]
          | some entry =>
              rcases entry with ⟨k, old⟩
              by_cases hkey : key = String.ofList k
              · subst hkey
                cases hlookup : changes.lookup (String.ofList k) with
                | none => simp [overwrittenBy, hassigned, hcurrent, hlookup]
                | some value => simp [overwrittenBy, ownValue, hassigned, hcurrent, hlookup]
              · have hne : k ≠ key.toList := by
                  rintro rfl
                  exact hkey String.ofList_toList.symm
                cases hlookup : changes.lookup (String.ofList k) with
                | none => simp [overwrittenBy, ownValue, hassigned, hcurrent, hlookup, hne]
                | some value =>
                    simp [overwrittenBy, ownValue, hassigned, hcurrent, hkey, hlookup, hne]
        · simp [overwrittenBy, hcurrent]
      rw [appliedKeys, List.mem_append, hown, ih, valueFrom, Option.isSome_or]
      cases (changes.lookup key).isSome <;> simp [or_comm]

end

section

variable {target : Text}

/-- The line that starts a section. -/
def headerLine (target : Text) : Text :=
  ['['] ++ target ++ [']']

theorem getLast?_headerLine (target : Text) : (headerLine target).getLast? = some ']' :=
  List.getLast?_concat

theorem sectionHeader_headerLine (target : Text) :
    sectionHeader (headerLine target) = some target := by
  have htrim : trim (headerLine target) = headerLine target := by
    refine (trimBy_eq_self_iff _).mpr ⟨fun c hc => ?_, fun c hc => ?_⟩
    · rw [← Option.some.inj (show some '[' = some c from hc)]
      decide
    · rw [getLast?_headerLine, Option.some.injEq] at hc
      rw [← hc]
      decide
  rw [sectionHeader, htrim]
  simp only [getLast?_headerLine]
  simp [headerLine]

instance (ls : List Text) : Decidable (HasSection target ls) :=
  inferInstanceAs (Decidable (∃ line ∈ ls, sectionHeader line = some target))

/-- Lines that start no section are passed over. -/
theorem insertIndex_append (inSection : Bool) (i : Nat) (extra rest : List Text)
    (hextra : ∀ line ∈ extra, sectionHeader line = none) :
    insertIndex target inSection i (extra ++ rest)
      = insertIndex target inSection (i + extra.length) rest := by
  induction extra generalizing i with
  | nil => rfl
  | cons line extra ih =>
      rw [List.cons_append, insertIndex, hextra line List.mem_cons_self]
      simp only
      rw [ih (i + 1) fun l hl => hextra l (List.mem_cons_of_mem line hl), List.length_cons]
      congr 1
      omega

/-- Where a key is inserted: the lines are cut in the section, at its end, and the cut stays
    there when lines are inserted. -/
theorem insertIndex_split (current : Option Text) (i : Nat) (ls : List Text)
    (h : current = some target ∨ HasSection target ls) :
    ∃ front back, ls = front ++ back ∧ sectionAfter current front = some target ∧
      ∀ extra : List Text, (∀ line ∈ extra, sectionHeader line = none) →
        insertIndex target (decide (current = some target)) i (front ++ extra ++ back)
          = i + (front ++ extra).length := by
  induction ls generalizing current i with
  | nil =>
      -- The end of the text is in the section, so the keys go there.
      have hcurrent : current = some target := by
        rcases h with hcurrent | ⟨line, hline, -⟩
        · exact hcurrent
        · cases hline
      refine ⟨[], [], rfl, hcurrent, fun extra hextra => ?_⟩
      rw [List.nil_append, insertIndex_append _ _ _ _ hextra, insertIndex]
  | cons line rest ih =>
      by_cases hstop : current = some target ∧ sectionHeader line ≠ none ∧
          sectionHeader line ≠ some target
      · -- The section ends with this line, and the search with it.
        refine ⟨[], line :: rest, rfl, hstop.1, fun extra hextra => ?_⟩
        obtain ⟨name, hname⟩ := Option.ne_none_iff_exists'.mp hstop.2.1
        have hne : name ≠ target := by
          rintro rfl
          exact hstop.2.2 hname
        rw [List.nil_append, insertIndex_append _ _ _ _ hextra, insertIndex, hname]
        simp [hne, hstop.1]
      · -- The section goes on after this line, or it is still to come.
        have hnext : nextSection current line = some target ∨ HasSection target rest := by
          rcases h with hcurrent | ⟨l, hl, htarget⟩
          · left
            rw [nextSection]
            cases hheader : sectionHeader line with
            | none => rw [Option.none_or, hcurrent]
            | some name =>
                by_contra hne
                exact hstop ⟨hcurrent, by rw [hheader]; simp, fun heq => hne (by
                  rw [hheader] at heq
                  rw [heq, Option.some_or])⟩
          · rcases List.mem_cons.mp hl with rfl | hl
            · left
              rw [nextSection, htarget, Option.some_or]
            · exact Or.inr ⟨l, hl, htarget⟩
        rcases ih (nextSection current line) (i + 1) hnext with
          ⟨front, back, rfl, hafter, hindex⟩
        refine ⟨line :: front, back, rfl, hafter, fun extra hextra => ?_⟩
        have hstep : insertIndex target (decide (current = some target)) i
            (line :: (front ++ extra ++ back))
            = insertIndex target (decide (nextSection current line = some target)) (i + 1)
                (front ++ extra ++ back) := by
          rw [insertIndex, nextSection]
          cases hheader : sectionHeader line with
          | none => rfl
          | some name =>
              by_cases hname : name = target
              · simp [hname]
              · have hcurrent : current ≠ some target := by
                  intro hcurrent
                  exact hstop ⟨hcurrent, by rw [hheader]; simp, by rw [hheader]; simpa using hname⟩
                simp [hname, hcurrent]
        rw [List.cons_append, List.cons_append, hstep, hindex extra hextra, List.length_cons]
        omega

theorem insertIdx_append {α : Type} (front back : List α) (x : α) :
    (front ++ back).insertIdx front.length x = front ++ x :: back := by
  induction front with
  | nil => rfl
  | cons y rest ih => simp [ih]

/-- The lines of the keys that are inserted. -/
def newLines (applied : List String) (entries : List (Sigma fun _ : String => String)) :
    List Text :=
  (entries.filter fun entry => entry.1 ∉ applied).map fun entry =>
    entryLine entry.1.toList entry.2.toList

/-- All keys are inserted at one place, in order. -/
theorem addKeys_eq (applied : List String) (entries : List (Sigma fun _ : String => String))
    (front extra back : List Text)
    (hentries : ∀ entry ∈ entries,
      sectionHeader (entryLine entry.1.toList entry.2.toList) = none)
    (hextra : ∀ line ∈ extra, sectionHeader line = none)
    (hindex : ∀ extra : List Text, (∀ line ∈ extra, sectionHeader line = none) →
      insertIndex target false 0 (front ++ extra ++ back) = (front ++ extra).length) :
    entries.foldl (addKey target applied) (front ++ extra ++ back)
      = front ++ (extra ++ newLines applied entries) ++ back := by
  induction entries generalizing extra with
  | nil => simp [newLines]
  | cons entry rest ih =>
      have hrest : ∀ e ∈ rest, sectionHeader (entryLine e.1.toList e.2.toList) = none :=
        fun e he => hentries e (List.mem_cons_of_mem entry he)
      rw [List.foldl_cons, addKey]
      by_cases happlied : entry.1 ∈ applied
      · rw [if_pos happlied, ih extra hrest hextra]
        simp [newLines, happlied]
      · have hinsert : (front ++ extra ++ back).insertIdx (front ++ extra).length
            (entry.1.toList ++ ['='] ++ entry.2.toList)
            = front ++ (extra ++ [entryLine entry.1.toList entry.2.toList]) ++ back := by
          rw [insertIdx_append]
          simp [entryLine]
        rw [if_neg happlied, hindex extra hextra, hinsert, ih _ hrest ?_]
        · simp [newLines, happlied]
        · intro line hline
          rcases List.mem_append.mp hline with hline | hline
          · exact hextra line hline
          · rw [List.mem_singleton.mp hline]
            exact hentries entry List.mem_cons_self

end

end OpenFlight.Writers
