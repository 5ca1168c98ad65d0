import OpenFlight.Theory.Writers.IniEdits
import OpenFlight.Theory.Writers.Undo

/-!
# Edits That Verification Accepts

A diff that was applied, and the comparison of its file with the same operation.

A text that replaces a file is accepted always. A section is accepted unless its name has
a line feed, in which case it is never found again, or one of its lines is in the brackets
of a section itself.

Replacing a pattern is another matter. The comparison wants the replacement to be there and
the pattern to be gone, and the edit sees to neither: where the pattern did not occur there
is nothing new, and where it did it can be there again, in the replacement or over one of
its ends.

## Main definitions

* `InScope`: The operations that are compared, with entries as they are written in files.
* `Replaced`, `Accepted`: The texts of which an operation makes something that is accepted.

## Theorems

* `createBackup_reads`, `applyDiff_reads`: A diff with a backup reads what the file said.
* `accepted_after_apply_iff`: When an applied diff is accepted.
-/

namespace OpenFlight.Writers

open Rules (Text trim isWhitespace lines stripCarriageReturn)

section

variable {pattern replacement : Text}

theorem replaceFrom_drop (skip : Nat) (s : Text) :
    replaceFrom pattern replacement skip s = replaceFrom pattern replacement 0 (s.drop skip) := by
  induction s generalizing skip with
  | nil => cases skip <;> rfl
  | cons c rest ih =>
      cases skip with
      | zero => rfl
      | succ skip => rw [replaceFrom, ih, List.drop_succ_cons]

/-- The first occurrence is replaced, and then those after it. -/
theorem replaceFrom_splitOnce (hpattern : pattern ≠ []) (s : Text) :
    replaceFrom pattern replacement 0 s =
      match splitOnce pattern s with
      | none => s
      | some (before, after) =>
          before ++ replacement ++ replaceFrom pattern replacement 0 after := by
  induction s with
  | nil =>
      rw [splitOnce, if_neg hpattern]
      rfl
  | cons c rest ih =>
      rw [replaceFrom, splitOnce]
      by_cases hfront : pattern.isPrefixOf (c :: rest) = true
      · -- The rest of the occurrence is skipped.
        obtain ⟨n, hn⟩ := Nat.exists_eq_succ_of_ne_zero (List.length_pos_of_ne_nil hpattern).ne'
        rw [if_pos hfront, if_pos hfront, replaceFrom_drop, hn]
        rfl
      · rw [if_neg hfront, if_neg hfront, ih]
        cases splitOnce pattern rest <;> rfl

theorem replaceFrom_splitFuel (hpattern : pattern ≠ []) (fuel : Nat) (s : Text)
    (hfuel : s.length ≤ fuel) :
    replaceFrom pattern replacement 0 s = replacement.intercalate (splitFuel pattern fuel s) := by
  -- By induction on the fuel: what is left after an occurrence is shorter.
  induction fuel generalizing s with
  | zero =>
      have hnil : s = [] := List.length_eq_zero_iff.mp (Nat.le_zero.mp hfuel)
      rw [hnil, splitFuel, List.intercalate_singleton]
      rfl
  | succ fuel ih =>
      rw [replaceFrom_splitOnce hpattern, splitFuel]
      cases hsplit : splitOnce pattern s with
      | none => exact List.intercalate_singleton.symm
      | some parts =>
          rcases parts with ⟨before, after⟩
          have hjoin := (splitOnce_eq_some pattern s before after hsplit).1
          have hshorter : after.length ≤ fuel := by
            have hpos := List.length_pos_of_ne_nil hpattern
            rw [hjoin, List.length_append, List.length_append] at hfuel
            omega
          simp only
          rw [ih after hshorter,
            List.intercalate_cons_of_ne_nil (splitFuel_ne_nil pattern fuel after)]

/-- Replacing a pattern puts the replacement between the pieces. -/
theorem toList_replaceText {content pattern replacement : String} (hpattern : pattern ≠ "") :
    (replaceText content pattern replacement).toList =
      replacement.toList.intercalate (splitAll pattern.toList content.toList) := by
  have hne : pattern.toList ≠ [] := fun h => hpattern (String.toList_eq_nil_iff.mp h)
  have hempty : pattern.isEmpty = false := by
    rw [← Bool.not_eq_true, String.isEmpty_iff]
    exact hpattern
  rw [replaceText, hempty, if_neg Bool.false_ne_true, String.toList_ofList]
  exact replaceFrom_splitFuel hne _ _ (le_refl _)

/-- A text in which replacing a pattern leaves the replacement and takes the pattern away. -/
def Replaced (pattern replacement content : Text) : Prop :=
  pattern ≠ [] ∧
    if pattern <:+: content then ¬ AcrossSeam replacement pattern (splitAll pattern content)
    else replacement <:+: content

/-- The replacement is there and the pattern is not, if and only if a pattern that occurred is
    not at a seam, or the replacement of one that did not was there. -/
theorem replaced_iff (content pattern replacement : String) :
    (replacement.toList <:+: (replaceText content pattern replacement).toList ∧
        ¬ pattern.toList <:+: (replaceText content pattern replacement).toList) ↔
      Replaced pattern.toList replacement.toList content.toList := by
  by_cases hpattern : pattern = ""
  · rw [hpattern, Replaced]
    simp
  · have hne : pattern.toList ≠ [] := fun h => hpattern (String.toList_eq_nil_iff.mp h)
    have hpieces : ∀ piece ∈ splitAll pattern.toList content.toList, ¬ pattern.toList <:+: piece :=
      fun piece hpiece => (splitAll_spec _ _ piece hne hpiece).2
    -- The pieces have no occurrence of the pattern.
    have hseams : pattern.toList <:+: replacement.toList.intercalate
        (splitAll pattern.toList content.toList) ↔
          AcrossSeam replacement.toList pattern.toList
            (splitAll pattern.toList content.toList) := by
      rw [infix_intercalate_iff _ _ _ (splitAll_ne_nil _ _)]
      exact or_iff_right fun ⟨piece, hpiece, hwithin⟩ => hpieces piece hpiece hwithin
    rw [toList_replaceText hpattern, Replaced, hseams]
    by_cases hoccurs : pattern.toList <:+: content.toList
    · have hmany := (infix_iff_splitAll _ _ hne).mp hoccurs
      rw [if_pos hoccurs]
      exact ⟨fun h => ⟨hne, h.2⟩, fun h => ⟨joint_infix_intercalate _ _ hmany, h.2⟩⟩
    · rw [if_neg hoccurs, splitAll_of_absent _ _ hoccurs, List.intercalate_singleton]
      exact ⟨fun h => ⟨hne, h.1⟩, fun h => ⟨h.2, fun hseam => hseam⟩⟩

end

section

variable {target key value : Text} {current : Option Text}

/-- What a line sets is not in brackets: the line would start a section. -/
theorem not_bracketed_of_assigned {line : Text} (h : assigned line = some (key, value)) :
    ¬ Bracketed key value := by
  unfold assigned at h
  split_ifs at h with hheader
  rw [Option.map_eq_some_iff] at h
  rcases h with ⟨⟨before, after⟩, hcut, heq⟩
  rcases Prod.mk.inj heq with ⟨rfl, rfl⟩
  have hjoin := (splitOnce_eq_some _ _ _ _ hcut).1
  -- Trimming keeps the ends of a line that are not blank, and brackets are not.
  rcases ends_trimBy line with ⟨hfirst, hlast⟩
  rintro ⟨hopen, hclose⟩
  have hbefore : before.head? = some '[' := by
    refine head?_of_trimBy (fun d hd => hfirst d ?_) hopen
    rw [← trim, hjoin, List.append_assoc, List.head?_append, hd, Option.some_or]
  have hafter : after.getLast? = some ']' := by
    refine getLast?_of_trimBy (fun d hd => hlast d ?_) hclose
    rw [← trim, hjoin, List.getLast?_append, hd, Option.some_or]
  refine hheader ?_
  rw [sectionHeader, hjoin, List.append_assoc, List.head?_append, hbefore, ← List.append_assoc,
    List.getLast?_append, hafter]
  rfl

theorem assigned_of_valueFrom {sectionName : Option Text} {ls : List Text}
    (h : valueFrom sectionName key current ls = some value) :
    ∃ line ∈ ls, assigned line = some (key, value) := by
  induction ls generalizing current with
  | nil => cases h
  | cons line rest ih =>
      rw [valueFrom, Option.or_eq_some_iff] at h
      rcases h with hrest | ⟨-, hown⟩
      · rcases ih hrest with ⟨l, hl, hassigned⟩
        exact ⟨l, List.mem_cons_of_mem line hl, hassigned⟩
      · split_ifs at hown
        rw [ownValue, Option.bind_eq_some_iff] at hown
        rcases hown with ⟨entry, hentry, hkey⟩
        split_ifs at hkey with hsame
        refine ⟨line, List.mem_cons_self, ?_⟩
        rw [hentry, ← hsame, ← Option.some.inj hkey]

theorem valueFrom_of_not_hasSection {ls : List Text} (hls : ¬ HasSection target ls)
    (hcurrent : current ≠ some target) : valueFrom (some target) key current ls = none := by
  induction ls generalizing current with
  | nil => rfl
  | cons line rest ih =>
      have hrest : ¬ HasSection target rest :=
        fun ⟨l, hl, hheader⟩ => hls ⟨l, List.mem_cons_of_mem line hl, hheader⟩
      have hnext : nextSection current line ≠ some target := by
        rw [nextSection]
        cases hheader : sectionHeader line with
        | none => exact hcurrent
        | some name =>
            intro hname
            exact hls ⟨line, List.mem_cons_self, hheader.trans hname⟩
      rw [valueFrom, ih hrest hnext, if_neg hcurrent, Option.none_or]

/-- Changes as they are written in files are accepted after the edit if and only if there are
    none, or the name of the section has no line feed and no entry is in brackets. -/
theorem verifyIniSection_applyIniChanges_iff (order order' : Iteration String String)
    {changes : HashMap String String}
    (hwritten : ∀ key value, changes.lookup key = some value →
      WrittenEntry key.toList value.toList) (content sectionName : String) :
    verifyIniSection order' (applyIniChanges order content sectionName changes) sectionName changes
        = true ↔
      changes = ∅ ∨ ('\n' ∉ sectionName.toList ∧ ∀ key value, changes.lookup key = some value →
        ¬ Bracketed key.toList value.toList) := by
  rw [verifyIniSection_iff]
  constructor
  · intro h
    by_cases hempty : changes = ∅
    · exact Or.inl hempty
    · obtain ⟨key, hkey⟩ : ∃ key, key ∈ changes := by
        by_contra hnone
        exact hempty (Finmap.ext_lookup fun key => by
          rw [Finmap.lookup_empty, Finmap.lookup_eq_none]
          exact fun hmem => hnone ⟨key, hmem⟩)
      obtain ⟨value, hlookup⟩ := Finmap.mem_iff.mp hkey
      refine Or.inr ⟨fun hfeed => ?_, fun key value hlookup => ?_⟩
      · -- No line has the name of the section, so nothing is read in it.
        have hread := h key value hlookup
        rw [readIni, valueFrom_of_not_hasSection (not_hasSection hfeed) (by simp)] at hread
        cases hread
      · rcases assigned_of_valueFrom (h key value hlookup) with ⟨line, -, hassigned⟩
        exact not_bracketed_of_assigned hassigned
  · rintro (rfl | ⟨hsection, hbrackets⟩)
    · intro key value hlookup
      rw [Finmap.lookup_empty] at hlookup
      cases hlookup
    · have hlegible : LegibleChanges changes := fun key value hlookup =>
        { toWrittenEntry := hwritten key value hlookup
          noHeader := hbrackets key value hlookup }
      exact (verifyIniSection_iff order' _ _ _).mp
        (verifyIniSection_applyIniChanges order hlegible content sectionName hsection order')

end

section

variable (services : Services)

/-- The text that an operation reads: nothing where there is no file. -/
def textAt (t : Tree) (file : Path) : Option String :=
  if t.pathExists file then readToString t file else some ""

/-- The text that the operation of a diff finds. A file that is its own backup is emptied before. -/
def textBefore (t : Tree) (diff : FileDiff) (backupPath : Path) : Text :=
  if diff.backup = true ∧ diff.file ≠ [] ∧ diff.file.dropLast = backupPath then []
  else ((textAt t diff.file).getD "").toList

variable {services} {t t' : Tree} {file : Path}

theorem textAt_of_fileAt {bytes : ByteArray} (h : t.fileAt file = some bytes) :
    textAt t file = String.fromUTF8? bytes := by
  rw [textAt, FileTree.pathExists_of_fileAt _ _ (by rw [h]; rfl), if_pos rfl, readToString,
    (FileTree.readFile_eq_ok_iff _ _ _).mpr h]

theorem fileAt_of_putFile {content message : String}
    (h : putFile t file content message = (t', .ok ())) :
    t'.fileAt file = some content.toUTF8 := by
  rcases putFile_cases t file content message with hput | ⟨t₁, -, hput | ⟨-, hput⟩⟩
  · rw [hput] at h
    cases h
  · rw [hput] at h
    cases h
  · rw [hput, Prod.mk.injEq] at h
    rw [← h.1, FileTree.fileAt_set_file, if_pos rfl]

/-- What an edit writes is made of what was there. -/
theorem fileAt_of_editFile {readMessage writeMessage : String} {edit : String → String}
    (h : editFile t file "" readMessage writeMessage (fun content => .ok (edit content))
      = (t', .ok ())) :
    ∃ content, textAt t file = some content ∧ t'.fileAt file = some (edit content).toUTF8 := by
  unfold editFile readText at h
  unfold textAt
  by_cases hexists : t.pathExists file = true
  · rw [if_pos hexists] at h ⊢
    cases hread : readToString t file with
    | none =>
        rw [hread] at h
        cases h
    | some content =>
        rw [hread] at h
        exact ⟨content, rfl, fileAt_of_putFile h⟩
  · rw [if_neg hexists] at h ⊢
    exact ⟨"", rfl, fileAt_of_putFile h⟩

variable {backupPath : Path}

/-- A backup was made: the directory is there, the file could be read and its copy written. -/
theorem createBackup_eq_ok (h : createBackup t file backupPath = (t', .ok ())) :
    ∃ name t₁ bytes, file.getLast? = some name ∧ t.createDirAll backupPath = .ok t₁ ∧
      t₁.fileAt file = some bytes ∧ t₁.writeFile (backupPath ++ [name])
        (if file = backupPath ++ [name] then ByteArray.empty else bytes) = .ok t' := by
  unfold createBackup at h
  cases hname : file.getLast? with
  | none =>
      rw [hname] at h
      cases h
  | some name =>
      rw [hname] at h
      simp only [List.dropLast_concat] at h
      cases hdirs : t.createDirAll backupPath with
      | error e =>
          rw [hdirs] at h
          cases h
      | ok t₁ =>
          simp only [hdirs, copyFile] at h
          cases hread : t₁.readFile file with
          | error e =>
              rw [hread] at h
              cases h
          | ok bytes =>
              simp only [hread] at h
              cases hwrite : t₁.writeFile (backupPath ++ [name])
                  (if file = backupPath ++ [name] then ByteArray.empty else bytes) with
              | error e =>
                  rw [hwrite] at h
                  cases h
              | ok t₂ =>
                  rw [hwrite, Prod.mk.injEq] at h
                  rw [h.1] at hwrite
                  exact ⟨name, t₁, bytes, rfl, rfl, (FileTree.readFile_eq_ok_iff _ _ _).mp hread,
                    hwrite⟩

/-- A backup leaves the file as it is, or it empties it. -/
theorem createBackup_reads {diff : FileDiff} (hbackup : diff.backup = true)
    (h : createBackup t diff.file backupPath = (t', .ok ())) (content : String)
    (hcontent : textAt t' diff.file = some content) :
    content.toList = textBefore t diff backupPath := by
  rcases createBackup_eq_ok h with ⟨name, t₁, bytes, hname, hdirs, hfile, hwrite⟩
  have hwritten := FileTree.fileAt_writeFile _ _ _ _ hwrite diff.file
  have hown : diff.file = backupPath ++ [name] ↔
      diff.file ≠ [] ∧ diff.file.dropLast = backupPath := by
    obtain ⟨front, hfront⟩ := List.getLast?_eq_some_iff.mp hname
    rw [hfront]
    simp
  rw [textBefore]
  by_cases hself : diff.file = backupPath ++ [name]
  · -- The copy is opened for writing first, and then there is nothing left to read.
    have hempty : String.fromUTF8? ByteArray.empty = some "" := fromUTF8?_toUTF8 ""
    rw [if_pos hself, if_pos hself] at hwritten
    rw [textAt_of_fileAt hwritten, hempty, Option.some.injEq] at hcontent
    rw [if_pos ⟨hbackup, hown.mp hself⟩, ← hcontent]
    rfl
  · rw [if_neg hself, hfile] at hwritten
    rw [FileTree.fileAt_makeDirs t t₁ _ hdirs] at hfile
    rw [textAt_of_fileAt hwritten] at hcontent
    rw [if_neg fun hif => hself (hown.mpr hif.2), textAt_of_fileAt hfile, hcontent]
    rfl

/-- A diff with a backup reads what the file said. -/
theorem applyDiff_reads {diff : FileDiff}
    (h : applyDiff services t diff backupPath = (t', .ok ())) :
    ∃ t₁, operate services t₁ diff = (t', .ok ()) ∧
      ∀ content, textAt t₁ diff.file = some content →
        content.toList = textBefore t diff backupPath := by
  unfold applyDiff at h
  split_ifs at h with hbackup
  · rw [Bool.and_eq_true] at hbackup
    cases hcopy : createBackup t diff.file backupPath with
    | mk t₁ result =>
        cases result with
        | error message =>
            rw [hcopy] at h
            cases h
        | ok _ =>
            rw [hcopy] at h
            exact ⟨t₁, h, createBackup_reads hbackup.1 hcopy⟩
  · refine ⟨t, h, fun content hcontent => ?_⟩
    rw [textBefore]
    split_ifs with hown
    · -- There is no file that could be its own backup.
      have hmissing : t.pathExists diff.file = false := by
        rw [← Bool.not_eq_true]
        exact fun hexists => hbackup (by rw [hown.1, hexists]; rfl)
      rw [textAt, hmissing, if_neg Bool.false_ne_true, Option.some.injEq] at hcontent
      rw [← hcontent]
      rfl
    · rw [hcontent]
      rfl

end

/-- The operations that are compared; keys and values are as they are written in files, and a
    pattern is not a regular expression. -/
def InScope : DiffOperation → Prop
  | .replace _ => True
  | .iniSection _ changes => ∀ key value, changes.lookup key = some value →
      WrittenEntry key.toList value.toList
  | .jsonPatch _ => False
  | .lineReplace _ _ regex => regex = false

/-- A text of which the operation makes something that is accepted. -/
def Accepted (content : Text) : DiffOperation → Prop
  | .replace _ | .jsonPatch _ => True
  | .iniSection sectionName changes =>
      changes = ∅ ∨ ('\n' ∉ sectionName.toList ∧ ∀ key value, changes.lookup key = some value →
        ¬ Bracketed key.toList value.toList)
  | .lineReplace pattern replacement _ => Replaced pattern.toList replacement.toList content

/-- The comparison of a file that says something. -/
theorem checkFileState_of_fileAt (order : Iteration String String) {t : Tree} {file : Path}
    {content : String} (h : t.fileAt file = some content.toUTF8) (operation : DiffOperation) :
    checkFileState order t file operation = .ok none ↔
      match operation with
      | .replace expected => trim content.toList = trim expected.toList
      | .iniSection sectionName changes => verifyIniSection order content sectionName changes = true
      | .jsonPatch _ => True
      | .lineReplace pattern replacement regex =>
          replacement.toList <:+: content.toList ∧
            (regex = false → ¬ pattern.toList <:+: content.toList) := by
  rw [checkFileState, FileTree.pathExists_of_fileAt _ _ (by rw [h]; rfl),
    readToString_of_fileAt h]
  cases operation <;> simp

/-- After a diff was applied, its operation is found in the file if and only if it is one whose
    effect on the text that it read is accepted: a section whose name has no line feed and whose
    entries are not in brackets, or a pattern that is gone and a replacement that is there. -/
theorem accepted_after_apply_iff (services : Services) (order : Iteration String String)
    {t t' : Tree} {diff : FileDiff} {backupPath : Path} (hscope : InScope diff.operation)
    (h : applyDiff services t diff backupPath = (t', .ok ())) :
    checkFileState order t' diff.file diff.operation = .ok none ↔
      Accepted (textBefore t diff backupPath) diff.operation := by
  rcases applyDiff_reads h with ⟨t₁, hoperate, hreads⟩
  unfold operate at hoperate
  cases hoperation : diff.operation with
  | replace content =>
      rw [hoperation] at hoperate
      rw [checkFileState_of_fileAt order (fileAt_of_putFile hoperate), Accepted]
      exact iff_true_intro rfl
  | iniSection sectionName changes =>
      rw [hoperation] at hoperate hscope
      rcases fileAt_of_editFile hoperate with ⟨content, -, hfile⟩
      rw [checkFileState_of_fileAt order hfile]
      exact verifyIniSection_applyIniChanges_iff services.order order hscope content sectionName
  | jsonPatch patches =>
      rw [hoperation] at hscope
      exact hscope.elim
  | lineReplace pattern replacement regex =>
      rw [hoperation] at hoperate hscope
      simp only [InScope] at hscope
      subst hscope
      rcases fileAt_of_editFile hoperate with ⟨content, hcontent, hfile⟩
      rw [checkFileState_of_fileAt order hfile, Accepted, ← hreads content hcontent,
        ← replaced_iff]
      simp

/-- A pattern is replaced in a file, without a backup. -/
def swapOne (pattern replacement : String) : FileDiff :=
  { file := ["game.cfg"], operation := .lineReplace pattern replacement false, backup := false }

/-- The libraries, of which replacing a pattern uses none. -/
def noServices (order : Iteration String String) : Services :=
  { parseJson := fun _ => none
    printJson := fun _ => ""
    replaceAll := fun _ _ _ => none
    order := order }

theorem applyDiff_swapOne (services : Services) (content pattern replacement : String) :
    applyDiff services (oneFile "game.cfg" content) (swapOne pattern replacement) [] =
      ((oneFile "game.cfg" content).set ["game.cfg"]
        (.file (replaceText content pattern replacement).toUTF8), .ok ()) := by
  have hread : readText (oneFile "game.cfg" content) ["game.cfg"] ""
      "Failed to read existing file" = .ok content := by
    have hfile : (oneFile "game.cfg" content).fileAt ["game.cfg"] = some content.toUTF8 := by
      rw [oneFile, FileTree.fileAt_set_file, if_pos rfl]
    rw [readText, FileTree.pathExists_of_fileAt _ _ (by rw [hfile]; rfl),
      readToString_of_fileAt hfile]
    rfl
  rw [applyDiff, swapOne, Bool.false_and, if_neg Bool.false_ne_true]
  simp only [operate, replaceLines, editFile, hread]
  rfl

/-- A digit that is changed. -/
theorem accepted_after_apply_digit : InScope (swapOne "gear=0" "gear=1").operation ∧
      checkFileState default ((oneFile "game.cfg" "gear=0\n").set ["game.cfg"]
        (.file (replaceText "gear=0\n" "gear=0" "gear=1").toUTF8)) ["game.cfg"]
        (.lineReplace "gear=0" "gear=1" false) = .ok none := by
  have hread : textBefore (oneFile "game.cfg" "gear=0\n") (swapOne "gear=0" "gear=1") []
      = "gear=0\n".toList := by
    have hfile : (oneFile "game.cfg" "gear=0\n").fileAt ["game.cfg"]
        = some "gear=0\n".toUTF8 := by
      rw [oneFile, FileTree.fileAt_set_file, if_pos rfl]
    rw [textBefore, if_neg (by simp [swapOne]), swapOne, textAt_of_fileAt hfile,
      fromUTF8?_toUTF8]
    rfl
  have hreplaced : Replaced "gear=0".toList "gear=1".toList "gear=0\n".toList :=
    (replaced_iff _ _ _).mp ⟨by decide, by decide⟩
  have hscope : InScope (swapOne "gear=0" "gear=1").operation := rfl
  refine ⟨hscope, (accepted_after_apply_iff (noServices default) default hscope
    (applyDiff_swapOne (noServices default) "gear=0\n" "gear=0" "gear=1")).mpr ?_⟩
  rw [hread]
  exact hreplaced

/-- A digit that is added: the old value starts the new one. -/
theorem not_accepted_after_apply :
    ¬ ∀ (services : Services) (order : Iteration String String) (t t' : Tree) (diff : FileDiff)
      (backupPath : Path) (content : String), InScope diff.operation →
      t.fileAt diff.file = some content.toUTF8 →
      applyDiff services t diff backupPath = (t', .ok ()) →
      checkFileState order t' diff.file diff.operation = .ok none := by
  intro h
  have hnone := h (noServices default) default (oneFile "game.cfg" "gear=1\n") _
    (swapOne "gear=1" "gear=10") [] "gear=1\n" rfl
    (by rw [oneFile, swapOne, FileTree.fileAt_set_file, if_pos rfl])
    (applyDiff_swapOne (noServices default) "gear=1\n" "gear=1" "gear=10")
  have hwritten : FileTree.fileAt ((oneFile "game.cfg" "gear=1\n").set ["game.cfg"]
      (.file (replaceText "gear=1\n" "gear=1" "gear=10").toUTF8)) ["game.cfg"]
      = some (replaceText "gear=1\n" "gear=1" "gear=10").toUTF8 := by
    rw [FileTree.fileAt_set_file, if_pos rfl]
  exact ((checkFileState_of_fileAt default hwritten _).mp hnone).2 rfl (by decide)

end OpenFlight.Writers
