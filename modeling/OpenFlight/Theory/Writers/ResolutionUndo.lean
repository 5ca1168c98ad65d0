import OpenFlight.Core.Writers.CurveConflict

/-!
# Undoing a Resolution

Which files a rollback brings back after the resolution of a curve conflict.

The diffs are applied to the paths with their placeholders filled in, and the backup
is taken from the paths without. So a file that only a filled in path names is not in
the backup, and a rollback leaves it as the diffs have made it. The copies have bare
names, so files of one name share a copy, and it is that of the last of them.

A rollback that meets no error does for each file the last of what its listing says
of it, and the name of a copy is that of the file, whatever path it came from. This is
why one copy decides about a file.

## Main definitions

* `target`, `editsOf`: The file that a diff is applied to, and what diffs make of it.
* `Outside`: No path leads into the backup.

## Theorems

* `resolution_undone_iff`: When a rollback brings back all files.
* `placeholder_not_undone`: A file that is named with a placeholder.
-/

namespace OpenFlight.Writers.CurveConflict

section

variable (cwd : Path)

/-- The content of the file of a path. -/
def contentOf (t : Tree) (file : String) : Option ByteArray :=
  (filePath cwd file).bind fun p => FileTree.fileAt t p

variable {cwd} {t : Tree} {file : String} {p : Path}

/-- A path ends like the file that it leads to. -/
theorem fileName_of_filePath (h : filePath cwd file = some p) :
    ∃ name, fileName file = some name ∧ p.getLast? = some name := by
  unfold filePath at h
  cases hlast : (pathComponents file.toList).getLast? with
  | none => simp [hlast] at h
  | some last =>
      simp only [hlast] at h
      split_ifs at h with hplain
      rw [not_or, not_or] at hplain
      obtain ⟨front, hfront⟩ := List.getLast?_eq_some_iff.mp hlast
      have hname : fileName file = some (String.ofList last) := by
        simp [fileName, hfront, List.filter_append, hplain.1, hplain.2.1, hplain.2.2]
      have hplace : placeAt cwd file = (((front.foldl walkStep
          (if file.toList.head? = some '/' then [] else cwd.map String.toList))
            ++ [last]).map String.ofList) := by
        rw [placeAt, normalise, hfront, List.foldl_append, List.foldl_cons, List.foldl_nil,
          walkStep, if_neg (by simp [hplain.1, hplain.2.1]), if_neg hplain.2.2]
      refine ⟨String.ofList last, hname, ?_⟩
      rw [← Option.some.inj h, hplace]
      simp

theorem pathExists_of_contentOf (h : filePath cwd file = some p) (hfile : (t.fileAt p).isSome) :
    pathExists cwd t file = true := by
  rw [pathExists, h]
  exact FileTree.pathExists_of_fileAt _ _ hfile

end

section

variable (order : Iteration String String) (cwd : Path) (parameters : HashMap String String)

/-- The file that a diff is applied to. -/
def target (diff : CcConfigDiff) : Option Path :=
  filePath cwd (expandParameters order diff.file parameters)

/-- What a diff makes of the content of its file. -/
def editedBytes (diff : CcConfigDiff) (content : ByteArray) : ByteArray :=
  (editText order parameters diff ((String.fromUTF8? content).getD "")).toUTF8

/-- What diffs make of the content of a file. -/
def editsOf (q : Path) (diffs : List CcConfigDiff) (content : ByteArray) : ByteArray :=
  diffs.foldl (fun content diff =>
    if target order cwd parameters diff = some q then editedBytes order parameters diff content
    else content) content

variable {order cwd parameters} {t t' : Tree} {diff : CcConfigDiff} {file : String}

theorem writeText_eq_some {content : String} (h : writeText cwd t file content = some t') :
    ∃ p, filePath cwd file = some p ∧ t' = t.set p (.file content.toUTF8) := by
  unfold writeText at h
  cases hpath : filePath cwd file with
  | none => simp [hpath] at h
  | some p =>
      simp only [hpath] at h
      cases hwrite : t.writeFile p content.toUTF8 with
      | error e =>
          rw [hwrite] at h
          cases h
      | ok t₁ =>
          rw [hwrite] at h
          have hset := (FileTree.eq_set_of_writeFile _ _ _ _ hwrite).1
          rw [Option.some.inj h] at hset
          exact ⟨p, rfl, hset⟩

theorem rewriteFile_spec (h : rewriteFile order cwd parameters t file diff = (t', .ok ())) :
    ∃ p content, filePath cwd file = some p ∧ t.fileAt p = some content ∧
      t' = t.set p (.file (editedBytes order parameters diff content)) := by
  unfold rewriteFile at h
  cases hread : readText cwd t file with
  | none => simp [hread] at h
  | some text =>
      simp only [hread] at h
      cases hwrite : writeText cwd t file (editText order parameters diff text) with
      | none => simp [hwrite] at h
      | some t₁ =>
          simp only [hwrite, Prod.mk.injEq, and_true] at h
          rcases writeText_eq_some hwrite with ⟨p, hpath, hset⟩
          rw [readText, hpath, Option.bind_some, readToString] at hread
          cases hbytes : t.readFile p with
          | error e => simp [hbytes] at hread
          | ok content =>
              simp only [hbytes] at hread
              refine ⟨p, content, hpath, (FileTree.readFile_eq_ok_iff _ _ _).mp hbytes, ?_⟩
              rw [editedBytes, hread, Option.getD_some, ← hset, h]

theorem overwriteFile_spec (h : overwriteFile order cwd parameters t file diff = (t', .ok ())) :
    ∃ p, filePath cwd file = some p ∧
      t' = t.set p (.file (editText order parameters diff "").toUTF8) := by
  unfold overwriteFile at h
  cases hwrite : writeText cwd t file (editText order parameters diff "") with
  | none => simp [hwrite] at h
  | some t₁ =>
      simp only [hwrite, Prod.mk.injEq, and_true] at h
      rw [← h]
      exact writeText_eq_some hwrite

/-- What a diff that succeeds can do. Where the file is not read, it is not there, or its content
    does not matter. -/
theorem applyDiff_cases (h : applyDiff order cwd parameters t diff = (t', .ok ())) :
    rewriteFile order cwd parameters t (expandParameters order diff.file parameters) diff
        = (t', .ok ()) ∨
    (overwriteFile order cwd parameters t (expandParameters order diff.file parameters) diff
        = (t', .ok ()) ∧
      (diff.operation = .replace ∨
        ¬ pathExists cwd t (expandParameters order diff.file parameters) = true)) ∨
    (t' = t ∧ ¬ pathExists cwd t (expandParameters order diff.file parameters) = true) := by
  unfold applyDiff at h
  cases hoperation : diff.operation with
  | set =>
      simp only [hoperation] at h
      split_ifs at h with hexists
      · exact Or.inl h
      · cases h
  | remove =>
      simp only [hoperation] at h
      split_ifs at h with hexists
      · exact Or.inl h
      · exact Or.inr (Or.inr ⟨(Prod.mk.inj h).1.symm, hexists⟩)
  | append =>
      simp only [hoperation] at h
      split_ifs at h with hexists
      · exact Or.inl h
      · exact Or.inr (Or.inl ⟨h, Or.inr hexists⟩)
  | replace =>
      simp only [hoperation] at h
      exact Or.inr (Or.inl ⟨h, Or.inl rfl⟩)

/-- What a diff does to a file that is there. -/
theorem applyDiff_spec {q : Path} {content : ByteArray}
    (h : applyDiff order cwd parameters t diff = (t', .ok ()))
    (hfile : t.fileAt q = some content) :
    t'.fileAt q = some (editsOf order cwd parameters q [diff] content) := by
  have hedits : editsOf order cwd parameters q [diff] content =
      if target order cwd parameters diff = some q then
        editedBytes order parameters diff content
      else content := rfl
  have hthere : target order cwd parameters diff = some q →
      pathExists cwd t (expandParameters order diff.file parameters) = true := fun htarget =>
    pathExists_of_contentOf htarget (by rw [hfile]; rfl)
  rcases applyDiff_cases h with h | ⟨h, hunread⟩ | ⟨rfl, hexists⟩
  · rcases rewriteFile_spec h with ⟨p, found, hpath, hfound, rfl⟩
    rw [hedits, FileTree.fileAt_set_file, target, hpath]
    by_cases hq : q = p
    · rw [← hq, hfile] at hfound
      rw [if_pos hq, if_pos (by rw [hq]), Option.some.inj hfound]
    · rw [if_neg hq, if_neg fun h => hq (Option.some.inj h).symm, hfile]
  · rcases overwriteFile_spec h with ⟨p, hpath, rfl⟩
    rw [hedits, FileTree.fileAt_set_file, target, hpath]
    by_cases hq : q = p
    · have hoperation := hunread.resolve_right fun hexists =>
        hexists (hthere (by rw [target, hpath, hq]))
      rw [if_pos hq, if_pos (by rw [hq])]
      simp only [editedBytes, editText, hoperation]
    · rw [if_neg hq, if_neg fun h => hq (Option.some.inj h).symm, hfile]
  · rw [hedits, if_neg fun htarget => hexists (hthere htarget), hfile]

/-- A diff is applied to its file only. -/
theorem applyDiff_frame {q : Path} (h : applyDiff order cwd parameters t diff = (t', .ok ()))
    (hq : target order cwd parameters diff ≠ some q) : t'.get q = t.get q := by
  rcases applyDiff_cases h with h | ⟨h, -⟩ | ⟨rfl, -⟩
  · rcases rewriteFile_spec h with ⟨p, found, hpath, -, rfl⟩
    rw [FileTree.get_set, if_neg]
    rintro rfl
    exact hq hpath
  · rcases overwriteFile_spec h with ⟨p, hpath, rfl⟩
    rw [FileTree.get_set, if_neg]
    rintro rfl
    exact hq hpath
  · rfl

theorem applyDiff_error {error : CurveConflictError}
    (h : applyDiff order cwd parameters t diff = (t', .error error)) : t' = t := by
  unfold applyDiff rewriteFile overwriteFile at h
  grind

section

variable {diffs : List CcConfigDiff} {files : List String} {failure : Option WriteFailure}
  {q : Path}

include diffs files failure q

/-- What the diffs that are applied do to a file that is there. -/
theorem applyDiffs_spec {content : ByteArray}
    (h : applyDiffs order cwd parameters t diffs = (t', files, failure))
    (hfile : t.fileAt q = some content) :
    t'.fileAt q
      = some (editsOf order cwd parameters q (diffs.take files.length) content) := by
  induction diffs generalizing t files failure content with
  | nil =>
      simp only [applyDiffs, Prod.mk.injEq] at h
      rcases h with ⟨rfl, rfl, -⟩
      exact hfile
  | cons diff rest ih =>
      rcases happly : applyDiff order cwd parameters t diff with ⟨t₁, result⟩
      cases result with
      | error error =>
          simp only [applyDiffs, happly, Prod.mk.injEq] at h
          rcases h with ⟨rfl, rfl, -⟩
          rw [applyDiff_error happly]
          exact hfile
      | ok done =>
          rcases hrest : applyDiffs order cwd parameters t₁ rest with ⟨t₂, files', failure'⟩
          simp only [applyDiffs, happly, hrest, Prod.mk.injEq] at h
          rcases h with ⟨rfl, rfl, -⟩
          rw [ih hrest (applyDiff_spec happly hfile)]
          rfl

/-- The diffs are applied to their files only. -/
theorem applyDiffs_frame (h : applyDiffs order cwd parameters t diffs = (t', files, failure))
    (hq : ∀ diff ∈ diffs, target order cwd parameters diff ≠ some q) : t'.get q = t.get q := by
  induction diffs generalizing t files failure with
  | nil =>
      simp only [applyDiffs, Prod.mk.injEq] at h
      rw [h.1]
  | cons diff rest ih =>
      rcases happly : applyDiff order cwd parameters t diff with ⟨t₁, result⟩
      cases result with
      | error error =>
          simp only [applyDiffs, happly, Prod.mk.injEq] at h
          rw [← h.1, applyDiff_error happly]
      | ok done =>
          rcases hrest : applyDiffs order cwd parameters t₁ rest with ⟨t₂, files', failure'⟩
          simp only [applyDiffs, happly, hrest, Prod.mk.injEq] at h
          rcases h with ⟨rfl, -, -⟩
          rw [ih hrest fun d hd => hq d (List.mem_cons_of_mem diff hd),
            applyDiff_frame happly (hq diff List.mem_cons_self)]

end

end

section

variable (cwd : Path)

/-- The last content of a file that has a name. -/
def savedAs (t : Tree) (name : String) : List CcConfigDiff → Option ByteArray
  | [] => none
  | diff :: rest =>
      (savedAs t name rest).or
        (if fileName diff.file = some name then contentOf cwd t diff.file else none)

/-- What a backup has under a name: a copy or the listing. -/
def copyOf (t : Tree) (diffs : List CcConfigDiff) (listing : String) (name : String) :
    Option ByteArray :=
  if name = "backup_info.json" then some listing.toUTF8 else savedAs cwd t name diffs

variable {cwd} {place : Path} {t t' : Tree} {diffs : List CcConfigDiff} {diff : CcConfigDiff}

/-- A file whose path some diff has is saved. -/
theorem savedAs_isSome {name : String} (hdiff : diff ∈ diffs)
    (hname : fileName diff.file = some name) (hfile : (contentOf cwd t diff.file).isSome) :
    (savedAs cwd t name diffs).isSome := by
  induction diffs with
  | nil => cases hdiff
  | cons other rest ih =>
      rw [savedAs, Option.isSome_or, Bool.or_eq_true]
      rcases List.mem_cons.mp hdiff with rfl | hdiff
      · right
        rw [if_pos hname]
        exact hfile
      · exact Or.inl (ih hdiff)

/-- A copy in a backup: the content that was saved, or else what was there. -/
def Copied (t t' : Tree) (place : Path) (name : String) (saved : Option ByteArray) : Prop :=
  t'.get (place ++ [name]) = some .dir ∨
    t'.fileAt (place ++ [name]) = saved.or (t.fileAt (place ++ [name]))

section

variable (hdir : t.get place = some .dir)
  (houtside : ∀ p, filePath cwd diff.file = some p → ¬ place <+: p)

include hdir houtside

/-- The file of a diff is copied, or there is nothing to copy, or a directory has the place of
    the copy. -/
theorem backupDiff_cases :
    (backupDiff cwd place t diff = t ∧ ∀ name content, fileName diff.file = some name →
      contentOf cwd t diff.file = some content → t.get (place ++ [name]) = some .dir) ∨
    ∃ name content, fileName diff.file = some name ∧
      contentOf cwd t diff.file = some content ∧ t.get (place ++ [name]) ≠ some .dir ∧
      backupDiff cwd place t diff = t.set (place ++ [name]) (.file content) := by
  cases hpath : filePath cwd diff.file with
  | none =>
      left
      refine ⟨by simp [backupDiff, hpath], fun name content _ hcontent => ?_⟩
      rw [contentOf, hpath] at hcontent
      cases hcontent
  | some p =>
      have hcontentOf : contentOf cwd t diff.file = t.fileAt p := by
        rw [contentOf, hpath, Option.bind_some]
      cases hname : fileName diff.file with
      | none => exact Or.inl ⟨by simp [backupDiff, hname], fun name content h => by cases h⟩
      | some name =>
          rw [hcontentOf]
          cases hfile : t.fileAt p with
          | none =>
              -- What cannot be read is not copied. This is logged at most.
              have hread : ∀ content, t.readFile p ≠ .ok content := by
                intro content hread
                rw [(FileTree.readFile_eq_ok_iff _ _ _).mp hread] at hfile
                cases hfile
              have hcopy : ∃ e, copyFile t p (place ++ [name]) = .error e := by
                unfold copyFile
                cases hresult : t.readFile p with
                | error e => exact ⟨e, rfl⟩
                | ok content => exact absurd hresult (hread content)
              rcases hcopy with ⟨e, hcopy⟩
              left
              refine ⟨?_, fun other content _ h => by cases h⟩
              simp [backupDiff, hpath, hname, hcopy]
          | some content =>
              have hexists := pathExists_of_contentOf hpath (t := t) (by rw [hfile]; rfl)
              have hp : p ≠ place ++ [name] := by
                rintro rfl
                exact houtside _ hpath (List.prefix_append _ _)
              have hcopy : copyFile t p (place ++ [name])
                  = t.writeFile (place ++ [name]) content := by
                simp only [copyFile, (FileTree.readFile_eq_ok_iff _ _ _).mpr hfile, if_neg hp]
              by_cases hget : t.get (place ++ [name]) = some .dir
              · -- The copy fails, which is logged and no error.
                left
                have hself : t.isDir (place ++ [name]) = true := (FileTree.isDir_iff _ _).mpr hget
                refine ⟨?_, fun other found hother _ => ?_⟩
                · simp [backupDiff, hexists, hpath, hname, hcopy, FileTree.writeFile, hself]
                · rw [← Option.some.inj hother]
                  exact hget
              · right
                have hself : t.isDir (place ++ [name]) = false := by
                  rw [← Bool.not_eq_true, FileTree.isDir_iff]
                  exact hget
                have hparent : t.isDir place = true := (FileTree.isDir_iff _ _).mpr hdir
                refine ⟨name, content, rfl, rfl, hget, ?_⟩
                simp [backupDiff, hexists, hpath, hname, hcopy, FileTree.writeFile, hself, hparent]

/-- What copying the file of a diff does. -/
theorem backupDiff_spec :
    (∀ q, t.get q = some .dir → (backupDiff cwd place t diff).get q = some .dir) ∧
    (∀ q, ¬ place <+: q → (backupDiff cwd place t diff).fileAt q = t.fileAt q) ∧
    ∀ name, Copied t (backupDiff cwd place t diff) place name
      (if fileName diff.file = some name then contentOf cwd t diff.file else none) := by
  rcases backupDiff_cases hdir houtside with
    ⟨hsame, hway⟩ | ⟨name, content, hname, hcontent, hget, hset⟩
  · rw [hsame]
    refine ⟨fun _ hq => hq, fun _ _ => rfl, fun name => ?_⟩
    by_cases hname : fileName diff.file = some name
    · cases hcontent : contentOf cwd t diff.file with
      | none => exact Or.inr (by rw [ite_self, Option.none_or])
      | some content => exact Or.inl (hway name content hname hcontent)
    · exact Or.inr (by rw [if_neg hname, Option.none_or])
  · rw [hset]
    refine ⟨fun q hq => ?_, fun q hq => ?_, fun other => Or.inr ?_⟩
    · rw [FileTree.get_set, if_neg]
      · exact hq
      · rintro rfl
        exact hget hq
    · rw [FileTree.fileAt_set_file, if_neg]
      rintro rfl
      exact hq (List.prefix_append _ _)
    · rw [FileTree.fileAt_set_file, hname, hcontent]
      by_cases hother : other = name
      · rw [hother, if_pos rfl, if_pos rfl, Option.some_or]
      · rw [if_neg (by simpa using hother), if_neg fun h => hother (Option.some.inj h).symm,
          Option.none_or]

end

theorem savedAs_congr {t₁ t₂ : Tree} {name : String}
    (h : ∀ diff ∈ diffs, contentOf cwd t₁ diff.file = contentOf cwd t₂ diff.file) :
    savedAs cwd t₁ name diffs = savedAs cwd t₂ name diffs := by
  induction diffs with
  | nil => rfl
  | cons diff rest ih =>
      rw [savedAs, savedAs, ih fun d hd => h d (List.mem_cons_of_mem diff hd),
        h diff List.mem_cons_self]

theorem contentOf_congr {t₁ t₂ : Tree} {file : String}
    (houtside : ∀ p, filePath cwd file = some p → ¬ place <+: p)
    (h : ∀ q, ¬ place <+: q → t₁.fileAt q = t₂.fileAt q) :
    contentOf cwd t₁ file = contentOf cwd t₂ file := by
  unfold contentOf
  cases hpath : filePath cwd file with
  | none => rfl
  | some p => exact h p (houtside p hpath)

/-- What copying the files of all diffs does. -/
theorem backupDiffs_spec (hdir : t.get place = some .dir)
    (houtside : ∀ diff ∈ diffs, ∀ p, filePath cwd diff.file = some p → ¬ place <+: p) :
    (∀ q, t.get q = some .dir → (diffs.foldl (backupDiff cwd place) t).get q = some .dir) ∧
    (∀ q, ¬ place <+: q → (diffs.foldl (backupDiff cwd place) t).fileAt q = t.fileAt q) ∧
    ∀ name, Copied t (diffs.foldl (backupDiff cwd place) t) place name
      (savedAs cwd t name diffs) := by
  induction diffs generalizing t with
  | nil => exact ⟨fun _ hq => hq, fun _ _ => rfl, fun name => Or.inr (by simp [savedAs])⟩
  | cons diff rest ih =>
      rcases backupDiff_spec hdir (houtside diff List.mem_cons_self) with ⟨hdirs, hsame, hcopied⟩
      rcases ih (hdirs place hdir) fun d hd => houtside d (List.mem_cons_of_mem diff hd) with
        ⟨hdirs', hsame', hcopied'⟩
      rw [List.foldl_cons]
      refine ⟨fun q hq => hdirs' q (hdirs q hq), fun q hq => by rw [hsame' q hq, hsame q hq], ?_⟩
      intro name
      have hsaved : savedAs cwd (backupDiff cwd place t diff) name rest
          = savedAs cwd t name rest :=
        savedAs_congr fun d hd => contentOf_congr (houtside d (List.mem_cons_of_mem diff hd)) hsame
      rcases hcopied' name with hlater | hlater
      · exact Or.inl hlater
      · rcases hcopied name with hfirst | hfirst
        · exact Or.inl (hdirs' _ hfirst)
        · right
          rw [hlater, hsaved, hfirst, savedAs, Option.or_assoc]

/-- What a backup has, and what it leaves alone. -/
theorem createBackup_spec {printInfo : BackupInfo → String} {writers : WritersConfig}
    {timestamp : Nat} {config : CcWriterConfig} {backupPath : String}
    (houtside : ∀ diff ∈ config.diffs, ∀ p, filePath cwd diff.file = some p →
      ¬ placeAt cwd (backupPathOf writers config timestamp) <+: p)
    (h : createBackup printInfo cwd writers timestamp t config = (t', .ok backupPath)) :
    backupPath = backupPathOf writers config timestamp ∧
    (∀ q, ¬ placeAt cwd backupPath <+: q → t'.fileAt q = t.fileAt q) ∧
    ∀ name saved, copyOf cwd t config.diffs
        (printInfo (backupInfoOf writers config timestamp)) name = some saved →
      t'.get (placeAt cwd backupPath ++ [name]) = some .dir ∨
        t'.fileAt (placeAt cwd backupPath ++ [name]) = some saved := by
  unfold createBackup at h
  simp only at h
  generalize hpath : backupPathOf writers config timestamp = path at h houtside ⊢
  cases hmade : t.createDirAll (placeAt cwd path) with
  | error e => simp [hmade] at h
  | ok t₀ =>
      simp only [hmade] at h
      have hsame₀ : ∀ q, t₀.fileAt q = t.fileAt q := FileTree.fileAt_makeDirs _ _ _ hmade
      have hdir : t₀.get (placeAt cwd path) = some .dir := by
        rw [FileTree.get_makeDirs _ _ _ hmade, if_pos]
        exact (List.mem_inits _ _).mpr (List.prefix_refl _)
      rcases backupDiffs_spec hdir houtside with ⟨hdirs, hsame, hcopied⟩
      have hsaved : ∀ name, savedAs cwd t₀ name config.diffs = savedAs cwd t name config.diffs :=
        fun name => savedAs_congr fun d hd =>
          contentOf_congr (houtside d hd) fun q _ => hsame₀ q
      generalize config.diffs.foldl (backupDiff cwd (placeAt cwd path)) t₀ = t₁
        at h hdirs hsame hcopied
      have hcopies : ∀ name saved, savedAs cwd t name config.diffs = some saved →
          t₁.get (placeAt cwd path ++ [name]) = some .dir ∨
            t₁.fileAt (placeAt cwd path ++ [name]) = some saved := by
        intro name saved hname
        refine (hcopied name).imp_right fun hfile => ?_
        rw [hfile, hsaved, hname, Option.some_or]
      cases hwrite : t₁.writeFile (placeAt cwd path ++ ["backup_info.json"])
          (printInfo (backupInfoOf writers config timestamp)).toUTF8 with
      | error e =>
          simp only [hwrite, Prod.mk.injEq, Except.ok.injEq] at h
          rcases h with ⟨rfl, rfl⟩
          refine ⟨rfl, fun q hq => by rw [hsame q hq, hsame₀], fun name saved hname => ?_⟩
          by_cases hinfo : name = "backup_info.json"
          · -- The file with the information can only fail where a directory has its place.
            left
            by_contra hnot
            have hself : t₁.isDir (placeAt cwd path ++ ["backup_info.json"]) = false := by
              rw [← Bool.not_eq_true, FileTree.isDir_iff, ← hinfo]
              exact hnot
            have hparent := (FileTree.isDir_iff _ _).mpr (hdirs _ hdir)
            simp [FileTree.writeFile, hself, hparent] at hwrite
          · rw [copyOf, if_neg hinfo] at hname
            exact hcopies name saved hname
      | ok t₂ =>
          simp only [hwrite, Prod.mk.injEq, Except.ok.injEq] at h
          rcases h with ⟨rfl, rfl⟩
          rcases FileTree.eq_set_of_writeFile _ _ _ _ hwrite with ⟨rfl, hnot⟩
          refine ⟨rfl, fun q hq => ?_, fun name saved hname => ?_⟩
          · rw [FileTree.fileAt_set_file, if_neg, hsame q hq, hsame₀]
            rintro rfl
            exact hq (List.prefix_append _ _)
          · by_cases hinfo : name = "backup_info.json"
            · -- It is written last, over the copy of a file of that name.
              right
              rw [copyOf, if_pos hinfo] at hname
              rw [FileTree.fileAt_set_file, if_pos (by rw [hinfo]), hname]
            · rw [copyOf, if_neg hinfo] at hname
              have hne : placeAt cwd path ++ [name] ≠ placeAt cwd path ++ ["backup_info.json"] := by
                simpa using hinfo
              rw [FileTree.get_set, if_neg hne, FileTree.fileAt_set_file, if_neg hne]
              exact hcopies name saved hname

end

section

variable {cwd place : Path} {t t' : Tree} {files restored : List String}

/-- The first file of a listing is restored, or it has no copy. -/
theorem restoreFiles_cons {file : String}
    (h : restoreFiles cwd place t (file :: files) = (t', restored, none))
    (houtside : ∀ p, filePath cwd file = some p → ¬ place <+: p) :
    ((∀ name, fileName file = some name → t.get (place ++ [name]) = none) ∧
      restoreFiles cwd place t files = (t', restored, none)) ∨
    ∃ p name content restored', filePath cwd file = some p ∧ fileName file = some name ∧
      t.fileAt (place ++ [name]) = some content ∧
      restoreFiles cwd place (t.set p (.file content)) files = (t', restored', none) := by
  rw [restoreFiles] at h
  cases hname : fileName file with
  | none =>
      simp only [hname] at h
      exact Or.inl ⟨fun _ hother => absurd hother.symm (Option.some_ne_none _), h⟩
  | some name =>
      simp only [hname] at h
      split_ifs at h with hexists
      · right
        cases hpath : filePath cwd file with
        | none => simp [hpath] at h
        | some p =>
            have hp : place ++ [name] ≠ p := by
              rintro rfl
              exact houtside _ hpath (List.prefix_append _ _)
            cases hread : t.readFile (place ++ [name]) with
            | error e => simp [hpath, copyFile, hread] at h
            | ok content =>
                simp only [hpath, Option.map_some, copyFile, hread, if_neg hp] at h
                cases hwrite : t.writeFile p content with
                | error e => simp [hwrite] at h
                | ok t₁ =>
                    simp only [hwrite] at h
                    rcases hrest : restoreFiles cwd place t₁ files with ⟨t₂, restored', failure⟩
                    simp only [hrest, Prod.mk.injEq] at h
                    rcases h with ⟨rfl, -, rfl⟩
                    rw [(FileTree.eq_set_of_writeFile _ _ _ _ hwrite).1] at hrest
                    exact ⟨p, name, content, restored', rfl, rfl,
                      (FileTree.readFile_eq_ok_iff _ _ _).mp hread, hrest⟩
      · left
        refine ⟨fun other hother => ?_, h⟩
        rw [← Option.some.inj hother]
        simpa [FileTree.pathExists] using hexists

/-- A file that no path of the listing leads to is left alone. -/
theorem restoreFiles_frame {q : Path} (h : restoreFiles cwd place t files = (t', restored, none))
    (houtside : ∀ file ∈ files, ∀ p, filePath cwd file = some p → ¬ place <+: p)
    (hq : ∀ file ∈ files, filePath cwd file ≠ some q) : t'.fileAt q = t.fileAt q := by
  induction files generalizing t restored with
  | nil =>
      simp only [restoreFiles, Prod.mk.injEq] at h
      rw [h.1]
  | cons file rest ih =>
      have hmem : ∀ f ∈ rest, f ∈ file :: rest := fun f hf => List.mem_cons_of_mem file hf
      rcases restoreFiles_cons h (houtside file List.mem_cons_self) with
        ⟨-, hrest⟩ | ⟨p, name, content, restored', hpath, -, -, hrest⟩
      · exact ih hrest (fun f hf => houtside f (hmem f hf)) fun f hf => hq f (hmem f hf)
      · rw [ih hrest (fun f hf => houtside f (hmem f hf)) fun f hf => hq f (hmem f hf),
          FileTree.fileAt_set_file, if_neg]
        rintro rfl
        exact hq file List.mem_cons_self hpath

/-- A file that a path of the listing leads to gets the copy of its name. -/
theorem restoreFiles_spec {q : Path} {name : String} {saved : ByteArray}
    (h : restoreFiles cwd place t files = (t', restored, none))
    (houtside : ∀ file ∈ files, ∀ p, filePath cwd file = some p → ¬ place <+: p)
    (hname : q.getLast? = some name)
    (hcopy : t.get (place ++ [name]) = some .dir ∨ t.fileAt (place ++ [name]) = some saved)
    (hq : ∃ file ∈ files, filePath cwd file = some q) : t'.fileAt q = some saved := by
  induction files generalizing t restored with
  | nil =>
      rcases hq with ⟨file, hfile, -⟩
      cases hfile
  | cons file rest ih =>
      have hmem : ∀ f ∈ rest, f ∈ file :: rest := fun f hf => List.mem_cons_of_mem file hf
      have hself := houtside file List.mem_cons_self
      have hthere : t.get (place ++ [name]) ≠ none := by
        rcases hcopy with hdir | hfile
        · rw [hdir]
          simp
        · rw [(FileTree.fileAt_eq_some_iff _ _ _).mp hfile]
          simp
      rcases restoreFiles_cons h hself with
        ⟨hnone, hrest⟩ | ⟨p, other, content, restored', hpath, hother, hcontent, hrest⟩
      · -- The first file has no copy, so it is not the one that is asked for.
        refine ih hrest (fun f hf => houtside f (hmem f hf)) hcopy ?_
        rcases hq with ⟨f, hf, hpath⟩
        rcases List.mem_cons.mp hf with rfl | hf
        · rcases fileName_of_filePath hpath with ⟨last, hlast, hends⟩
          rw [hname] at hends
          exact absurd (hnone name (by rw [hlast, ← hends])) hthere
        · exact ⟨f, hf, hpath⟩
      · have hp : place ++ [name] ≠ p := by
          rintro rfl
          exact hself _ hpath (List.prefix_append _ _)
        by_cases hlater : ∃ f ∈ rest, filePath cwd f = some q
        · refine ih hrest (fun f hf => houtside f (hmem f hf)) ?_ hlater
          rw [FileTree.get_set, if_neg hp, FileTree.fileAt_set_file, if_neg hp]
          exact hcopy
        · -- This path is the last that leads to the file.
          rw [restoreFiles_frame hrest (fun f hf => houtside f (hmem f hf))
            fun f hf hpath => hlater ⟨f, hf, hpath⟩]
          rcases hq with ⟨f, hf, hfq⟩
          rcases List.mem_cons.mp hf with rfl | hf
          · rw [hpath, Option.some.injEq] at hfq
            rw [FileTree.fileAt_set_file, if_pos hfq.symm]
            rcases fileName_of_filePath hpath with ⟨last, hlast, hends⟩
            rw [hfq, hname, Option.some.injEq] at hends
            rw [hother, ← hends, Option.some.injEq] at hlast
            rw [hlast] at hcontent
            rcases hcopy with hdir | hfile
            · rw [FileTree.fileAt, hdir] at hcontent
              cases hcontent
            · rw [← hcontent, hfile]
          · exact absurd ⟨f, hf, hfq⟩ hlater

end

section

variable (order : Iteration String String) (cwd : Path) (parameters : HashMap String String)

/-- No path of a diff leads into the backup, as it is or filled in. -/
structure Outside (place : Path) (diffs : List CcConfigDiff) : Prop where
  listed : ∀ diff ∈ diffs, ∀ p, filePath cwd diff.file = some p → ¬ place <+: p
  targets : ∀ diff ∈ diffs, ∀ p, target order cwd parameters diff = some p → ¬ place <+: p

/-- One of the diffs was applied to a file. -/
def Written (applied : List CcConfigDiff) (q : Path) : Prop :=
  ∃ diff ∈ applied, target order cwd parameters diff = some q

/-- A diff has the file without its placeholders filled in, and the copy of this name is its
    own; or else the edits have left it as it was. -/
def Kept (t : Tree) (diffs applied : List CcConfigDiff) (listing : String) (q : Path)
    (content : ByteArray) : Prop :=
  ((∃ diff ∈ diffs, filePath cwd diff.file = some q) →
    q.getLast?.bind (copyOf cwd t diffs listing) = some content) ∧
  ((∀ diff ∈ diffs, filePath cwd diff.file ≠ some q) →
    editsOf order cwd parameters q applied content = content)

variable {order cwd parameters} {printInfo : BackupInfo → String}
  {parseInfo : String → Option BackupInfo} {writers : WritersConfig}
  {simConfigs : HashMap String CcWriterConfig} {timestamp : Nat} {sim version : String}
  {config : CcWriterConfig} {t t₁ t₂ : Tree} {result undone : WriteResult} {backupPath : String}

theorem resolve_eq_ok (hconfig : simConfigs.lookup (sim ++ "_" ++ version) = some config)
    (h : resolveCurveConflict order printInfo cwd writers simConfigs timestamp t sim version
      parameters = (t₁, .ok result)) :
    ∃ t₀ path failure, createBackup printInfo cwd writers timestamp t config = (t₀, .ok path) ∧
      applyDiffs order cwd parameters t₀ config.diffs = (t₁, result.appliedDiffs, failure) ∧
      result.backupPath = some path := by
  rw [resolveCurveConflict, hconfig] at h
  rcases hbackup : createBackup printInfo cwd writers timestamp t config with ⟨t₀, outcome⟩
  simp only [hbackup] at h
  cases outcome with
  | error error => cases h
  | ok path =>
      rcases happly : applyDiffs order cwd parameters t₀ config.diffs with ⟨t', files, failure⟩
      simp only [happly, Prod.mk.injEq, Except.ok.injEq] at h
      rcases h with ⟨rfl, rfl⟩
      exact ⟨t₀, path, failure, rfl, happly, rfl⟩

theorem rollback_eq_ok (h : rollback parseInfo cwd t₁ backupPath = (t₂, .ok undone))
    (hsuccess : undone.success = true) :
    ∃ bytes content info,
      t₁.fileAt (placeAt cwd backupPath ++ ["backup_info.json"]) = some bytes ∧
      String.fromUTF8? bytes = some content ∧ parseInfo content = some info ∧
      restoreFiles cwd (placeAt cwd backupPath) t₁ info.affectedFiles
        = (t₂, undone.appliedDiffs, none) := by
  unfold rollback at h
  simp only at h
  split_ifs at h
  · cases h
  cases hread : readToString t₁ (placeAt cwd backupPath ++ ["backup_info.json"]) with
  | none =>
      rw [hread] at h
      cases h
  | some content =>
      simp only [hread] at h
      cases hparse : parseInfo content with
      | none =>
          rw [hparse] at h
          cases h
      | some info =>
          rcases hrestore : restoreFiles cwd (placeAt cwd backupPath) t₁ info.affectedFiles with
            ⟨t', files, failure⟩
          simp only [hparse, hrestore, Prod.mk.injEq, Except.ok.injEq] at h
          rcases h with ⟨rfl, rfl⟩
          have hnone : failure = none := of_decide_eq_true hsuccess
          cases hbytes : t₁.readFile (placeAt cwd backupPath ++ ["backup_info.json"]) with
          | error e => simp [readToString, hbytes] at hread
          | ok bytes =>
              simp only [readToString, hbytes] at hread
              exact ⟨bytes, content, info, (FileTree.readFile_eq_ok_iff _ _ _).mp hbytes, hread,
                hparse, by rw [hrestore, hnone]⟩

/-- After a resolution and its rollback, a file that was there before has its copy, if a diff
    has its path as it is, or else what the diffs have made of it. -/
theorem undone_fileAt (hconfig : simConfigs.lookup (sim ++ "_" ++ version) = some config)
    (houtside : Outside order cwd parameters
      (placeAt cwd (backupPathOf writers config timestamp)) config.diffs)
    (hround : parseInfo (printInfo (backupInfoOf writers config timestamp))
      = some (backupInfoOf writers config timestamp))
    (hresolve : resolveCurveConflict order printInfo cwd writers simConfigs timestamp t sim
      version parameters = (t₁, .ok result))
    (hbackup : result.backupPath = some backupPath)
    (hrollback : rollback parseInfo cwd t₁ backupPath = (t₂, .ok undone))
    (hsuccess : undone.success = true) {q : Path} {content : ByteArray}
    (hfile : t.fileAt q = some content)
    (hq : ¬ placeAt cwd (backupPathOf writers config timestamp) <+: q) :
    ((∃ diff ∈ config.diffs, filePath cwd diff.file = some q) →
      t₂.fileAt q = q.getLast?.bind (copyOf cwd t config.diffs
        (printInfo (backupInfoOf writers config timestamp)))) ∧
    ((∀ diff ∈ config.diffs, filePath cwd diff.file ≠ some q) →
      t₂.fileAt q = some (editsOf order cwd parameters q
        (config.diffs.take result.appliedDiffs.length) content)) := by
  rcases resolve_eq_ok hconfig hresolve with ⟨t₀, path, failure, hmade, happly, hpath⟩
  rw [hbackup, Option.some.injEq] at hpath
  subst hpath
  rcases createBackup_spec houtside.listed hmade with ⟨rfl, hsame, hcopies⟩
  generalize hplace : placeAt cwd (backupPathOf writers config timestamp) = place
    at houtside hq hsame hcopies
  have hcopies₁ : ∀ name saved, copyOf cwd t config.diffs
      (printInfo (backupInfoOf writers config timestamp)) name = some saved →
      t₁.get (place ++ [name]) = some .dir ∨ t₁.fileAt (place ++ [name]) = some saved := by
    intro name saved hname
    have hframe := applyDiffs_frame happly (q := place ++ [name]) fun d hd htarget =>
      houtside.targets d hd _ htarget (List.prefix_append _ _)
    rw [hframe, (FileTree.look_congr _ _ _ hframe).2.2.2]
    exact hcopies name saved hname
  -- The listing is the one that was written.
  rcases rollback_eq_ok hrollback hsuccess with
    ⟨bytes, text, info, hbytes, htext, hparse, hrestore⟩
  rw [hplace] at hbytes hrestore
  have hinfo : info = backupInfoOf writers config timestamp := by
    rcases hcopies₁ "backup_info.json" _ (if_pos rfl) with hdir | hlisting
    · rw [FileTree.fileAt, hdir] at hbytes
      cases hbytes
    · rw [hbytes, Option.some.injEq] at hlisting
      rw [hlisting, fromUTF8?_toUTF8, Option.some.injEq] at htext
      rw [← htext, hround] at hparse
      exact (Option.some.inj hparse).symm
  rw [hinfo] at hrestore
  have hlisted : ∀ file ∈ (backupInfoOf writers config timestamp).affectedFiles,
      ∀ p, filePath cwd file = some p → ¬ place <+: p :=
    List.forall_mem_map.mpr houtside.listed
  constructor
  · rintro ⟨diff, hdiff, hdiffq⟩
    rcases fileName_of_filePath hdiffq with ⟨name, hname, hends⟩
    have hsaved : (copyOf cwd t config.diffs
        (printInfo (backupInfoOf writers config timestamp)) name).isSome := by
      rw [copyOf]
      split_ifs
      · rfl
      · refine savedAs_isSome hdiff hname ?_
        rw [contentOf, hdiffq, Option.bind_some, hfile]
        rfl
    rcases Option.isSome_iff_exists.mp hsaved with ⟨saved, hsaved⟩
    rw [hends, Option.bind_some, hsaved]
    exact restoreFiles_spec hrestore hlisted hends (hcopies₁ name saved hsaved)
      ⟨diff.file, List.mem_map_of_mem hdiff, hdiffq⟩
  · intro hunlisted
    rw [restoreFiles_frame hrestore hlisted (List.forall_mem_map.mpr hunlisted)]
    exact applyDiffs_spec happly (by rw [hsame q hq, hfile])

/-- A rollback that meets no error brings back all files that a resolution has written, if and
    only if each of them is kept. -/
theorem resolution_undone_iff (hconfig : simConfigs.lookup (sim ++ "_" ++ version) = some config)
    (houtside : Outside order cwd parameters
      (placeAt cwd (backupPathOf writers config timestamp)) config.diffs)
    (hround : parseInfo (printInfo (backupInfoOf writers config timestamp))
      = some (backupInfoOf writers config timestamp))
    (hresolve : resolveCurveConflict order printInfo cwd writers simConfigs timestamp t sim
      version parameters = (t₁, .ok result))
    (hbackup : result.backupPath = some backupPath)
    (hrollback : rollback parseInfo cwd t₁ backupPath = (t₂, .ok undone))
    (hsuccess : undone.success = true) :
    (∀ q content, t.fileAt q = some content →
      Written order cwd parameters (config.diffs.take result.appliedDiffs.length) q →
      t₂.fileAt q = some content) ↔
    ∀ q content, t.fileAt q = some content →
      Written order cwd parameters (config.diffs.take result.appliedDiffs.length) q →
      Kept order cwd parameters t config.diffs (config.diffs.take result.appliedDiffs.length)
        (printInfo (backupInfoOf writers config timestamp)) q content := by
  refine forall₂_congr fun q content => forall₂_congr fun hfile hwritten => ?_
  rcases hwritten with ⟨diff, hdiff, htarget⟩
  have hq := houtside.targets diff (List.mem_of_mem_take hdiff) q htarget
  rcases undone_fileAt hconfig houtside hround hresolve hbackup hrollback hsuccess hfile hq with
    ⟨hlisted, hunlisted⟩
  by_cases hnamed : ∃ diff ∈ config.diffs, filePath cwd diff.file = some q
  · rw [hlisted hnamed]
    refine ⟨fun h => ⟨fun _ => h, fun hnone => ?_⟩, fun h => h.1 hnamed⟩
    rcases hnamed with ⟨d, hd, hdq⟩
    exact absurd hdq (hnone d hd)
  · have hnone : ∀ diff ∈ config.diffs, filePath cwd diff.file ≠ some q := fun d hd hdq =>
      hnamed ⟨d, hd, hdq⟩
    rw [hunlisted hnone, Option.some.injEq]
    exact ⟨fun h => ⟨fun h' => absurd h' hnamed, fun _ => h⟩, fun h => h.2 hnone⟩

end

section

/-- One file of a simulator. -/
def gameTree : Tree :=
  FileTree.set (FileTree.set (FileTree.set ∅ [] .dir) ["cfg"] .dir) ["cfg", "game.ini"]
    (.file "a=1".toUTF8)

def gameWriters : WritersConfig where
  backupDir := "backups"
  enableVerification := true

/-- A file gets a new text. -/
def gameConfig (file : String) : CcWriterConfig where
  sim := "msfs"
  version := "1"
  description := ""
  diffs :=
    [{ file := file
       sectionName := none
       changes := Finmap.singleton "a" "a=2"
       operation := .replace }]
  verificationTests := []

def gameConfigs (file : String) : HashMap String CcWriterConfig :=
  Finmap.singleton "msfs_1" (gameConfig file)

def gameParameters : HashMap String String :=
  Finmap.singleton "dir" "cfg"

/-- The listing of the backup. -/
def gameListing (file : String) : String :=
  "\x7b\n  \"timestamp\": 0,\n  \"description\": \"\",\n  \"affected_files\": [\n    \"" ++
    file ++ "\"\n  ],\n  \"backup_dir\": \"backups/backup_msfs_0\",\n" ++
    "  \"writer_config\": \"msfs_1\"\n\x7d"

/-- A reader of listings that knows one of them. -/
def readGame (file content : String) : Option BackupInfo :=
  if content = gameListing file then some (backupInfoOf gameWriters (gameConfig file) 0) else none

theorem readGame_listing (file : String) :
    readGame file (gameListing file) = some (backupInfoOf gameWriters (gameConfig file) 0) :=
  if_pos rfl

def gameResult (file : String) : WriteResult where
  success := true
  appliedDiffs := [file]
  backupPath := some "backups/backup_msfs_0"
  verificationResults := []
  errorMessage := none

/-- The tree with its backup. -/
def gameBacked (file : String) : Tree :=
  (createBackup (fun _ => gameListing file) [] gameWriters 0 gameTree (gameConfig file)).1

/-- The tree after the resolution. -/
def gameResolved (file : String) : Tree :=
  (gameBacked file).set ["cfg", "game.ini"] (.file "a=2".toUTF8)

/-- The file with the new text, by its path or by a placeholder. -/
def gameFile (placeholder : Bool) : String :=
  if placeholder then "\x7bdir\x7d/game.ini" else "cfg/game.ini"

variable (order : Iteration String String) (placeholder : Bool)

theorem expand_gameFile :
    expandParameters order (gameFile placeholder) gameParameters = "cfg/game.ini" := by
  rw [expandParameters, gameParameters, Iteration.entries_singleton]
  cases placeholder <;> decide

theorem resolve_game :
    resolveCurveConflict order (fun _ => gameListing (gameFile placeholder)) [] gameWriters
        (gameConfigs (gameFile placeholder)) 0 gameTree "msfs" "1" gameParameters
      = (gameResolved (gameFile placeholder), .ok (gameResult (gameFile placeholder))) := by
  have hbackup : createBackup (fun _ => gameListing (gameFile placeholder)) [] gameWriters 0
      gameTree (gameConfig (gameFile placeholder))
      = (gameBacked (gameFile placeholder), .ok "backups/backup_msfs_0") := by
    cases placeholder <;> exact Prod.ext rfl rfl
  have htext : expandParameters order "a=2" gameParameters = "a=2" := by
    rw [expandParameters, gameParameters, Iteration.entries_singleton]
    decide
  have hwrite : (gameBacked (gameFile placeholder)).writeFile ["cfg", "game.ini"] "a=2".toUTF8
      = .ok (gameResolved (gameFile placeholder)) := by
    cases placeholder <;> rfl
  have hpath : filePath [] "cfg/game.ini" = some ["cfg", "game.ini"] := by decide
  have happly : applyDiffs order [] gameParameters (gameBacked (gameFile placeholder))
      (gameConfig (gameFile placeholder)).diffs
      = (gameResolved (gameFile placeholder), [gameFile placeholder], none) := by
    have hedit : editText order gameParameters
        { file := gameFile placeholder
          sectionName := none
          changes := Finmap.singleton "a" "a=2"
          operation := .replace } "" = "a=2" := by
      simp only [editText, Iteration.entries_singleton, List.map_cons, List.map_nil, htext]
      decide
    simp only [gameConfig, applyDiffs, applyDiff, overwriteFile, writeText, expand_gameFile,
      hedit, hpath, hwrite]
  have hconfig : (gameConfigs (gameFile placeholder)).lookup ("msfs" ++ "_" ++ "1")
      = some (gameConfig (gameFile placeholder)) := rfl
  simp only [resolveCurveConflict, hconfig, hbackup, happly]
  rfl

theorem outside_game : Outside order [] gameParameters
      (placeAt [] (backupPathOf gameWriters (gameConfig (gameFile placeholder)) 0))
      (gameConfig (gameFile placeholder)).diffs := by
  have hplace : placeAt [] (backupPathOf gameWriters (gameConfig (gameFile placeholder)) 0)
      = ["backups", "backup_msfs_0"] := by
    cases placeholder <;> decide
  rw [hplace]
  refine ⟨?_, ?_⟩
  · simp only [gameConfig, List.forall_mem_cons, List.not_mem_nil, false_implies, implies_true,
      and_true]
    intro p hp
    cases placeholder with
    | false =>
        have hpath : filePath [] (gameFile false) = some ["cfg", "game.ini"] := by decide
        rw [← Option.some.inj (hpath.symm.trans hp)]
        decide
    | true =>
        have hpath : filePath [] (gameFile true) = some ["\x7bdir\x7d", "game.ini"] := by decide
        rw [← Option.some.inj (hpath.symm.trans hp)]
        decide
  · simp only [gameConfig, List.forall_mem_cons, List.not_mem_nil, false_implies, implies_true,
      and_true, target, expand_gameFile]
    intro p hp
    have hpath : filePath [] "cfg/game.ini" = some ["cfg", "game.ini"] := by decide
    rw [← Option.some.inj (hpath.symm.trans hp)]
    decide

theorem written_game : Written order [] gameParameters (gameConfig (gameFile placeholder)).diffs
      ["cfg", "game.ini"] := by
  refine ⟨_, List.mem_cons_self, ?_⟩
  rw [target, expand_gameFile]
  decide

/-- What the rollback does: it finds a copy, or none. -/
theorem rollback_game :
    rollback (readGame (gameFile placeholder)) [] (gameResolved (gameFile placeholder))
        "backups/backup_msfs_0"
      = (if placeholder then gameResolved (gameFile placeholder)
          else FileTree.set (gameResolved (gameFile placeholder)) ["cfg", "game.ini"]
            (.file "a=1".toUTF8),
        .ok
          { success := true
            appliedDiffs := if placeholder then [] else ["cfg/game.ini"]
            backupPath := some "backups/backup_msfs_0"
            verificationResults := []
            errorMessage := none }) := by
  have hplace : placeAt [] "backups/backup_msfs_0" = ["backups", "backup_msfs_0"] := by decide
  have hfile : FileTree.fileAt (gameResolved (gameFile placeholder))
      (["backups", "backup_msfs_0"] ++ ["backup_info.json"])
      = some (gameListing (gameFile placeholder)).toUTF8 := by
    cases placeholder <;> rfl
  have hthere : FileTree.pathExists (gameResolved (gameFile placeholder))
      (["backups", "backup_msfs_0"] ++ ["backup_info.json"]) = true := by
    cases placeholder <;> rfl
  have hread := readToString_of_fileAt hfile
  rw [rollback, hplace]
  simp only [hthere, hread, readGame_listing, Bool.true_eq_false, if_false]
  cases placeholder <;> exact Prod.ext rfl rfl

/-- A file that is named by its path is brought back. -/
theorem path_undone : (rollback (readGame (gameFile false)) [] (gameResolved (gameFile false))
      "backups/backup_msfs_0").1.fileAt ["cfg", "game.ini"] = some "a=1".toUTF8 := by
  have hconfig : (gameConfigs (gameFile false)).lookup ("msfs" ++ "_" ++ "1")
      = some (gameConfig (gameFile false)) := rfl
  have hiff := resolution_undone_iff hconfig (outside_game default false) (readGame_listing _)
    (resolve_game default false) rfl (rollback_game false) rfl
  rw [rollback_game false]
  refine hiff.mpr ?_ ["cfg", "game.ini"] "a=1".toUTF8 rfl (written_game default false)
  intro q content hfile hwritten
  rcases hwritten with ⟨diff, hdiff, htarget⟩
  rw [List.mem_singleton.mp hdiff, target, expand_gameFile] at htarget
  have hpath : filePath [] "cfg/game.ini" = some ["cfg", "game.ini"] := by decide
  rw [hpath, Option.some.injEq] at htarget
  rw [← htarget] at hfile ⊢
  have hcontent : content = "a=1".toUTF8 := Option.some.inj (hfile.symm.trans rfl)
  rw [hcontent]
  refine ⟨fun _ => rfl, fun hnone => ?_⟩
  exact absurd hpath (hnone _ List.mem_cons_self)

/-- A file that is named with a placeholder is not: the resolution succeeds and writes it, the
    rollback succeeds too, and the file is as the resolution has left it. -/
theorem placeholder_not_undone : FileTree.fileAt gameTree ["cfg", "game.ini"] = some "a=1".toUTF8 ∧
    FileTree.fileAt (gameResolved (gameFile true)) ["cfg", "game.ini"] = some "a=2".toUTF8 ∧
    "a=2".toUTF8 ≠ "a=1".toUTF8 ∧
    ∀ order,
      resolveCurveConflict order (fun _ => gameListing (gameFile true)) [] gameWriters
          (gameConfigs (gameFile true)) 0 gameTree "msfs" "1" gameParameters
        = (gameResolved (gameFile true), .ok (gameResult (gameFile true))) ∧
      Written order [] gameParameters (gameConfig (gameFile true)).diffs ["cfg", "game.ini"] ∧
      ∃ undone, rollback (readGame (gameFile true)) [] (gameResolved (gameFile true))
          "backups/backup_msfs_0" = (gameResolved (gameFile true), .ok undone) ∧
        undone.success = true :=
  ⟨rfl, rfl, by decide, fun order => ⟨resolve_game order true, written_game order true,
    _, rollback_game true, rfl⟩⟩

end

end OpenFlight.Writers.CurveConflict
