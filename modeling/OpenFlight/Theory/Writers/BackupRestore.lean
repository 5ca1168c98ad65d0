import OpenFlight.Core.Writers.Rollback
import OpenFlight.Lib.DirTree

/-!
# A Backup and Its Rollback

Whether a rollback brings back the files that a backup was made of, whatever has become
of them since.

A backup has one place for each last name of a file, so two files of the same name
share a place, and the second takes it. Nothing notices this afterwards: the checksum
that would is compared, and the result of the comparison is only logged. A rollback
brings everything back exactly if files of one name have one content and no file of
the list is itself part of the backup.

## Main definitions

* `PlacesApart`: The places of a backup are apart.
* `ChangedAt`, `RestoresAll`: The files change, and a rollback brings them back.

## Theorems

* `backup_restores_iff`: When a rollback brings everything back.
* `backup_mixes_names`: Two files of one name.
-/

namespace OpenFlight.Writers

section

variable (backupPath cwd : Path)

/-- Where the copy of a file goes. -/
def placeOf (file : PathBuf) : Path :=
  backupPath ++ ["files"] ++ file.fileName.toList

/-- What a backup says of a file. -/
def infoOf (file : PathBuf) : BackupFileInfo where
  originalPath := file.join cwd
  backupPath := placeOf backupPath file

/-- Some files are written, and all directories stay. -/
structure Extended (t t' : Tree) (written : List Path) : Prop where
  dirs : ∀ q, t.get q = some .dir → t'.get q = some .dir
  files : ∀ q, q ∉ written → t'.fileAt q = t.fileAt q
  some : ∀ q, (t.fileAt q).isSome → (t'.fileAt q).isSome
  wellFormed : t.WellFormed → t'.WellFormed

variable {backupPath cwd} {t t' t'' : Tree}

theorem Extended.trans {written written' : List Path} (h : Extended t t' written)
    (h' : Extended t' t'' written') : Extended t t'' (written ++ written') where
  dirs := fun q hq => h'.dirs q (h.dirs q hq)
  files := fun q hq => by
    rw [List.mem_append, not_or] at hq
    rw [h'.files q hq.2, h.files q hq.1]
  some := fun q hq => h'.some q (h.some q hq)
  wellFormed := fun ht => h'.wellFormed (h.wellFormed ht)

theorem extended_createDirAll {p : Path} (h : t.createDirAll p = .ok t') : Extended t t' [] where
  dirs := fun q hq => by
    rw [FileTree.get_makeDirs t t' _ h]
    split_ifs
    · rfl
    · exact hq
  files := fun q _ => FileTree.fileAt_makeDirs t t' _ h q
  some := fun q hq => by rwa [FileTree.fileAt_makeDirs t t' _ h q]
  wellFormed := fun ht => FileTree.WellFormed.createDirAll t t' p ht h

theorem extended_writeFile {p : Path} {content : ByteArray}
    (h : t.writeFile p content = .ok t') : Extended t t' [p] where
  dirs := fun q hq => by
    rcases FileTree.eq_set_of_writeFile t t' p content h with ⟨rfl, hnot⟩
    rw [FileTree.get_set, if_neg]
    · exact hq
    · rintro rfl
      exact hnot hq
  files := fun q hq => by
    rw [FileTree.fileAt_writeFile t t' p content h, if_neg (by simpa using hq)]
  some := fun q hq => by
    rw [FileTree.fileAt_writeFile t t' p content h]
    split_ifs
    · rfl
    · exact hq
  wellFormed := fun ht => FileTree.WellFormed.writeFile t t' p content ht h

/-- A file that was backed up has a name, and its content is in the place of the name. -/
theorem backupSingleFile_spec {file : PathBuf} {info : BackupFileInfo}
    (h : backupSingleFile cwd t file backupPath = (t', .ok info)) :
    file.fileName.isSome ∧ info = infoOf backupPath cwd file ∧
      Extended t t' [placeOf backupPath file] ∧
      t'.fileAt (placeOf backupPath file) = t.fileAt (file.join cwd) := by
  unfold backupSingleFile at h
  cases hname : file.fileName with
  | none => simp [hname] at h
  | some name =>
      have hplace : placeOf backupPath file = backupPath ++ ["files"] ++ [name] := by
        rw [placeOf, hname]
        rfl
      simp only [hname] at h
      cases hsub : t.createDirAll (file.parent.join (backupPath ++ ["files"])) with
      | error e => simp [hsub] at h
      | ok t₁ =>
          simp only [hsub] at h
          cases hdir : t₁.createDirAll (backupPath ++ ["files"]) with
          | error e => simp [hdir] at h
          | ok t₂ =>
              simp only [hdir] at h
              cases hread : t₂.readFile (file.join cwd) with
              | error e => simp [hread] at h
              | ok content =>
                  simp only [hread] at h
                  cases hwrite : t₂.writeFile (backupPath ++ ["files"] ++ [name]) content with
                  | error e =>
                      simp only [hwrite] at h
                      cases h
                  | ok t₃ =>
                      simp only [hwrite] at h
                      -- The checksum is of the file, so it is read a second time.
                      cases hcheck : t₃.readFile (file.join cwd) with
                      | error e => simp [hcheck] at h
                      | ok again =>
                          simp only [hcheck, Prod.mk.injEq, Except.ok.injEq] at h
                          rcases h with ⟨rfl, rfl⟩
                          have hextended := ((extended_createDirAll hsub).trans
                            (extended_createDirAll hdir)).trans (extended_writeFile hwrite)
                          refine ⟨rfl, ?_, ?_, ?_⟩
                          · rw [infoOf, hplace]
                          · rw [hplace]
                            exact hextended
                          · rw [hplace, FileTree.fileAt_writeFile _ _ _ _ hwrite, if_pos rfl,
                              ← (FileTree.readFile_eq_ok_iff _ _ _).mp hread,
                              FileTree.fileAt_makeDirs _ _ _ hdir,
                              FileTree.fileAt_makeDirs _ _ _ hsub]

theorem placeOf_eq_iff {f g : PathBuf} (hf : f.fileName.isSome) (hg : g.fileName.isSome) :
    placeOf backupPath f = placeOf backupPath g ↔ f.fileName = g.fileName := by
  rcases Option.isSome_iff_exists.mp hf with ⟨name, hname⟩
  rcases Option.isSome_iff_exists.mp hg with ⟨other, hother⟩
  rw [placeOf, placeOf, hname, hother]
  simp

variable {infos : List BackupFileInfo}

/-- The first file of a list is backed up, then the others. -/
theorem backupFiles_cons {file : PathBuf} {rest : List PathBuf}
    (hfile : (t.fileAt (file.join cwd)).isSome)
    (h : backupFiles cwd backupPath t (file :: rest) = (t', .ok infos)) :
    ∃ t₁ info infos', backupSingleFile cwd t file backupPath = (t₁, .ok info) ∧
      backupFiles cwd backupPath t₁ rest = (t', .ok infos') ∧ infos = info :: infos' := by
  rw [backupFiles, if_pos (FileTree.pathExists_of_fileAt _ _ hfile)] at h
  rcases hfirst : backupSingleFile cwd t file backupPath with ⟨t₁, result⟩
  rw [hfirst] at h
  cases result with
  | error e => cases h
  | ok info =>
      rcases hrest : backupFiles cwd backupPath t₁ rest with ⟨t₂, result⟩
      simp only [hrest] at h
      cases result with
      | error e => cases h
      | ok infos' =>
          simp only [Prod.mk.injEq, Except.ok.injEq] at h
          rcases h with ⟨rfl, rfl⟩
          exact ⟨t₁, info, infos', rfl, hrest, rfl⟩

section

variable {files : List PathBuf} (hfiles : ∀ f ∈ files, (t.fileAt (f.join cwd)).isSome)

include files hfiles

/-- All that the backup of a list of files does, if they all exist. -/
theorem backupFiles_spec (h : backupFiles cwd backupPath t files = (t', .ok infos)) :
    (∀ f ∈ files, f.fileName.isSome) ∧ infos = files.map (infoOf backupPath cwd) ∧
      Extended t t' (files.map (placeOf backupPath)) ∧
      ∀ f ∈ files, (t'.fileAt (placeOf backupPath f)).isSome := by
  induction files generalizing t infos with
  | nil =>
      simp only [backupFiles, Prod.mk.injEq, Except.ok.injEq] at h
      rcases h with ⟨rfl, rfl⟩
      exact ⟨by simp, rfl, ⟨fun _ hq => hq, fun _ _ => rfl, fun _ hq => hq, fun ht => ht⟩, by simp⟩
  | cons file rest ih =>
      rcases backupFiles_cons (hfiles file List.mem_cons_self) h with
        ⟨t₁, info, infos, hfirst, hrest, rfl⟩
      rcases backupSingleFile_spec hfirst with ⟨hname, rfl, hextended, hcopy⟩
      rcases ih (fun f hf => hextended.some _ (hfiles f (List.mem_cons_of_mem file hf)))
        hrest with ⟨hnames, rfl, hmore, hcopies⟩
      refine ⟨List.forall_mem_cons.mpr ⟨hname, hnames⟩, rfl, hextended.trans hmore, ?_⟩
      refine List.forall_mem_cons.mpr ⟨hmore.some _ ?_, hcopies⟩
      rw [hcopy]
      exact hfiles file List.mem_cons_self

/-- What the places hold, if they are the places of one content each. -/
theorem backupFiles_contents (hplaces : ∀ f ∈ files, ∀ g ∈ files, f.join cwd ≠ placeOf backupPath g)
    (hcontents : ∀ f ∈ files, ∀ g ∈ files, f.fileName = g.fileName →
      t.fileAt (f.join cwd) = t.fileAt (g.join cwd))
    (h : backupFiles cwd backupPath t files = (t', .ok infos)) :
    ∀ f ∈ files, t'.fileAt (placeOf backupPath f) = t.fileAt (f.join cwd) := by
  induction files generalizing t infos with
  | nil => simp
  | cons file rest ih =>
      have hnames := (backupFiles_spec hfiles h).1
      rcases backupFiles_cons (hfiles file List.mem_cons_self) h with
        ⟨t₁, info, infos, hfirst, hrest, -⟩
      rcases backupSingleFile_spec hfirst with ⟨hname, -, hextended, hcopy⟩
      have hmem : ∀ f ∈ rest, f ∈ file :: rest := fun f hf => List.mem_cons_of_mem file hf
      have hsame : ∀ f ∈ rest, t₁.fileAt (f.join cwd) = t.fileAt (f.join cwd) := by
        intro f hf
        refine hextended.files _ fun hplace => ?_
        exact hplaces f (hmem f hf) file List.mem_cons_self (List.mem_singleton.mp hplace)
      have hexist₁ : ∀ f ∈ rest, (t₁.fileAt (f.join cwd)).isSome := fun f hf =>
        hextended.some _ (hfiles f (hmem f hf))
      have hlater : ∀ f ∈ rest,
          t'.fileAt (placeOf backupPath f) = t.fileAt (f.join cwd) := by
        intro f hf
        rw [← hsame f hf]
        refine ih hexist₁ (fun f hf g hg => hplaces f (hmem f hf) g (hmem g hg)) ?_ hrest
          f hf
        intro f hf g hg hfg
        rw [hsame f hf, hsame g hg]
        exact hcontents f (hmem f hf) g (hmem g hg) hfg
      rw [List.forall_mem_cons]
      refine ⟨?_, hlater⟩
      -- A later file of the same name takes the place, with the same content.
      by_cases hagain : placeOf backupPath file ∈ rest.map (placeOf backupPath)
      · rcases List.mem_map.mp hagain with ⟨g, hg, hplace⟩
        have hfg := (placeOf_eq_iff (hnames g (hmem g hg)) hname).mp hplace
        rw [← hplace, hlater g hg]
        exact hcontents g (hmem g hg) file List.mem_cons_self hfg
      · rw [(backupFiles_spec hexist₁ hrest).2.2.1.files _ hagain]
        exact hcopy

end

end

section

variable {t t' : Tree} {infos : List BackupFileInfo}

/-- Nothing is in the way of restoring a file. -/
structure Restorable (t : Tree) (info : BackupFileInfo) : Prop where
  dirs : ∀ q, q <+: info.originalPath.dropLast → t.get q = some .dir
  named : info.originalPath ≠ []
  file : t.get info.originalPath ≠ some .dir
  copy : t.get info.backupPath ≠ some .dir

/-- Restoring a file does not come in the way of another. -/
theorem Restorable.set {info : BackupFileInfo} {p : Path} {content : ByteArray}
    (h : Restorable t info) (hp : t.get p ≠ some .dir) :
    Restorable (t.set p (.file content)) info where
  dirs := fun q hq => by
    rw [FileTree.get_set, if_neg]
    · exact h.dirs q hq
    · rintro rfl
      exact hp (h.dirs q hq)
  named := h.named
  file := by
    rw [FileTree.get_set]
    split_ifs
    · simp
    · exact h.file
  copy := by
    rw [FileTree.get_set]
    split_ifs
    · simp
    · exact h.copy

/-- A file with nothing in its way is restored, or its copy is gone. -/
theorem restoreSingleFile_cases {info : BackupFileInfo} (h : Restorable t info) :
    (t.fileAt info.backupPath = none ∧
      restoreSingleFile t info = (t, .error (.backupFileNotFound info.backupPath))) ∨
    ∃ content, t.fileAt info.backupPath = some content ∧
      restoreSingleFile t info = (t.set info.originalPath (.file content), .ok ()) := by
  cases hcopy : t.get info.backupPath with
  | none =>
      left
      simp [restoreSingleFile, FileTree.pathExists, FileTree.fileAt, hcopy]
  | some node =>
      cases node with
      | dir => exact absurd hcopy h.copy
      | file content =>
          right
          have hfile := (FileTree.fileAt_eq_some_iff _ _ _).mpr hcopy
          have hexists : t.pathExists info.backupPath = true :=
            FileTree.pathExists_of_fileAt _ _ (by rw [hfile]; rfl)
          have hdirs : t.createDirAll info.originalPath.dropLast = .ok t :=
            FileTree.makeDirs_of_dirs _ _ fun q hq => h.dirs q ((List.mem_inits _ _).mp hq)
          have hwrite : t.writeFile info.originalPath content
              = .ok (t.set info.originalPath (.file content)) := by
            have hdir := (FileTree.isDir_iff t _).mpr (h.dirs _ (List.prefix_refl _))
            have hself : t.isDir info.originalPath = false := by
              rw [← Bool.not_eq_true, FileTree.isDir_iff]
              exact h.file
            simp [FileTree.writeFile, hdir, hself, h.named]
          have hread : (t.set info.originalPath (.file content)).readFile info.originalPath
              = .ok content := by
            rw [FileTree.readFile_eq_ok_iff, FileTree.fileAt_set_file, if_pos rfl]
          refine ⟨content, hfile, ?_⟩
          rw [restoreSingleFile, hexists, if_neg (by decide), hdirs]
          simp only [(FileTree.readFile_eq_ok_iff _ _ _).mpr hfile, hwrite, hread]

/-- If all copies are there, all files are restored, from the copies that were there at the
    start if no file is restored over a copy. -/
theorem restoreFiles_ok (hrestorable : ∀ i ∈ infos, Restorable t i)
    (hcopies : ∀ i ∈ infos, (t.fileAt i.backupPath).isSome)
    (hapart : ∀ i ∈ infos, ∀ j ∈ infos, i.originalPath ≠ j.backupPath)
    (hone : ∀ i ∈ infos, ∀ j ∈ infos, i.originalPath = j.originalPath →
      i.backupPath = j.backupPath) :
    ∃ t' restored, restoreFiles t infos = (t', restored, []) ∧
      ∀ i ∈ infos, t'.fileAt i.originalPath = t.fileAt i.backupPath := by
  -- For the induction: what no file is restored to is left alone.
  suffices h : ∃ t' restored, restoreFiles t infos = (t', restored, []) ∧
      (∀ i ∈ infos, t'.fileAt i.originalPath = t.fileAt i.backupPath) ∧
      ∀ q, (∀ i ∈ infos, i.originalPath ≠ q) → t'.fileAt q = t.fileAt q by
    rcases h with ⟨t', restored, hrun, hfiles, -⟩
    exact ⟨t', restored, hrun, hfiles⟩
  induction infos generalizing t with
  | nil => exact ⟨t, [], rfl, by simp, fun _ _ => rfl⟩
  | cons info rest ih =>
      have hmem : ∀ i ∈ rest, i ∈ info :: rest := fun i hi => List.mem_cons_of_mem info hi
      have hhead := List.mem_cons_self (a := info) (l := rest)
      rcases restoreSingleFile_cases (hrestorable info hhead) with
        ⟨hnone, -⟩ | ⟨content, hcontent, hsingle⟩
      · have hsome := hcopies info hhead
        rw [hnone] at hsome
        cases hsome
      · have hsame : ∀ i ∈ rest,
            (t.set info.originalPath (.file content)).fileAt i.backupPath
              = t.fileAt i.backupPath := by
          intro i hi
          rw [FileTree.fileAt_set_file, if_neg fun h => hapart info hhead i (hmem i hi) h.symm]
        have hrestorable' : ∀ i ∈ rest,
            Restorable (t.set info.originalPath (.file content)) i := fun i hi =>
          (hrestorable i (hmem i hi)).set (hrestorable info hhead).file
        rcases ih hrestorable' (fun i hi => by rw [hsame i hi]; exact hcopies i (hmem i hi))
          (fun i hi j hj => hapart i (hmem i hi) j (hmem j hj))
          (fun i hi j hj => hone i (hmem i hi) j (hmem j hj)) with
          ⟨t', restored, hrun, hfiles, hothers⟩
        refine ⟨t', info.originalPath :: restored, ?_, ?_, ?_⟩
        · rw [restoreFiles, hsingle]
          simp only [hrun]
        · rw [List.forall_mem_cons]
          refine ⟨?_, fun i hi => by rw [hfiles i hi, hsame i hi]⟩
          -- A later entry of the same path restores it again, from the same copy.
          by_cases hagain : ∃ j ∈ rest, j.originalPath = info.originalPath
          · rcases hagain with ⟨j, hj, hpath⟩
            rw [← hpath, hfiles j hj, hsame j hj, hone j (hmem j hj) info hhead hpath]
          · rw [hothers _ fun j hj hpath => hagain ⟨j, hj, hpath⟩, FileTree.fileAt_set_file,
              if_pos rfl, hcontent]
        · intro q hq
          rw [hothers q fun i hi => hq i (hmem i hi), FileTree.fileAt_set_file,
            if_neg fun h => hq info hhead h.symm]

/-- The only errors are those about copies that are gone. -/
theorem restoreFiles_errors (hrestorable : ∀ i ∈ infos, Restorable t i) :
    ∀ error ∈ (restoreFiles t infos).2.2,
      ∃ i ∈ infos, error = .failedToRestore i.originalPath (.backupFileNotFound i.backupPath) := by
  induction infos generalizing t with
  | nil => simp [restoreFiles]
  | cons info rest ih =>
      have hmem : ∀ i ∈ rest, i ∈ info :: rest := fun i hi => List.mem_cons_of_mem info hi
      have hhead := List.mem_cons_self (a := info) (l := rest)
      rcases restoreSingleFile_cases (hrestorable info hhead) with
        ⟨-, hsingle⟩ | ⟨content, -, hsingle⟩
      · rw [restoreFiles, hsingle]
        intro error herror
        rcases List.mem_cons.mp herror with rfl | herror
        · exact ⟨info, hhead, rfl⟩
        · rcases ih (fun i hi => hrestorable i (hmem i hi)) error herror with ⟨i, hi, h⟩
          exact ⟨i, hmem i hi, h⟩
      · rw [restoreFiles, hsingle]
        intro error herror
        rcases ih (fun i hi => (hrestorable i (hmem i hi)).set (hrestorable info hhead).file)
          error herror with ⟨i, hi, h⟩
        exact ⟨i, hmem i hi, h⟩

/-- A file that is its own copy does not come back. -/
theorem restoreFiles_missing {p : Path} (hrestorable : ∀ i ∈ infos, Restorable t i)
    (hgone : t.fileAt p = none) (hself : ∀ i ∈ infos, i.originalPath = p → i.backupPath = p)
    (hlisted : ∃ i ∈ infos, i.originalPath = p) : (restoreFiles t infos).2.2 ≠ [] := by
  induction infos generalizing t with
  | nil =>
      rcases hlisted with ⟨i, hi, -⟩
      cases hi
  | cons info rest ih =>
      have hmem : ∀ i ∈ rest, i ∈ info :: rest := fun i hi => List.mem_cons_of_mem info hi
      have hhead := List.mem_cons_self (a := info) (l := rest)
      rcases restoreSingleFile_cases (hrestorable info hhead) with
        ⟨-, hsingle⟩ | ⟨content, hcontent, hsingle⟩
      · rw [restoreFiles, hsingle]
        exact List.cons_ne_nil _ _
      · have hother : info.originalPath ≠ p := by
          intro hpath
          rw [hself info hhead hpath, hgone] at hcontent
          cases hcontent
        rcases hlisted with ⟨i, hi, hpath⟩
        rcases List.mem_cons.mp hi with rfl | hi
        · exact absurd hpath hother
        · rw [restoreFiles, hsingle]
          refine ih (fun i hi => (hrestorable i (hmem i hi)).set (hrestorable info hhead).file) ?_
            (fun i hi => hself i (hmem i hi)) ⟨i, hi, hpath⟩
          rw [FileTree.fileAt_set_file, if_neg (Ne.symm hother), hgone]

end

section

/-- Where the listing of a backup is. -/
def listingOf (backupPath : Path) : Path :=
  backupPath ++ ["metadata.json"]

/-- Files of one name have one content, and no file is part of the backup. -/
structure PlacesApart (backupPath cwd : Path) (t : Tree) (files : List PathBuf) : Prop where
  contents : ∀ f ∈ files, ∀ g ∈ files, f.fileName = g.fileName →
    t.fileAt (f.join cwd) = t.fileAt (g.join cwd)
  places : ∀ f ∈ files, ∀ g ∈ files, f.join cwd ≠ placeOf backupPath g
  listing : ∀ f ∈ files, f.join cwd ≠ listingOf backupPath

variable {printMetadata : BackupMetadata → String}
  {parseMetadata : String → Option BackupMetadata} {backupDir cwd : Path} {backupId : String}
  {t t₁ t₂ : Tree} {files : List PathBuf} {metadata : BackupMetadata}

/-- What is there after a backup was made. -/
structure Backed (printMetadata : BackupMetadata → String) (backupPath cwd : Path) (t t₁ : Tree)
    (files : List PathBuf) (metadata : BackupMetadata) : Prop where
  infos : metadata.files = files.map (infoOf backupPath cwd)
  named : ∀ f ∈ files, f.fileName.isSome
  there : t₁.get backupPath = some .dir
  listed : t₁.fileAt (listingOf backupPath) = some (printMetadata metadata).toUTF8
  wellFormed : t.WellFormed → t₁.WellFormed
  stays : ∀ f ∈ files, (t₁.fileAt (f.join cwd)).isSome
  copies : ∀ f ∈ files, (t₁.fileAt (placeOf backupPath f)).isSome
  copied : PlacesApart backupPath cwd t files → ∀ f ∈ files,
    t₁.fileAt (placeOf backupPath f) = t.fileAt (f.join cwd)
  same : PlacesApart backupPath cwd t files → ∀ f ∈ files,
    t₁.fileAt (f.join cwd) = t.fileAt (f.join cwd)

theorem createBackup_spec (hfiles : ∀ f ∈ files, (t.fileAt (f.join cwd)).isSome)
    (h : RollbackManager.createBackup printMetadata backupDir cwd backupId t files
      = (t₁, .ok metadata)) :
    Backed printMetadata (backupDir ++ [backupId]) cwd t t₁ files metadata := by
  unfold RollbackManager.createBackup at h
  cases hmade : t.createDirAll (backupDir ++ [backupId]) with
  | error e => simp [hmade] at h
  | ok t₀ =>
      have hextended := extended_createDirAll hmade
      have hthere : t₀.get (backupDir ++ [backupId]) = some .dir := by
        rw [FileTree.get_makeDirs _ _ _ hmade, if_pos]
        exact (List.mem_inits _ _).mpr (List.prefix_refl _)
      simp only [hmade] at h
      generalize hpath : backupDir ++ [backupId] = backupPath at h hthere ⊢
      rcases hall : backupFiles cwd backupPath t₀ files with ⟨t', result⟩
      rw [hall] at h
      cases result with
      | error e => cases h
      | ok infos =>
          simp only at h
          cases hwrite : t'.writeFile (backupPath ++ ["metadata.json"])
              (printMetadata { files := infos }).toUTF8 with
          | error e =>
              simp only [hwrite] at h
              cases h
          | ok t'' =>
              simp only [hwrite, Prod.mk.injEq, Except.ok.injEq] at h
              rcases h with ⟨rfl, rfl⟩
              have hwritten := extended_writeFile hwrite
              have hfiles₀ : ∀ f ∈ files, (t₀.fileAt (f.join cwd)).isSome := fun f hf =>
                hextended.some _ (hfiles f hf)
              rcases backupFiles_spec hfiles₀ hall with ⟨hnamed, hinfos, hmore, hcopies⟩
              have hplace : ∀ f ∈ files, placeOf backupPath f ∉ [backupPath ++ ["metadata.json"]] :=
                fun f hf heq => by
                  rcases Option.isSome_iff_exists.mp (hnamed f hf) with ⟨name, hname⟩
                  simp [placeOf, hname] at heq
              have hsame₀ : ∀ q, t₀.fileAt q = t.fileAt q := fun q => hextended.files q (by simp)
              refine ⟨hinfos, hnamed, hwritten.dirs _ (hmore.dirs _ hthere), ?_,
                fun ht => hwritten.wellFormed (hmore.wellFormed (hextended.wellFormed ht)),
                fun f hf => hwritten.some _ (hmore.some _ (hfiles₀ f hf)),
                fun f hf => hwritten.some _ (hcopies f hf), fun hapart f hf => ?_,
                fun hapart f hf => ?_⟩
              · rw [listingOf, FileTree.fileAt_writeFile _ _ _ _ hwrite, if_pos rfl]
              · rw [hwritten.files _ (hplace f hf), backupFiles_contents hfiles₀ hapart.places
                  (fun f hf g hg hfg => by rw [hsame₀, hsame₀, hapart.contents f hf g hg hfg])
                  hall f hf, hsame₀]
              · rw [hwritten.files, hmore.files, hsame₀]
                · intro hmem
                  rcases List.mem_map.mp hmem with ⟨g, hg, heq⟩
                  exact hapart.places f hf g hg heq.symm
                · rw [List.mem_singleton]
                  exact hapart.listing f hf

/-- Files of a list have changed or are gone, and nothing else is different. -/
structure ChangedAt (paths : List Path) (t t' : Tree) : Prop where
  others : ∀ q, q ∉ paths → t'.get q = t.get q
  files : ∀ q ∈ paths, t'.get q ≠ some .dir

/-- A rollback that could not read or write. -/
def IoFailed : Except String RollbackResult → Prop
  | .error message => message = "Failed to read backup metadata"
  | .ok result => ∃ file message, .failedToRestore file (.failed message) ∈ result.errors

/-- Whatever has become of the files since, a rollback that can read and write succeeds and
    brings them back. -/
def RestoresAll (parseMetadata : String → Option BackupMetadata) (backupDir cwd : Path)
    (backupId : String) (t t₁ : Tree) (files : List PathBuf) : Prop :=
  ∀ t₂ t₃ outcome, ChangedAt (files.map (PathBuf.join cwd)) t₁ t₂ →
    rollback parseMetadata backupDir backupId t₂ = (t₃, outcome) → ¬ IoFailed outcome →
    ∃ result, outcome = .ok result ∧ result.success = true ∧
      ∀ f ∈ files, t₃.fileAt (f.join cwd) = t.fileAt (f.join cwd)

theorem getLast?_join {f : PathBuf} (h : f.fileName.isSome) :
    (f.join cwd).getLast? = f.fileName := by
  cases f with
  | absolute components => rfl
  | relative components =>
      rcases Option.isSome_iff_exists.mp h with ⟨name, hname⟩
      rw [PathBuf.fileName] at hname ⊢
      rw [PathBuf.join, List.getLast?_append, hname]
      rfl

/-- A path has one place. -/
theorem placeOf_eq_of_join {backupPath : Path} {f g : PathBuf} (hf : f.fileName.isSome)
    (hg : g.fileName.isSome) (h : f.join cwd = g.join cwd) :
    placeOf backupPath f = placeOf backupPath g := by
  rw [placeOf_eq_iff hf hg, ← getLast?_join hf, h, getLast?_join hg]

/-- A file that is a place is its own place. -/
theorem placeOf_self {backupPath : Path} {f g : PathBuf} (hf : f.fileName.isSome)
    (hg : g.fileName.isSome) (h : f.join cwd = placeOf backupPath g) :
    placeOf backupPath f = f.join cwd := by
  rw [h, placeOf_eq_iff hf hg, ← getLast?_join hf, h, placeOf]
  rcases Option.isSome_iff_exists.mp hg with ⟨name, hname⟩
  simp [hname]

variable {backupPath : Path}

theorem Backed.not_dir (h : Backed printMetadata backupPath cwd t t₁ files metadata) :
    ∀ q ∈ files.map (PathBuf.join cwd), t₁.get q ≠ some .dir := by
  rw [List.forall_mem_map]
  intro f hf
  rcases (FileTree.fileAt_isSome_iff _ _).mp (h.stays f hf) with ⟨content, hget⟩
  rw [hget]
  simp

/-- Changing the files does not come in the way of restoring them. -/
theorem Backed.restorable (ht : t.WellFormed)
    (h : Backed printMetadata backupPath cwd t t₁ files metadata)
    (hchanged : ChangedAt (files.map (PathBuf.join cwd)) t₁ t₂) :
    ∀ i ∈ metadata.files, Restorable t₂ i := by
  have hwell := h.wellFormed ht
  have hfileAt : ∀ p, (t₁.fileAt p).isSome → t₁.get p ≠ some .dir ∧ t₁.get p ≠ none := by
    intro p hp
    rcases (FileTree.fileAt_isSome_iff _ _).mp hp with ⟨content, hget⟩
    simp [hget]
  rw [h.infos]
  intro i hi
  rcases List.mem_map.mp hi with ⟨f, hf, rfl⟩
  have hnamed : f.join cwd ≠ [] := by
    intro hroot
    rcases (FileTree.fileAt_isSome_iff _ _).mp (h.stays f hf) with ⟨content, hget⟩
    rw [hroot] at hget
    exact hwell.rooted content hget
  refine ⟨fun q hq => ?_, hnamed, hchanged.files _ (List.mem_map_of_mem hf), ?_⟩
  · have habove := (FileTree.isPrefix_dropLast_iff _ q hnamed).mp hq
    have hdir := DirTree.get_eq_dir_above ⟨t₁, hwell.closed, hwell.rooted⟩ q (f.join cwd)
      habove.1 habove.2 (hfileAt _ (h.stays f hf)).2
    rw [hchanged.others q fun hmem => h.not_dir q hmem hdir]
    exact hdir
  · by_cases hmem : placeOf backupPath f ∈ files.map (PathBuf.join cwd)
    · exact hchanged.files _ hmem
    · rw [infoOf, hchanged.others _ hmem]
      exact (hfileAt _ (h.copies f hf)).1

/-- With its listing still there, a rollback restores the files of the listing. -/
theorem Backed.rollback_eq
    (h : Backed printMetadata (backupDir ++ [backupId]) cwd t t₁ files metadata)
    (hround : parseMetadata (printMetadata metadata) = some metadata)
    (hchanged : ChangedAt (files.map (PathBuf.join cwd)) t₁ t₂)
    (hlisting : t₂.get (listingOf (backupDir ++ [backupId]))
      = t₁.get (listingOf (backupDir ++ [backupId]))) :
    rollback parseMetadata backupDir backupId t₂ =
      ((restoreFiles t₂ metadata.files).1,
        .ok
          { success := (restoreFiles t₂ metadata.files).2.2.isEmpty
            restoredFiles := (restoreFiles t₂ metadata.files).2.1
            errors := (restoreFiles t₂ metadata.files).2.2 }) := by
  have hthere : ¬ t₂.pathExists (backupDir ++ [backupId]) = false := by
    rw [FileTree.pathExists, hchanged.others, h.there]
    · simp
    · intro hmem
      rcases List.mem_map.mp hmem with ⟨f, hf, hpath⟩
      have hfile := h.stays f hf
      rw [hpath, FileTree.fileAt, h.there] at hfile
      cases hfile
  have hread : readToString t₂ (backupDir ++ [backupId] ++ ["metadata.json"])
      = some (printMetadata metadata) := by
    refine readToString_of_fileAt ?_
    rw [← listingOf, (FileTree.look_congr _ _ _ hlisting).2.2.2, h.listed]
  simp only [rollback, if_neg hthere, hread, hround]

/-- A rollback brings everything back where the places are apart. -/
theorem Backed.rollback_ok (ht : t.WellFormed)
    (h : Backed printMetadata (backupDir ++ [backupId]) cwd t t₁ files metadata)
    (hround : parseMetadata (printMetadata metadata) = some metadata)
    (hapart : PlacesApart (backupDir ++ [backupId]) cwd t files)
    (hchanged : ChangedAt (files.map (PathBuf.join cwd)) t₁ t₂) :
    ∃ t₃ restored, rollback parseMetadata backupDir backupId t₂ =
        (t₃, .ok { success := true, restoredFiles := restored, errors := [] }) ∧
      ∀ f ∈ files, t₃.fileAt (f.join cwd) = t.fileAt (f.join cwd) := by
  have hunlisted : ∀ q, (∀ f ∈ files, f.join cwd ≠ q) → t₂.get q = t₁.get q := by
    intro q hq
    refine hchanged.others q fun hmem => ?_
    rcases List.mem_map.mp hmem with ⟨f, hf, hpath⟩
    exact hq f hf hpath
  have hplace : ∀ f ∈ files, t₂.fileAt (placeOf (backupDir ++ [backupId]) f)
      = t₁.fileAt (placeOf (backupDir ++ [backupId]) f) := fun f hf =>
    (FileTree.look_congr _ _ _ (hunlisted _ fun g hg => hapart.places g hg f hf)).2.2.2
  have hrun := h.rollback_eq hround hchanged (hunlisted _ hapart.listing)
  have hrestorable := h.restorable ht hchanged
  rw [h.infos] at hrun hrestorable
  have hrestored := restoreFiles_ok hrestorable
  simp only [List.forall_mem_map, infoOf] at hrestored
  rcases hrestored (fun f hf => by rw [hplace f hf]; exact h.copies f hf)
    (fun f hf g hg => hapart.places f hf g hg)
    (fun f hf g hg => placeOf_eq_of_join (h.named f hf) (h.named g hg)) with
    ⟨t₃, restored, hfiles, hcontents⟩
  refine ⟨t₃, restored, ?_, fun f hf => ?_⟩
  · rw [hrun, hfiles]
    rfl
  · rw [hcontents f hf, hplace f hf, h.copied hapart f hf]

/-- Without its listing, a backup is lost. -/
theorem RestoresAll.listing (hempty : parseMetadata "" = none)
    (h : Backed printMetadata (backupDir ++ [backupId]) cwd t t₁ files metadata)
    (hall : RestoresAll parseMetadata backupDir cwd backupId t t₁ files) :
    ∀ f ∈ files, f.join cwd ≠ listingOf (backupDir ++ [backupId]) := by
  intro f hf hlisting
  let t₂ : Tree := FileTree.set t₁ (listingOf (backupDir ++ [backupId])) (.file "".toUTF8)
  have hchanged : ChangedAt (files.map (PathBuf.join cwd)) t₁ t₂ := by
    refine ⟨fun q hq => ?_, fun q hq => ?_⟩
    · rw [FileTree.get_set, if_neg]
      rintro rfl
      exact hq (hlisting ▸ List.mem_map_of_mem hf)
    · rw [FileTree.get_set]
      split_ifs
      · simp
      · exact h.not_dir q hq
  have hthere : ¬ t₂.pathExists (backupDir ++ [backupId]) = false := by
    rw [FileTree.pathExists, FileTree.get_set, if_neg (by simp [listingOf]), h.there]
    simp
  have hread : readToString t₂ (backupDir ++ [backupId] ++ ["metadata.json"]) = some "" := by
    refine readToString_of_fileAt ?_
    rw [← listingOf, FileTree.fileAt_set_file, if_pos rfl]
  have hrun : rollback parseMetadata backupDir backupId t₂
      = (t₂, .error "Failed to parse backup metadata") := by
    simp only [rollback, if_neg hthere, hread, hempty]
  rcases hall t₂ _ _ hchanged hrun (by simp [IoFailed]) with ⟨result, hok, -⟩
  cases hok

section

variable (ht : t.WellFormed)
  (h : Backed printMetadata (backupDir ++ [backupId]) cwd t t₁ files metadata)
  (hround : parseMetadata (printMetadata metadata) = some metadata)

include ht h hround

/-- A file that is a copy does not come back. -/
theorem RestoresAll.places
    (hlisting : ∀ f ∈ files, f.join cwd ≠ listingOf (backupDir ++ [backupId]))
    (hall : RestoresAll parseMetadata backupDir cwd backupId t t₁ files) :
    ∀ f ∈ files, ∀ g ∈ files, f.join cwd ≠ placeOf (backupDir ++ [backupId]) g := by
  intro f hf g hg hplace
  have hchanged : ChangedAt (files.map (PathBuf.join cwd)) t₁ (t₁.unset (f.join cwd)) := by
    refine ⟨fun q hq => ?_, fun q hq => ?_⟩
    · rw [FileTree.get_unset, if_neg]
      rintro rfl
      exact hq (List.mem_map_of_mem hf)
    · rw [FileTree.get_unset]
      split_ifs
      · simp
      · exact h.not_dir q hq
  have hrestorable := h.restorable ht hchanged
  have hrun := h.rollback_eq hround hchanged
    (by rw [FileTree.get_unset, if_neg (Ne.symm (hlisting f hf))])
  have hmissing : (restoreFiles (t₁.unset (f.join cwd)) metadata.files).2.2 ≠ [] := by
    refine restoreFiles_missing (p := f.join cwd) hrestorable ?_ ?_ ?_
    · rw [FileTree.fileAt_unset, if_pos rfl]
    · rw [h.infos, List.forall_mem_map]
      intro i hi hpath
      rw [infoOf, placeOf_eq_of_join (h.named i hi) (h.named f hf) hpath,
        placeOf_self (h.named f hf) (h.named g hg) hplace]
    · rw [h.infos]
      exact ⟨_, List.mem_map_of_mem hf, rfl⟩
  have hback := hall _ _ _ hchanged hrun (by
    rintro ⟨file, message, hmem⟩
    rcases restoreFiles_errors hrestorable _ hmem with ⟨i, -, heq⟩
    cases heq)
  rcases hback with ⟨result, hok, hsuccess, -⟩
  rw [← Except.ok.inj hok, List.isEmpty_iff] at hsuccess
  exact hmissing hsuccess

/-- Files that share a place are restored with one content. -/
theorem RestoresAll.contents
    (hplaces : ∀ f ∈ files, ∀ g ∈ files, f.join cwd ≠ placeOf (backupDir ++ [backupId]) g)
    (hall : RestoresAll parseMetadata backupDir cwd backupId t t₁ files) :
    ∀ f ∈ files, ∀ g ∈ files, f.fileName = g.fileName →
      t.fileAt (f.join cwd) = t.fileAt (g.join cwd) := by
  have hchanged : ChangedAt (files.map (PathBuf.join cwd)) t₁ t₁ :=
    ⟨fun _ _ => rfl, h.not_dir⟩
  have hrun := h.rollback_eq hround hchanged rfl
  have hrestorable := h.restorable ht hchanged
  rw [h.infos] at hrun hrestorable
  have hrestored := restoreFiles_ok hrestorable
  simp only [List.forall_mem_map, infoOf] at hrestored
  rcases hrestored h.copies (fun f hf g hg => hplaces f hf g hg)
    (fun f hf g hg => placeOf_eq_of_join (h.named f hf) (h.named g hg)) with
    ⟨t₃, restored, hfiles, hcontents⟩
  rw [hfiles] at hrun
  rcases hall _ _ _ hchanged hrun (by simp [IoFailed]) with ⟨result, -, -, hback⟩
  intro f hf g hg hname
  rw [← hback f hf, ← hback g hg, hcontents f hf, hcontents g hg,
    (placeOf_eq_iff (h.named f hf) (h.named g hg)).mpr hname]

end

/-- After a backup of files that exist, a rollback brings all of them back, whatever has become of
    them, if and only if files of one name have one content and no file is part of the backup. -/
theorem backup_restores_iff (ht : t.WellFormed)
    (hfiles : ∀ f ∈ files, (t.fileAt (f.join cwd)).isSome)
    (hbackup : RollbackManager.createBackup printMetadata backupDir cwd backupId t files
      = (t₁, .ok metadata))
    (hround : parseMetadata (printMetadata metadata) = some metadata)
    (hempty : parseMetadata "" = none) :
    RestoresAll parseMetadata backupDir cwd backupId t t₁ files ↔
      PlacesApart (backupDir ++ [backupId]) cwd t files := by
  have h := createBackup_spec hfiles hbackup
  constructor
  · intro hall
    have hlisting := hall.listing hempty h
    have hplaces := hall.places ht h hround hlisting
    exact ⟨hall.contents ht h hround hplaces, hplaces, hlisting⟩
  · intro hapart t₂ t₃ outcome hchanged hrun _
    rcases h.rollback_ok ht hround hapart hchanged with ⟨t₃', restored, hok, hback⟩
    rw [hok] at hrun
    rcases Prod.mk.inj hrun with ⟨rfl, rfl⟩
    exact ⟨_, rfl, rfl, hback⟩

end

/-- Two files of one name. -/
def twoGames (old new : ByteArray) : Tree :=
  FileTree.set (FileTree.set (FileTree.set (FileTree.set (FileTree.set ∅
    [] .dir) ["old"] .dir) ["old", "game.ini"] (.file old))
    ["new"] .dir) ["new", "game.ini"] (.file new)

def gameFiles : List PathBuf :=
  [.absolute ["old", "game.ini"], .absolute ["new", "game.ini"]]

def gamesListed : BackupMetadata where
  files := gameFiles.map (infoOf ["backups", "before"] [])

/-- The checksum of `a=1`. -/
def firstChecksum : String :=
  "c22fea5d7428e5cf47ef6354c97c9223c95d6dcdc3e0d2300ff79056b1ff3d85"

/-- The checksum of `a=2`. -/
def secondChecksum : String :=
  "d3043f41a0385109cbbaae1ea3c1c31674886be47b073f40681f2ef6d2603c41"

/-- The listing of their backup. -/
def gamesListing (old new : String) : String :=
  "\x7b\n  \"id\": \"before\",\n  \"timestamp\": 0,\n  \"sim\": \"msfs\",\n" ++
    "  \"version\": \"1\",\n  \"description\": \"\",\n  \"files\": [\n    \x7b\n" ++
    "      \"original_path\": \"/old/game.ini\",\n" ++
    "      \"backup_path\": \"/backups/before/files/game.ini\",\n" ++
    "      \"checksum\": \"" ++ old ++ "\"\n    \x7d,\n    \x7b\n" ++
    "      \"original_path\": \"/new/game.ini\",\n" ++
    "      \"backup_path\": \"/backups/before/files/game.ini\",\n" ++
    "      \"checksum\": \"" ++ new ++ "\"\n    \x7d\n  ]\n\x7d"

/-- A reader of listings that knows one of them. -/
def readGames (listing content : String) : Option BackupMetadata :=
  if content = listing then some gamesListed else none

theorem readGames_empty (old new : String) : readGames (gamesListing old new) "" = none := by
  have hne : gamesListing old new ≠ "" := by
    unfold gamesListing
    intro h
    have hlast := (String.append_eq_empty_iff.mp h).2
    exact absurd hlast (by decide)
  rw [readGames, if_neg hne.symm]

theorem wellFormed_twoGames (old new : ByteArray) : (twoGames old new).WellFormed := by
  have hempty : (∅ : Tree).WellFormed := by
    refine ⟨?_, ?_⟩
    · intro p c h
      exact absurd rfl h
    · intro content h
      cases h
  have hold := FileTree.WellFormed.placeFile _ _ ["old", "game.ini"] old hempty rfl
  exact FileTree.WellFormed.placeFile _ _ ["new", "game.ini"] new hold rfl

theorem files_twoGames (old new : ByteArray) :
    ∀ f ∈ gameFiles, ((twoGames old new).fileAt (f.join [])).isSome := by
  simp only [gameFiles, List.forall_mem_cons, List.not_mem_nil, false_implies, implies_true,
    and_true]
  exact ⟨rfl, rfl⟩

/-- The two files with their backup. -/
def backedGames (listing : String) (old new : ByteArray) : Tree :=
  (RollbackManager.createBackup (fun _ => listing) ["backups"] [] "before" (twoGames old new)
    gameFiles).1

theorem createBackup_twoGames (listing : String) (old new : ByteArray) :
    RollbackManager.createBackup (fun _ => listing) ["backups"] [] "before" (twoGames old new)
      gameFiles = (backedGames listing old new, .ok gamesListed) :=
  Prod.ext rfl rfl

/-- Two files of one name and one content are brought back. -/
theorem backup_restores_games :
    RestoresAll (readGames (gamesListing firstChecksum firstChecksum)) ["backups"] [] "before"
      (twoGames "a=1".toUTF8 "a=1".toUTF8)
      (backedGames (gamesListing firstChecksum firstChecksum) "a=1".toUTF8 "a=1".toUTF8)
      gameFiles := by
  refine (backup_restores_iff (wellFormed_twoGames _ _) (files_twoGames _ _)
    (createBackup_twoGames _ _ _) (if_pos rfl) (readGames_empty _ _)).mpr ⟨?_, ?_, ?_⟩
  · intro f hf g hg _
    have hcontent : ∀ f ∈ gameFiles, (twoGames "a=1".toUTF8 "a=1".toUTF8).fileAt (f.join [])
        = some "a=1".toUTF8 := by
      simp only [gameFiles, List.forall_mem_cons, List.not_mem_nil, false_implies, implies_true,
        and_true]
      exact ⟨rfl, rfl⟩
    rw [hcontent f hf, hcontent g hg]
  · simp only [gameFiles, List.forall_mem_cons, List.not_mem_nil, false_implies, implies_true,
      and_true]
    decide
  · simp only [gameFiles, List.forall_mem_cons, List.not_mem_nil, false_implies, implies_true,
      and_true]
    decide

/-- The backup of two files of one name and two contents succeeds, and so does its rollback,
    without an error, and one file has the content of the other. -/
theorem backup_mixes_names :
    (RollbackManager.createBackup (fun _ => gamesListing firstChecksum secondChecksum)
      ["backups"] [] "before" (twoGames "a=1".toUTF8 "a=2".toUTF8) gameFiles).2
        = .ok gamesListed ∧
    (∃ t₃, rollback (readGames (gamesListing firstChecksum secondChecksum)) ["backups"] "before"
        (backedGames (gamesListing firstChecksum secondChecksum) "a=1".toUTF8 "a=2".toUTF8)
          = (t₃, .ok
            { success := true
              restoredFiles := [["old", "game.ini"], ["new", "game.ini"]]
              errors := [] }) ∧
      FileTree.fileAt t₃ ["old", "game.ini"] = some "a=2".toUTF8) ∧
    ¬ RestoresAll (readGames (gamesListing firstChecksum secondChecksum)) ["backups"] []
      "before" (twoGames "a=1".toUTF8 "a=2".toUTF8)
      (backedGames (gamesListing firstChecksum secondChecksum) "a=1".toUTF8 "a=2".toUTF8)
      gameFiles := by
  have hbacked := createBackup_spec (files_twoGames _ _) (createBackup_twoGames
    (gamesListing firstChecksum secondChecksum) "a=1".toUTF8 "a=2".toUTF8)
  have hround : readGames (gamesListing firstChecksum secondChecksum)
      (gamesListing firstChecksum secondChecksum) = some gamesListed := if_pos rfl
  refine ⟨by rw [createBackup_twoGames], ?_, fun hall => ?_⟩
  · have hchanged : ChangedAt (gameFiles.map (PathBuf.join []))
        (backedGames (gamesListing firstChecksum secondChecksum) "a=1".toUTF8 "a=2".toUTF8)
        (backedGames (gamesListing firstChecksum secondChecksum) "a=1".toUTF8 "a=2".toUTF8) :=
      ⟨fun _ _ => rfl, hbacked.not_dir⟩
    exact ⟨_, hbacked.rollback_eq hround hchanged rfl, rfl⟩
  · have hplaces : ∀ f ∈ gameFiles, ∀ g ∈ gameFiles,
        f.join [] ≠ placeOf ["backups", "before"] g := by
      simp only [gameFiles, List.forall_mem_cons, List.not_mem_nil, false_implies, implies_true,
        and_true]
      decide
    have hsame := hall.contents (wellFormed_twoGames _ _) hbacked hround hplaces
      (.absolute ["old", "game.ini"]) (by simp [gameFiles]) (.absolute ["new", "game.ini"])
      (by simp [gameFiles]) rfl
    have hbytes : "a=1".toUTF8 = "a=2".toUTF8 := Option.some.inj hsame
    exact absurd hbytes (by decide)

end OpenFlight.Writers
