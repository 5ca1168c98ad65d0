import OpenFlight.Core.Updater.Delta

/-!
# Delta Patches Reproduce the Target

When applying the patch that was generated between two trees to a copy of the
first gives the second.

Every file of the two trees falls into one of five classes. An unchanged file
is in no part of the patch and stays. A changed file of at least `minDeltaSize`
has a delta that replaces its content. A file of the target alone is new and a
file of the source alone is deleted. A changed file that is smaller is in no
part of the patch either: the generator makes no delta, expecting it to be
handled as a new file, and the branch for new files only sees files that the
source does not have. So it keeps its old content.

New files are created before the deleted ones are removed. Where a new file
lies below a file of the source, or is a directory of it, creating it fails,
although the target tree is a tree like any other. Such a source file is
always a deleted one.

## Main definitions

* `SmallChange`: A changed file below the size that gets a delta.
* `Clash`: A new file at or below something of the source.

## Theorems

* `applyPatch_roundTrip_iff`: The target is reproduced when there are neither
  small changes nor clashes.
* `applyPatch_keeps_old_content`: A small change that gets lost.
-/

namespace OpenFlight.Updater

/-- A file that both trees have, changed and below the size that gets a delta. -/
def SmallChange (source target : FileMap) : Prop :=
  ∃ p old new, source.files.lookup p = some old ∧ target.files.lookup p = some new ∧
    old ≠ new ∧ new.length < minDeltaSize

/-- A file that only the target has, above or below a file of the source. -/
def Clash (source target : FileMap) : Prop :=
  ∃ p ∈ target.files, p ∉ source.files ∧ ∃ q ∈ source.files, p <+: q ∨ q <+: p

theorem mem_files_iff (tree : FileMap) (p : Path) :
    p ∈ tree.files ↔ ∃ content, tree.files.lookup p = some content := by
  rw [← AList.lookup_isSome, Option.isSome_iff_exists]

section

variable (sha256 : Bytes → String) (source : Dir)

/-- A delta that replaces the whole content passes both hash checks and places the new content. -/
theorem applyFileDelta_replaceDelta (target : Dir) (p : Path) (old new : Bytes)
    (hsource : source.fileAt p = some old) :
    applyFileDelta sha256 source target (replaceDelta sha256 p old new)
      = liftIo (target.placeFile p new) := by
  have hread : source.readFile p = .ok old := by
    rw [FileTree.fileAt_eq_some_iff] at hsource
    simp [FileTree.readFile, hsource]
  unfold applyFileDelta FileTree.placeFile replaceDelta
  -- The content of one `Insert` is the new file, and its hash is the target hash.
  cases target.createDirAll p.dropLast with
  | error e => rfl
  | ok t =>
      cases hwrite : t.writeFile p new with
      | error e =>
          simp [liftIo, Except.mapError, bind, Except.bind, hread, applyOperation, hwrite, pure,
            Except.pure]
      | ok t' =>
          simp [liftIo, Except.mapError, bind, Except.bind, hread, applyOperation, hwrite, pure,
            Except.pure]

theorem verifySourceFile_replaceDelta (p : Path) (old new : Bytes)
    (hsource : source.fileAt p = some old) :
    verifySourceFile sha256 source (replaceDelta sha256 p old new) = .ok () := by
  rw [FileTree.fileAt_eq_some_iff] at hsource
  have hread : source.readFile p = .ok old := by
    simp [FileTree.readFile, hsource]
  have hexists : source.pathExists p = true := by
    simp [FileTree.pathExists, hsource]
  simp [verifySourceFile, replaceDelta, hexists, hread, liftIo, Except.mapError, bind,
    Except.bind, pure, Except.pure]

/-- Every delta replaces the content of the file at its path, taken from the source directory. -/
def Replaces (source : Dir) (entries : List (Sigma fun _ : Path => FileDelta))
    (content : Path → Bytes) : Prop :=
  ∀ e ∈ entries, ∃ old, source.fileAt e.1 = some old ∧
    e.2 = replaceDelta sha256 e.1 old (content e.1)

/-- The deltas of a patch, as files placed. -/
theorem applyFileDeltas_eq_placeAll (target : Dir)
    (entries : List (Sigma fun _ : Path => FileDelta)) (content : Path → Bytes)
    (h : Replaces sha256 source entries content) :
    applyFileDeltas sha256 source target (entries.map fun e => e.2)
      = liftIo (target.placeAll (entries.map fun e => (e.1, content e.1))) := by
  induction entries generalizing target with
  | nil => rfl
  | cons e rest ih =>
      rcases h e List.mem_cons_self with ⟨old, hold, hdelta⟩
      have hrest : Replaces sha256 source rest content := fun f hf =>
        h f (List.mem_cons_of_mem e hf)
      rw [List.map_cons, List.map_cons, applyFileDeltas, FileTree.placeAll, hdelta,
        applyFileDelta_replaceDelta sha256 source target e.1 old _ hold]
      cases target.placeFile e.1 (content e.1) with
      | error err => rfl
      | ok t => exact ih t hrest

theorem verifySourceFiles_ok (entries : List (Sigma fun _ : Path => FileDelta))
    (content : Path → Bytes) (h : Replaces sha256 source entries content) :
    verifySourceFiles sha256 source (entries.map fun e => e.2) = .ok () := by
  induction entries with
  | nil => rfl
  | cons e rest ih =>
      rcases h e List.mem_cons_self with ⟨old, hold, hdelta⟩
      have hrest : Replaces sha256 source rest content := fun f hf =>
        h f (List.mem_cons_of_mem e hf)
      rw [List.map_cons, verifySourceFiles, hdelta,
        verifySourceFile_replaceDelta sha256 source e.1 old _ hold]
      exact ih hrest

end

/-- Files that are there can be deleted, and nothing else goes. -/
theorem deleteFiles_ok (target : Dir) (paths : List Path) (hnodup : paths.Nodup)
    (hfiles : ∀ p ∈ paths, (target.fileAt p).isSome) :
    ∃ after, deleteFiles target paths = .ok after ∧
      ∀ p, after.fileAt p = if p ∈ paths then none else target.fileAt p := by
  induction paths generalizing target with
  | nil => exact ⟨target, rfl, by simp⟩
  | cons p rest ih =>
      rw [List.nodup_cons] at hnodup
      rcases (FileTree.fileAt_isSome_iff target p).mp (hfiles p List.mem_cons_self) with
        ⟨content, hget⟩
      have hunset : ∀ q, (target.unset p).fileAt q = if q = p then none else target.fileAt q := by
        intro q
        unfold FileTree.fileAt
        rw [FileTree.get_unset]
        by_cases hq : q = p
        · simp [hq]
        · simp [hq]
      have hstep : deleteFiles target (p :: rest) = deleteFiles (target.unset p) rest := by
        simp [deleteFiles, FileTree.pathExists, hget, FileTree.removeFile, liftIo,
          Except.mapError, bind, Except.bind]
      -- The files still to be deleted are other files, so they are still there.
      have hrest : ∀ q ∈ rest, ((target.unset p).fileAt q).isSome := by
        intro q hq
        have hne : q ≠ p := fun heq => hnodup.1 (heq ▸ hq)
        rw [hunset, if_neg hne]
        exact hfiles q (List.mem_cons_of_mem p hq)
      rcases ih (target.unset p) hnodup.2 hrest with ⟨after, hafter, hget'⟩
      refine ⟨after, by rw [hstep, hafter], fun q => ?_⟩
      rw [hget' q, hunset q]
      by_cases hq : q = p
      · simp [hq]
      · simp [hq]

section

variable (sha256 : Bytes → String) (source target : FileMap) (patch : DeltaPatch)

/-- What the round trip uses of a patch: it was generated between the two
    trees, and its maps are iterated in any order. -/
structure Between : Prop where
  delta : ∀ p δ, ⟨p, δ⟩ ∈ patch.files.entries ↔
    ∃ old new, source.files.lookup p = some old ∧ target.files.lookup p = some new ∧
      old ≠ new ∧ minDeltaSize ≤ new.length ∧ δ = replaceDelta sha256 p old new
  new : ∀ p content, ⟨p, content⟩ ∈ patch.newFiles.entries ↔
    p ∉ source.files ∧ target.files.lookup p = some content
  deleted : ∀ p, p ∈ patch.deletedFiles ↔ p ∈ source.files ∧ p ∉ target.files
  nodup : patch.deletedFiles.Nodup

theorem deltaFor_eq_some_iff (p : Path) (new : Bytes) (δ : FileDelta) :
    deltaFor sha256 source p new = some δ ↔ ∃ old, source.files.lookup p = some old ∧
      old ≠ new ∧ minDeltaSize ≤ new.length ∧ δ = replaceDelta sha256 p old new := by
  unfold deltaFor createFileDelta
  cases source.files.lookup p with
  | none => simp
  | some old =>
      by_cases hsame : old = new
      · simp [hsame]
      · -- A small change gets no delta, and nothing else picks it up.
        by_cases hsmall : new.length < minDeltaSize
        · simp [hsmall, Nat.not_le.mpr hsmall]
        · simp [hsmall, Nat.not_lt.mp hsmall, eq_comm]

theorem generatePatch_between (sourceVersion targetVersion : String)
    (hpatch : (generatePatch sha256 source target sourceVersion targetVersion).SamePatch patch) :
    Between sha256 source target patch := by
  rcases hpatch with ⟨hfiles, hnew, hdeleted⟩
  rcases generatePatch_spec sha256 source target sourceVersion targetVersion with
    ⟨hlookup, hlookupNew, hkeys⟩
  constructor
  · intro p δ
    rw [hfiles.mem_iff, ← AList.mem_lookup_iff, Option.mem_def, hlookup,
      Option.bind_eq_some_iff]
    constructor
    · rintro ⟨new, htarget, hdelta⟩
      rcases (deltaFor_eq_some_iff sha256 source p new δ).mp hdelta with ⟨old, hsource, hrest⟩
      exact ⟨old, new, hsource, htarget, hrest⟩
    · rintro ⟨old, new, hsource, htarget, hrest⟩
      exact ⟨new, htarget, (deltaFor_eq_some_iff sha256 source p new δ).mpr ⟨old, hsource, hrest⟩⟩
  · -- A path of the source is never new, changed or not.
    intro p content
    rw [hnew.mem_iff, ← AList.mem_lookup_iff, Option.mem_def, hlookupNew]
    by_cases hp : p ∈ source.files
    · simp [hp]
    · simp [hp]
  · intro p
    rw [hdeleted, hkeys, List.mem_filter, decide_eq_true_eq]
    exact Iff.rfl
  · rw [hdeleted, hkeys]
    exact List.Nodup.filter _ source.files.keys_nodup

variable {sha256 source target patch}

theorem Between.replaces (h : Between sha256 source target patch) (dir : Dir)
    (hdir : Holds dir source) :
    Replaces sha256 dir patch.files.entries fun p => (target.files.lookup p).getD [] := by
  rintro ⟨p, δ⟩ hmem
  rcases (h.delta p δ).mp hmem with ⟨old, new, hsource, htarget, -, -, hδ⟩
  refine ⟨old, by rw [hdir.files, hsource], ?_⟩
  dsimp only
  rw [htarget, hδ]
  rfl

/-- Two files of one tree are at the same path or apart. -/
theorem apart_of_mem (tree : FileMap) (entries : List (Path × Bytes))
    (hnodup : (entries.map Prod.fst).Nodup) (hmem : ∀ e ∈ entries, e.1 ∈ tree.files) :
    FileTree.Apart entries := by
  have hpaths : entries.Pairwise fun e f => e.1 ≠ f.1 := List.pairwise_map.mp hnodup
  refine hpaths.imp_of_mem fun {e f} he hf hne => ?_
  exact ⟨fun hef => hne (tree.apart _ (hmem e he) _ (hmem f hf) hef),
    fun hfe => hne (tree.apart _ (hmem f hf) _ (hmem e he) hfe).symm⟩

/-- The files that the deltas of a patch place. -/
def deltaFiles (target : FileMap) (patch : DeltaPatch) : List (Path × Bytes) :=
  patch.files.entries.map fun e => (e.1, (target.files.lookup e.1).getD [])

/-- The files that are new in a patch. -/
def newFileList (patch : DeltaPatch) : List (Path × Bytes) :=
  patch.newFiles.entries.map fun e => (e.1, e.2)

section

variable (h : Between sha256 source target patch)

include h

theorem mem_deltaFiles_iff (p : Path) (content : Bytes) : (p, content) ∈ deltaFiles target patch ↔
      ∃ old, source.files.lookup p = some old ∧ target.files.lookup p = some content ∧
        old ≠ content ∧ minDeltaSize ≤ content.length := by
  unfold deltaFiles
  rw [List.mem_map]
  constructor
  · rintro ⟨⟨q, δ⟩, hmem, heq⟩
    rcases (h.delta q δ).mp hmem with ⟨old, new, hsource, htarget, hne, hsize, -⟩
    rw [Prod.mk.injEq] at heq
    rcases heq with ⟨rfl, rfl⟩
    dsimp only
    rw [htarget]
    exact ⟨old, hsource, rfl, hne, hsize⟩
  · rintro ⟨old, hsource, htarget, hne, hsize⟩
    refine ⟨⟨p, replaceDelta sha256 p old content⟩, ?_, ?_⟩
    · exact (h.delta _ _).mpr ⟨old, content, hsource, htarget, hne, hsize, rfl⟩
    · dsimp only
      rw [htarget]
      rfl

theorem mem_newFileList_iff (p : Path) (content : Bytes) : (p, content) ∈ newFileList patch ↔
      p ∉ source.files ∧ target.files.lookup p = some content := by
  unfold newFileList
  rw [List.mem_map, ← h.new p content]
  constructor
  · rintro ⟨⟨q, c⟩, hmem, heq⟩
    rw [Prod.mk.injEq] at heq
    rcases heq with ⟨rfl, rfl⟩
    exact hmem
  · intro hmem
    exact ⟨⟨p, content⟩, hmem, rfl⟩

theorem deltaFiles_apart : FileTree.Apart (deltaFiles target patch) := by
  refine apart_of_mem source _ ?_ ?_
  · unfold deltaFiles
    rw [List.map_map]
    exact patch.files.keys_nodup
  · rintro ⟨p, content⟩ hmem
    rcases (mem_deltaFiles_iff h p content).mp hmem with ⟨old, hsource, -⟩
    exact (mem_files_iff source p).mpr ⟨old, hsource⟩

theorem newFileList_apart : FileTree.Apart (newFileList patch) := by
  refine apart_of_mem target _ ?_ ?_
  · unfold newFileList
    rw [List.map_map]
    exact patch.newFiles.keys_nodup
  · rintro ⟨p, content⟩ hmem
    exact (mem_files_iff target p).mpr ⟨content, ((mem_newFileList_iff h p content).mp hmem).2⟩

end

variable {dir : Dir}

/-- In a copy of the source, no path of the source is blocked. -/
theorem not_blocked_of_mem (hdir : Holds dir source) (p : Path) (hp : p ∈ source.files) :
    ¬ dir.Blocked p := by
  rcases (mem_files_iff source p).mp hp with ⟨content, hcontent⟩
  rintro (hnil | ⟨q, hq, hne, hfile⟩ | hisDir)
  · exact source.rootless (hnil ▸ hp)
  · -- A file above `p` would be a second file of the source on its path.
    rw [hdir.files, AList.lookup_isSome] at hfile
    exact hne (source.apart q hfile p hp hq)
  · have hfile : dir.fileAt p = some content := by rw [hdir.files, hcontent]
    rw [FileTree.fileAt_eq_some_iff, hisDir] at hfile
    exact absurd hfile (by simp)

section

variable (h : Between sha256 source target patch)

include h

/-- The deltas can be applied to a copy of the source. They change the content
    of files and nothing else. -/
theorem placeAll_deltaFiles (hdir : Holds dir source) :
    ∃ after, dir.placeAll (deltaFiles target patch) = .ok after ∧
      (∀ f ∈ deltaFiles target patch, after.fileAt f.1 = some f.2) ∧
      (∀ q, q ∉ (deltaFiles target patch).map Prod.fst → after.fileAt q = dir.fileAt q) ∧
      (∀ q, (after.fileAt q).isSome ↔ q ∈ source.files) ∧
      ∀ q, after.get q = some .dir ↔ dir.get q = some .dir := by
  have hmem : ∀ f ∈ deltaFiles target patch, f.1 ∈ source.files := by
    rintro ⟨p, content⟩ hf
    rcases (mem_deltaFiles_iff h p content).mp hf with ⟨old, hsource, -⟩
    exact (mem_files_iff source p).mpr ⟨old, hsource⟩
  have hapart := deltaFiles_apart h
  rcases (FileTree.placeAll_eq_ok_iff dir _ hapart).mpr
    (fun f hf => not_blocked_of_mem hdir f.1 (hmem f hf)) with ⟨after, hafter⟩
  rcases FileTree.fileAt_placeAll dir after _ hapart hafter with ⟨hplaced, hothers⟩
  refine ⟨after, hafter, hplaced, hothers, fun q => ?_, fun q => ?_⟩
  · -- A delta only replaces a file that was there.
    by_cases hq : q ∈ (deltaFiles target patch).map Prod.fst
    · rcases List.mem_map.mp hq with ⟨f, hf, rfl⟩
      rw [hplaced f hf]
      simp [hmem f hf]
    · rw [hothers q hq, hdir.files, AList.lookup_isSome]
  · rw [FileTree.isDir_placeAll_iff dir after _ hafter q]
    -- The directories above the files of the source are there already.
    refine or_iff_left_of_imp ?_
    rintro ⟨f, hf, hq, hne⟩
    exact (hdir.dirs q).mpr (Or.inr ⟨f.1, hmem f hf, hq, hne⟩)

/-- After the deltas, the new files can be created exactly when none of them
    clashes with the source. -/
theorem placeAll_newFileList_iff (hdir : Holds dir source) (after : Dir)
    (hfiles : ∀ q, (after.fileAt q).isSome ↔ q ∈ source.files)
    (hdirs : ∀ q, after.get q = some .dir ↔ dir.get q = some .dir) :
    (∃ t, after.placeAll (newFileList patch) = .ok t) ↔ ¬ Clash source target := by
  rw [FileTree.placeAll_eq_ok_iff after _ (newFileList_apart h)]
  constructor
  · -- A clash blocks its new file: a source file lies below it or above it.
    rintro hfree ⟨p, hp, hnew, q, hq, hpq⟩
    rcases (mem_files_iff target p).mp hp with ⟨content, hcontent⟩
    have hne : p ≠ q := fun heq => hnew (heq ▸ hq)
    refine hfree (p, content) ((mem_newFileList_iff h p content).mpr ⟨hnew, hcontent⟩) ?_
    rcases hpq with hbelow | habove
    · exact Or.inr (Or.inr ((hdirs p).mpr ((hdir.dirs p).mpr (Or.inr ⟨q, hq, hbelow, hne⟩))))
    · exact Or.inr (Or.inl ⟨q, habove, hne.symm, (hfiles q).mpr hq⟩)
  · rintro hclash ⟨p, content⟩ hf hblocked
    rcases (mem_newFileList_iff h p content).mp hf with ⟨hnew, hcontent⟩
    have hp : p ∈ target.files := (mem_files_iff target p).mpr ⟨content, hcontent⟩
    have hroot : p ≠ [] := fun hnil => target.rootless (hnil ▸ hp)
    -- Whatever blocks a new file belongs to a file of the source.
    rcases hblocked with hnil | ⟨q, hq, -, hfile⟩ | hisDir
    · exact hroot hnil
    · exact hclash ⟨p, hp, hnew, q, (hfiles q).mp hfile, Or.inr hq⟩
    · rcases (hdir.dirs p).mp ((hdirs p).mp hisDir) with hnil | ⟨q, hq, hbelow, -⟩
      · exact hroot hnil
      · exact hclash ⟨p, hp, hnew, q, hq, Or.inl hbelow⟩

/-- A patch passes the checks on the source, and from there on it is files
    placed and files deleted. -/
theorem applyPatch_eq (sourceDir : Dir) (hsource : Holds sourceDir source) (after : Dir)
    (hafter : dir.placeAll (deltaFiles target patch) = .ok after) :
    applyPatch sha256 patch sourceDir dir =
      (liftIo (after.placeAll (newFileList patch))).bind (deleteFiles · patch.deletedFiles) := by
  have hreplaces := h.replaces sourceDir hsource
  have hdeltas := applyFileDeltas_eq_placeAll sha256 sourceDir dir _ _ hreplaces
  rw [show (patch.files.entries.map fun e => (e.1, (target.files.lookup e.1).getD []))
    = deltaFiles target patch from rfl, hafter] at hdeltas
  unfold applyPatch
  -- Every delta replaces a file that verifies against the source.
  rw [verifySourceFiles_ok sha256 sourceDir _ _ hreplaces, hdeltas]
  rfl

/-- The files after a patch was applied, given those after each of its three
    parts: only a small change keeps the content of the source. -/
theorem fileAt_applyPatch (hdir : Holds dir source) (t1 t2 after : Dir)
    (hdelta : ∀ f ∈ deltaFiles target patch, t1.fileAt f.1 = some f.2)
    (hdeltaOthers : ∀ q, q ∉ (deltaFiles target patch).map Prod.fst → t1.fileAt q = dir.fileAt q)
    (hnew : ∀ f ∈ newFileList patch, t2.fileAt f.1 = some f.2)
    (hnewOthers : ∀ q, q ∉ (newFileList patch).map Prod.fst → t2.fileAt q = t1.fileAt q)
    (hdeleted : ∀ p, after.fileAt p = if p ∈ patch.deletedFiles then none else t2.fileAt p)
    (p : Path) :
    after.fileAt p = target.files.lookup p ↔
      ¬ ∃ old new, source.files.lookup p = some old ∧ target.files.lookup p = some new ∧
        old ≠ new ∧ new.length < minDeltaSize := by
  rw [hdeleted]
  cases hs : source.files.lookup p with
  | none =>
      -- Not in the source: new if it is in the target, and never there otherwise.
      have hnot : p ∉ source.files := AList.lookup_eq_none.mp hs
      have hkept : p ∉ patch.deletedFiles := fun hmem => hnot ((h.deleted p).mp hmem).1
      rw [if_neg hkept]
      cases ht : target.files.lookup p with
      | some content =>
          rw [hnew (p, content) ((mem_newFileList_iff h p content).mpr ⟨hnot, ht⟩)]
          simp
      | none =>
          have hnotNew : p ∉ (newFileList patch).map Prod.fst := by
            intro hmem
            rcases List.mem_map.mp hmem with ⟨⟨q, content⟩, hq, rfl⟩
            rw [((mem_newFileList_iff h _ content).mp hq).2] at ht
            exact absurd ht (by simp)
          have hnotDelta : p ∉ (deltaFiles target patch).map Prod.fst := by
            intro hmem
            rcases List.mem_map.mp hmem with ⟨⟨q, content⟩, hq, rfl⟩
            rcases (mem_deltaFiles_iff h _ content).mp hq with ⟨old, hold, -⟩
            rw [hold] at hs
            exact absurd hs (by simp)
          rw [hnewOthers p hnotNew, hdeltaOthers p hnotDelta, hdir.files, hs]
          simp
  | some old =>
      -- In the source: not a new file, so only a delta or a deletion can touch it.
      have hmem : p ∈ source.files := (mem_files_iff source p).mpr ⟨old, hs⟩
      have hnotNew : p ∉ (newFileList patch).map Prod.fst := by
        intro hnewMem
        rcases List.mem_map.mp hnewMem with ⟨⟨q, content⟩, hq, rfl⟩
        exact ((mem_newFileList_iff h _ content).mp hq).1 hmem
      cases ht : target.files.lookup p with
      | none =>
          -- Only the source has it, and the patch deletes it.
          have hgone : p ∈ patch.deletedFiles :=
            (h.deleted p).mpr ⟨hmem, AList.lookup_eq_none.mp ht⟩
          rw [if_pos hgone]
          simp
      | some new =>
          have hkept : p ∉ patch.deletedFiles := fun hdel =>
            ((h.deleted p).mp hdel).2 ((mem_files_iff target p).mpr ⟨new, ht⟩)
          rw [if_neg hkept, hnewOthers p hnotNew]
          by_cases hmade : old ≠ new ∧ minDeltaSize ≤ new.length
          · -- A change the generator made a delta for.
            have hf : (p, new) ∈ deltaFiles target patch :=
              (mem_deltaFiles_iff h p new).mpr ⟨old, hs, ht, hmade⟩
            rw [hdelta (p, new) hf]
            have hlarge := Nat.not_lt.mpr hmade.2
            simp [hlarge]
          · have hnotDelta : p ∉ (deltaFiles target patch).map Prod.fst := by
              intro hdeltaMem
              rcases List.mem_map.mp hdeltaMem with ⟨⟨q, content⟩, hq, rfl⟩
              rcases (mem_deltaFiles_iff h _ content).mp hq with ⟨old', hold, hnew', hrest⟩
              rw [hs, Option.some.injEq] at hold
              rw [ht, Option.some.injEq] at hnew'
              exact hmade (by rw [hold, hnew']; exact hrest)
            rw [hdeltaOthers p hnotDelta, hdir.files, hs]
            -- No delta, so the old content is still there: right if it is unchanged, and
            -- a small change otherwise.
            by_cases hsame : old = new
            · simp [hsame]
            · have hsmall : new.length < minDeltaSize := by
                by_contra hlarge
                exact hmade ⟨hsame, Nat.not_lt.mp hlarge⟩
              simp [hsame, hsmall]

end

/-- The patch generated between two trees, its maps iterated in any order,
    applied to a copy of the source, succeeds and leaves exactly the files of
    the target, exactly when there is no small change and no clash. -/
theorem applyPatch_roundTrip_iff (sha256 : Bytes → String) (source target : FileMap)
    (sourceVersion targetVersion : String) (patch : DeltaPatch)
    (hpatch : (generatePatch sha256 source target sourceVersion targetVersion).SamePatch patch)
    (sourceDir targetDir : Dir) (hsource : Holds sourceDir source)
    (htarget : Holds targetDir source) :
    (∃ after, applyPatch sha256 patch sourceDir targetDir = .ok after ∧
        ∀ p, after.fileAt p = target.files.lookup p) ↔
      ¬ SmallChange source target ∧ ¬ Clash source target := by
  have h := generatePatch_between sha256 source target patch sourceVersion targetVersion hpatch
  rcases placeAll_deltaFiles h htarget with ⟨t1, ht1, hdelta, hdeltaOthers, hfiles, hdirs⟩
  have hcreated := placeAll_newFileList_iff h htarget t1 hfiles hdirs
  rw [applyPatch_eq h sourceDir hsource t1 ht1]
  cases hplace : t1.placeAll (newFileList patch) with
  | error e =>
      -- A new file could not be created, so one clashes.
      have hclash : Clash source target := by
        by_contra hfree
        rcases hcreated.mpr hfree with ⟨t2, ht2⟩
        rw [hplace] at ht2
        exact absurd ht2 (by simp)
      constructor
      · rintro ⟨after, hafter, -⟩
        exact absurd hafter (by simp [liftIo, Except.mapError, Except.bind])
      · rintro ⟨-, hfree⟩
        exact absurd hclash hfree
  | ok t2 =>
      have hfree := hcreated.mp ⟨t2, hplace⟩
      rcases FileTree.fileAt_placeAll t1 t2 _ (newFileList_apart h) hplace with
        ⟨hnew, hnewOthers⟩
      -- The new files are not among the ones to delete.
      have hthere : ∀ p ∈ patch.deletedFiles, (t2.fileAt p).isSome := by
        intro p hp
        have hmem := ((h.deleted p).mp hp).1
        have hnotNew : p ∉ (newFileList patch).map Prod.fst := by
          intro hnewMem
          rcases List.mem_map.mp hnewMem with ⟨⟨q, content⟩, hq, rfl⟩
          exact ((mem_newFileList_iff h _ content).mp hq).1 hmem
        rw [hnewOthers p hnotNew, hfiles]
        exact hmem
      rcases deleteFiles_ok t2 patch.deletedFiles h.nodup hthere with ⟨after, hafter, hdeleted⟩
      have hresult := fileAt_applyPatch h htarget t1 t2 after hdelta hdeltaOthers hnew
        hnewOthers hdeleted
      have hrun : (liftIo (Except.ok t2)).bind (deleteFiles · patch.deletedFiles)
          = .ok after := hafter
      rw [hrun, and_iff_left hfree]
      constructor
      · rintro ⟨final, hfinal, hall⟩ ⟨p, hsmall⟩
        have heq : after = final := Except.ok.inj hfinal
        rw [← heq] at hall
        exact (hresult p).mp (hall p) hsmall
      · intro hsmall
        exact ⟨after, rfl, fun p => (hresult p).mpr fun hp => hsmall ⟨p, hp⟩⟩

end

/-- A tree with the listed files. -/
def treeOf (files : List (Sigma fun _ : Path => Bytes)) (hnodup : (files.map Sigma.fst).Nodup)
    (hapart : ∀ e ∈ files, ∀ f ∈ files, e.1 <+: f.1 → e.1 = f.1)
    (hroot : ∀ e ∈ files, e.1 ≠ []) : FileMap :=
  { files := ⟨files, hnodup⟩
    apart := by
      intro p hp q hq
      rcases List.mem_map.mp hp with ⟨e, he, rfl⟩
      rcases List.mem_map.mp hq with ⟨f, hf, rfl⟩
      exact hapart e he f hf
    rootless := by
      intro hmem
      rcases List.mem_map.mp hmem with ⟨e, he, hnil⟩
      exact hroot e he hnil }

/-- A directory with the listed nodes. -/
def dirOf (nodes : List (Sigma fun _ : Path => Node Bytes))
    (hnodup : (nodes.map Sigma.fst).Nodup) : Dir :=
  ⟨nodes, hnodup⟩

/-- Every tree has a copy. -/
theorem exists_holds (tree : FileMap) : ∃ dir, Holds dir tree := by
  let root : Dir := dirOf [⟨[], .dir⟩] (by decide)
  let files := tree.files.entries.map fun e => (e.1, e.2)
  have hmem : ∀ p content, (p, content) ∈ files ↔ tree.files.lookup p = some content := by
    intro p content
    rw [← Option.mem_def, AList.mem_lookup_iff, List.mem_map]
    constructor
    · rintro ⟨⟨q, c⟩, hq, heq⟩
      rw [Prod.mk.injEq] at heq
      rcases heq with ⟨rfl, rfl⟩
      exact hq
    · intro h
      exact ⟨⟨p, content⟩, h, rfl⟩
  have hpaths : ∀ f ∈ files, f.1 ∈ tree.files := fun f hf =>
    (mem_files_iff tree f.1).mpr ⟨f.2, (hmem f.1 f.2).mp hf⟩
  have hapart : FileTree.Apart files := by
    refine apart_of_mem tree files ?_ hpaths
    rw [List.map_map]
    exact tree.files.keys_nodup
  have hget : ∀ q, root.get q = if q = [] then some .dir else none := by
    intro q
    by_cases hq : q = []
    · subst hq
      rfl
    · rw [if_neg hq, FileTree.get, AList.lookup_eq_none]
      rintro hq'
      exact hq (List.mem_singleton.mp hq')
  have hempty : ∀ q, root.fileAt q = none := by
    intro q
    unfold FileTree.fileAt
    rw [hget]
    by_cases hq : q = []
    · simp [hq]
    · simp [hq]
  -- Nothing is in the way in an empty root.
  have hfree : ∀ f ∈ files, ¬ root.Blocked f.1 := by
    rintro f hf (hnil | ⟨q, -, -, hfile⟩ | hisDir)
    · exact tree.rootless (hnil ▸ hpaths f hf)
    · rw [hempty] at hfile
      exact absurd hfile (by simp)
    · rw [hget] at hisDir
      by_cases hnil : f.1 = []
      · exact tree.rootless (hnil ▸ hpaths f hf)
      · simp [hnil] at hisDir
  rcases (FileTree.placeAll_eq_ok_iff root files hapart).mpr hfree with ⟨dir, hdir⟩
  rcases FileTree.fileAt_placeAll root dir files hapart hdir with ⟨hplaced, hothers⟩
  refine ⟨dir, fun p => ?_, fun p => ?_⟩
  · cases hp : tree.files.lookup p with
    | some content => exact hplaced (p, content) ((hmem p content).mpr hp)
    | none =>
        rw [hothers p, hempty]
        intro hfile
        rcases List.mem_map.mp hfile with ⟨f, hf, rfl⟩
        rw [(hmem f.1 f.2).mp hf] at hp
        exact absurd hp (by simp)
  · rw [FileTree.isDir_placeAll_iff root dir files hdir p, hget]
    by_cases hnil : p = []
    · simp [hnil]
    · simp only [hnil, if_false, reduceCtorEq, false_or]
      constructor
      · rintro ⟨f, hf, hprefix⟩
        exact ⟨f.1, hpaths f hf, hprefix⟩
      · rintro ⟨q, hq, hprefix⟩
        rcases (mem_files_iff tree q).mp hq with ⟨content, hcontent⟩
        exact ⟨(q, content), (hmem q content).mpr hcontent, hprefix⟩

/-- A source with an empty file and one that the target does not have. -/
def growingSource : FileMap :=
  treeOf [⟨["data.bin"], []⟩, ⟨["old.txt"], [1]⟩] (by decide) (by decide) (by decide)

/-- A target where the empty file has grown and another file is new. -/
def growingTarget : FileMap :=
  treeOf [⟨["data.bin"], List.replicate 1024 0⟩, ⟨["docs", "new.txt"], [2]⟩] (by decide)
    (by decide) (by decide)

/-- SHA-256 of the contents of the file that both trees have. -/
def growingHash (content : Bytes) : String :=
  if content = [] then "e3b0c44298fc1c149afbf4c8996fb92427ae41e4649b934ca495991b7852b855"
  else "5f70bf18a086007016e948b04aed3b82103a36bea41755b6cddfaf10ace3c6ef"

/-- A delta, a new file and a deleted file. -/
theorem applyPatch_roundTrip_growing : ∃ dir after, Holds dir growingSource ∧ applyPatch growingHash
        (generatePatch growingHash growingSource growingTarget "1.0.0" "1.1.0") dir dir
          = .ok after ∧
      ∀ p, after.fileAt p = growingTarget.files.lookup p := by
  rcases exists_holds growingSource with ⟨dir, hdir⟩
  have hlarge : ∀ e ∈ growingTarget.files.entries, e.1 ∈ growingSource.files.keys →
      ¬ e.2.length < minDeltaSize := by
    decide +kernel
  have hapart : ∀ p ∈ growingTarget.files.keys, p ∉ growingSource.files.keys →
      ∀ q ∈ growingSource.files.keys, ¬ (p <+: q ∨ q <+: p) := by
    decide
  have hsmall : ¬ SmallChange growingSource growingTarget := by
    rintro ⟨p, old, new, hold, hnew, -, hlength⟩
    refine hlarge ⟨p, new⟩ (AList.mem_lookup_iff.mp hnew) ?_ hlength
    exact (mem_files_iff growingSource p).mpr ⟨old, hold⟩
  have hclash : ¬ Clash growingSource growingTarget := by
    rintro ⟨p, hp, hnew, q, hq, hpq⟩
    exact hapart p hp hnew q hq hpq
  rcases (applyPatch_roundTrip_iff growingHash growingSource growingTarget "1.0.0" "1.1.0" _
    ⟨List.Perm.refl _, List.Perm.refl _, rfl⟩ dir dir hdir hdir).mpr ⟨hsmall, hclash⟩ with
    ⟨after, hafter, hfiles⟩
  exact ⟨dir, after, hdir, hafter, hfiles⟩

/-- A configuration file. -/
def oldConfig : FileMap :=
  treeOf [⟨["app.cfg"], [1]⟩] (by decide) (by decide) (by decide)

/-- The configuration file with its one byte changed. -/
def newConfig : FileMap :=
  treeOf [⟨["app.cfg"], [2]⟩] (by decide) (by decide) (by decide)

/-- The directory that holds the configuration file. -/
def configDir : Dir :=
  dirOf [⟨[], .dir⟩, ⟨["app.cfg"], .file [1]⟩] (by decide)

/-- A changed file of one byte keeps its old content, whatever the hash. -/
theorem applyPatch_keeps_old_content : ¬ ∃ sha256 after,
      applyPatch sha256 (generatePatch sha256 oldConfig newConfig "1.0.0" "1.1.0")
        configDir configDir = .ok after ∧
      ∀ p, after.fileAt p = newConfig.files.lookup p := by
  rintro ⟨sha256, after, hafter, hfiles⟩
  have hsame : configDir = after := Except.ok.inj hafter
  have hfile := hfiles ["app.cfg"]
  rw [← hsame] at hfile
  exact absurd hfile (by decide)

end OpenFlight.Updater
