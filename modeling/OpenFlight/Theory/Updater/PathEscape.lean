import OpenFlight.Core.Updater.OnDisk

/-!
# Updates and the Directory They Are For

Which files an update can write or remove.

The appliers join each path of a manifest or a patch to the directory that is updated
and use what comes out. Nothing looks at the path, so an absolute one stands for
itself and two dots lead out of the directory. All that can keep an entry from being
carried out is a hash that no content has, or for the patches a delta that cannot
come to the content it promises. So an update stays inside the directory exactly if
the paths of all entries that can be reached lead there.

A file system that answers what is asked of it reaches every entry: it has the
contents with the hashes that are expected, and nothing fails.

## Main definitions

* `StaysInside`: What is written or removed is inside the directory.
* `ManifestPathsInside`, `PatchPathsInside`: The paths that can be reached lead there.

## Theorems

* `appliers_stay_inside_iff`: When an update stays inside the directory.
* `appliers_escape`: Updates that do not.
-/

namespace OpenFlight.Updater.OnDisk

open Faulty

section

variable {ω : Type} (allowed : PathText → Prop) (inv : Touching ω → Prop)

/-- A property that outlasts all that is done to the paths that are allowed. -/
structure Stable : Prop where
  disk : ∀ s disk, inv s → inv { s with disk := disk }
  touched : ∀ s p, allowed p → inv s → inv { s with touched := s.touched ++ [p] }
  noted : ∀ s p original, allowed p → inv s →
    inv { s with applied := s.applied ++ [(p, original)] }
  undone : ∀ s, inv s → ∀ entry ∈ s.applied, allowed entry.1

variable {allowed inv} (h : Stable allowed inv)

include h

theorem query_maintains {α : Type} (f : ω → α × ω) : Maintains inv (query f) :=
  fun s hs => ⟨rfl, fun _ _ => h.disk s _ hs, fun _ he => absurd he (by simp [query])⟩

theorem call_maintains {α : Type} (wrap : IoError → UpdateError) (f : ω → Except IoError α × ω) :
    Maintains inv (call wrap f) :=
  fun s hs => ⟨rfl, fun _ _ => h.disk s _ hs, fun _ _ => h.disk s _ hs⟩

theorem touch_maintains {path : PathText} (hpath : allowed path)
    (f : ω → Except IoError Unit × ω) : Maintains inv (touch path f) :=
  maintains_bind (maintains_update fun s hs => h.touched s path hpath hs)
    fun _ => call_maintains h _ f

theorem pushApplied_maintains {path : PathText} (hpath : allowed path) (original : Option Bytes) :
    Maintains inv (pushApplied path original) :=
  maintains_update fun s hs => h.noted s path original hpath hs

variable (fs : FileSystem ω)

theorem applyFile_maintains (installDir contentDir : PathText) (fu : FileUpdate)
    (hpath : allowed (joinPath installDir fu.path)) :
    Maintains inv (applyFile fs installDir contentDir fu) := by
  unfold applyFile
  cases fu.operation with
  | add =>
      refine maintains_bind (call_maintains h _ _) fun _ => ?_
      refine maintains_bind (call_maintains h _ _) fun _ => ?_
      exact maintains_bind (touch_maintains h hpath _) fun _ => pushApplied_maintains h hpath _
  | modify =>
      refine maintains_bind (call_maintains h _ _) fun _ => ?_
      refine maintains_bind (call_maintains h _ _) fun _ => ?_
      exact maintains_bind (touch_maintains h hpath _) fun _ => pushApplied_maintains h hpath _
  | remove =>
      refine maintains_bind (call_maintains h _ _) fun _ => ?_
      exact maintains_bind (touch_maintains h hpath _) fun _ => pushApplied_maintains h hpath _

theorem undoFile_maintains (entry : PathText × Option Bytes) (hpath : allowed entry.1) :
    Maintains inv (undoFile fs entry) := by
  unfold undoFile
  cases entry.2 with
  | some bytes => exact touch_maintains h hpath _
  | none => exact touch_maintains h hpath _

theorem rollbackApplied_maintains : Maintains inv (rollbackApplied fs) := by
  intro s hs
  refine maintains_forEach (fun entry hentry => ?_) s hs
  refine maintains_attempt (undoFile_maintains h fs entry ?_)
  exact h.undone s hs entry (List.mem_reverse.mp hentry)

theorem applyOrRollback_maintains (installDir contentDir : PathText) (manifest : UpdateManifest)
    (hpaths : ∀ fu ∈ manifest.files, allowed (joinPath installDir fu.path)) :
    Maintains inv (applyOrRollback fs installDir contentDir manifest) := by
  intro s hs
  have hinner : Maintains inv (forEach manifest.files (applyFile fs installDir contentDir)) :=
    maintains_forEach fun fu hfu =>
      applyFile_maintains h fs installDir contentDir fu (hpaths fu hfu)
  have hquiet := (hinner s hs).1
  have hstate := maintains_state hinner s hs
  unfold QuietMeets applyOrRollback
  cases hrun : forEach manifest.files (applyFile fs installDir contentDir) ⟨s, []⟩ with
  | mk result w =>
      rw [hrun] at hquiet hstate
      rcases w with ⟨s', faults⟩
      have hfaults : faults = [] := hquiet
      subst hfaults
      have hrollback := rollbackApplied_maintains h fs s' hstate
      have hback := maintains_state (rollbackApplied_maintains h fs) s' hstate
      cases result with
      | ok a => exact ⟨rfl, fun _ _ => hstate, fun _ _ => hstate⟩
      | error e => exact ⟨hrollback.1, fun _ _ => hback, fun _ _ => hback⟩

theorem createNewFile_maintains (targetDir : PathText) (file : PathText × Bytes)
    (hpath : allowed (joinPath targetDir file.1)) :
    Maintains inv (createNewFile fs targetDir file) :=
  maintains_bind (call_maintains h _ _) fun _ => touch_maintains h hpath _

theorem deleteFile_maintains (targetDir path : PathText)
    (hpath : allowed (joinPath targetDir path)) :
    Maintains inv (deleteFile fs targetDir path) := by
  refine maintains_bind (query_maintains h _) fun there => ?_
  cases there with
  | false => exact maintains_pure _
  | true => exact touch_maintains h hpath _

theorem removeTempDir_maintains (tempDir : PathText) :
    Maintains inv (removeTempDir fs tempDir) := by
  refine maintains_bind (query_maintains h _) fun there => ?_
  cases there with
  | false => exact maintains_pure _
  | true => exact call_maintains h _ _

end

section

variable (sha256 : Bytes → String) (cwd : List (List Char))

/-- Every file that is written or removed, whatever the file system does, is inside the
    directory. -/
def StaysInside (dir : PathText) (applier : ∀ {ω : Type}, FileSystem ω → Applier ω Unit) : Prop :=
  ∀ (ω : Type) (fs : FileSystem ω) (disk : ω),
    ∀ p ∈ (applier fs ⟨{ disk := disk }, []⟩).2.state.touched, Inside cwd dir p

/-- The paths of a manifest lead into the directory, unless a hash that is expected is of no
    content. -/
def ManifestPathsInside (manifest : UpdateManifest) (installDir : PathText) : Prop :=
  (∀ fu ∈ manifest.files, fu.operation ≠ .add → ∃ content, sha256 content = fu.hashBefore) →
    ∀ fu ∈ manifest.files, Inside cwd installDir (joinPath installDir fu.path)

/-- The operations of a delta can be carried out on some source. -/
def Writable (delta : FileDelta) : Prop :=
  ∃ source content, delta.operations.foldlM (applyOperation source) [] = .ok content

/-- The operations of a delta make the content that it promises of some source. -/
def Completable (delta : FileDelta) : Prop :=
  ∃ source content, delta.operations.foldlM (applyOperation source) [] = .ok content ∧
    sha256 content = delta.targetHash

/-- The paths of a patch lead into the directory, apart from those of entries that are
    not reached. -/
def PatchPathsInside (patch : DeltaPatch) (targetDir : PathText) : Prop :=
  (∀ delta ∈ patch.files, ∃ content, sha256 content = delta.sourceHash) →
    (∀ done delta rest, patch.files = done ++ delta :: rest →
      (∀ earlier ∈ done, Completable sha256 earlier) → Writable delta →
        Inside cwd targetDir (joinPath targetDir delta.targetPath)) ∧
    ((∀ delta ∈ patch.files, Completable sha256 delta) →
      (∀ file ∈ patch.newFiles, Inside cwd targetDir (joinPath targetDir file.1)) ∧
        ∀ path ∈ patch.deletedFiles, Inside cwd targetDir (joinPath targetDir path))

/-- Everything that was touched or noted is inside the directory. -/
structure AllInside {ω : Type} (dir : PathText) (s : Touching ω) : Prop where
  touched : ∀ p ∈ s.touched, Inside cwd dir p
  applied : ∀ entry ∈ s.applied, Inside cwd dir entry.1

theorem allInside_stable {ω : Type} (dir : PathText) :
    Stable (Inside cwd dir) fun s : Touching ω => AllInside cwd dir s where
  disk _ _ hs := ⟨hs.touched, hs.applied⟩
  touched s p hp hs := by
    refine ⟨fun q hq => ?_, hs.applied⟩
    rcases List.mem_append.mp hq with hold | hnew
    · exact hs.touched q hold
    · rw [List.mem_singleton.mp hnew]
      exact hp
  noted s p original hp hs := by
    refine ⟨hs.touched, fun entry hentry => ?_⟩
    rcases List.mem_append.mp hentry with hold | hnew
    · exact hs.applied entry hold
    · rw [List.mem_singleton.mp hnew]
      exact hp
  undone s hs := hs.applied

end

section

variable {ω : Type} {allowed : PathText → Prop} {inv : Touching ω → Prop} (h : Stable allowed inv)
  (fs : FileSystem ω) (sha256 : Bytes → String)

include h

/-- A file that passes the pre-check shows that its hash is of a content. -/
theorem preCheckFile_knows (installDir : PathText) (fu : FileUpdate) (s : Touching ω) (hs : inv s) :
    QuietMeets (preCheckFile fs sha256 installDir fu) s
      (fun _ s' => inv s' ∧ (fu.operation ≠ .add → ∃ content, sha256 content = fu.hashBefore))
      inv := by
  have hhash : QuietMeets (preCheckHash fs sha256 installDir fu) s
      (fun _ s' => inv s' ∧ (fu.operation ≠ .add → ∃ content, sha256 content = fu.hashBefore))
      inv := by
    refine quiet_bind (call_maintains h _ _ s hs) fun actual s' hs' => ?_
    by_cases hactual : sha256 actual = fu.hashBefore
    · rw [if_neg (not_not.mpr hactual)]
      exact quiet_pure ⟨hs', fun _ => ⟨actual, hactual⟩⟩
    · rw [if_pos hactual]
      exact quiet_fail hs'
  unfold preCheckFile
  cases hoperation : fu.operation with
  | add =>
      refine quiet_bind (query_maintains h _ s hs) fun there s' hs' => ?_
      cases there with
      | false => exact quiet_pure ⟨hs', fun hne => absurd rfl hne⟩
      | true => exact quiet_fail hs'
  | modify =>
      rw [hoperation] at hhash
      exact hhash
  | remove =>
      rw [hoperation] at hhash
      exact hhash

theorem applyManifest_maintains (installDir contentDir : PathText) (manifest : UpdateManifest)
    (hpaths : (∀ fu ∈ manifest.files, fu.operation ≠ .add →
        ∃ content, sha256 content = fu.hashBefore) →
      ∀ fu ∈ manifest.files, allowed (joinPath installDir fu.path)) :
    Maintains inv (applyManifest fs sha256 installDir contentDir manifest) := by
  intro s hs
  have hcheck : QuietMeets (forEach manifest.files (preCheckFile fs sha256 installDir)) s
      (fun _ s' => inv s' ∧ ∀ fu ∈ manifest.files, fu.operation ≠ .add →
        ∃ content, sha256 content = fu.hashBefore) inv := by
    refine quiet_forEach_done hs fun _ fu _ _ _ s' hs' => ?_
    exact preCheckFile_knows h fs sha256 installDir fu s' hs'
  refine quiet_bind hcheck ?_
  rintro _ s' ⟨hs', hknown⟩
  exact applyOrRollback_maintains h fs installDir contentDir manifest (hpaths hknown) s' hs'

variable (sourceDir : PathText)

/-- A delta whose source is verified has a hash of a content. -/
theorem verifySourceFile_knows (delta : FileDelta) (s : Touching ω) (hs : inv s) :
    QuietMeets (verifySourceFile fs sha256 sourceDir delta) s
      (fun _ s' => inv s' ∧ ∃ content, sha256 content = delta.sourceHash) inv := by
  refine quiet_bind (query_maintains h _ s hs) fun there s1 hs1 => ?_
  cases there with
  | false => exact quiet_fail hs1
  | true =>
      refine quiet_bind (call_maintains h _ _ s1 hs1) fun content s2 hs2 => ?_
      by_cases hcontent : sha256 content = delta.sourceHash
      · rw [if_neg (not_not.mpr hcontent)]
        exact quiet_pure ⟨hs2, content, hcontent⟩
      · rw [if_pos hcontent]
        exact quiet_fail hs2

section

variable (targetDir : PathText) (delta : FileDelta)
  (hpath : Writable delta → allowed (joinPath targetDir delta.targetPath))

include targetDir delta hpath

/-- A delta that is applied to its end is one that can be completed. -/
theorem applyFileDelta_completes (s : Touching ω) (hs : inv s) :
    QuietMeets (applyFileDelta fs sha256 sourceDir targetDir delta) s
      (fun _ s' => inv s' ∧ Completable sha256 delta) inv := by
  refine quiet_bind (call_maintains h _ _ s hs) fun _ s1 hs1 => ?_
  refine quiet_bind (call_maintains h _ _ s1 hs1) fun source s2 hs2 => ?_
  cases hcontent : delta.operations.foldlM (applyOperation source) [] with
  | error e => exact quiet_fail hs2
  | ok content =>
      have htouch := touch_maintains h (hpath ⟨source, content, hcontent⟩)
        (fs.write (joinPath targetDir delta.targetPath) content)
      refine quiet_bind (htouch s2 hs2) fun _ s3 hs3 => ?_
      by_cases hhash : sha256 content = delta.targetHash
      · rw [if_neg (not_not.mpr hhash)]
        exact quiet_pure ⟨hs3, source, content, hcontent, hhash⟩
      · rw [if_pos hhash]
        exact quiet_fail hs3

theorem applyFileDelta_maintains :
    Maintains inv (applyFileDelta fs sha256 sourceDir targetDir delta) :=
  fun s hs => quiet_mono (applyFileDelta_completes h fs sha256 sourceDir targetDir delta hpath s hs)
    (fun _ _ hs' => hs'.1) fun _ hs' => hs'

end

theorem applyPatch_maintains (tempDir sourceDir targetDir : PathText) (patch : DeltaPatch)
    (hpaths : (∀ delta ∈ patch.files, ∃ content, sha256 content = delta.sourceHash) →
      (∀ done delta rest, patch.files = done ++ delta :: rest →
        (∀ earlier ∈ done, Completable sha256 earlier) → Writable delta →
          allowed (joinPath targetDir delta.targetPath)) ∧
      ((∀ delta ∈ patch.files, Completable sha256 delta) →
        (∀ file ∈ patch.newFiles, allowed (joinPath targetDir file.1)) ∧
          ∀ path ∈ patch.deletedFiles, allowed (joinPath targetDir path))) :
    Maintains inv (applyPatch fs sha256 tempDir sourceDir targetDir patch) := by
  intro s hs
  refine quiet_bind (call_maintains h _ _ s hs) fun _ s1 hs1 => ?_
  have hverify : QuietMeets (forEach patch.files (verifySourceFile fs sha256 sourceDir)) s1
      (fun _ s' => inv s' ∧ ∀ delta ∈ patch.files, ∃ content, sha256 content = delta.sourceHash)
      inv := by
    refine quiet_forEach_done hs1 fun _ delta _ _ _ s' hs' => ?_
    exact verifySourceFile_knows h fs sha256 sourceDir delta s' hs'
  refine quiet_bind hverify ?_
  rintro _ s2 ⟨hs2, hknown⟩
  rcases hpaths hknown with ⟨hdeltas, hrest⟩
  have happly : QuietMeets
      (forEach patch.files (applyFileDelta fs sha256 sourceDir targetDir)) s2
      (fun _ s' => inv s' ∧ ∀ delta ∈ patch.files, Completable sha256 delta) inv := by
    refine quiet_forEach_done hs2 fun done delta rest hsplit hdone s' hs' => ?_
    exact applyFileDelta_completes h fs sha256 sourceDir targetDir delta
      (hdeltas done delta rest hsplit hdone) s' hs'
  refine quiet_bind happly ?_
  rintro _ s3 ⟨hs3, hcomplete⟩
  rcases hrest hcomplete with ⟨hnew, hdeleted⟩
  have hend : Maintains inv (do
      forEach patch.newFiles (createNewFile fs targetDir)
      forEach patch.deletedFiles (deleteFile fs targetDir)
      removeTempDir fs tempDir) := by
    refine maintains_bind (maintains_forEach fun file hfile => ?_) fun _ => ?_
    · exact createNewFile_maintains h fs targetDir file (hnew file hfile)
    refine maintains_bind (maintains_forEach fun path hpath => ?_) fun _ => ?_
    · exact deleteFile_maintains h fs targetDir path (hdeleted path hpath)
    exact removeTempDir_maintains h fs tempDir
  exact hend s3 hs3

end

section

variable (sha256 : Bytes → String)

/-- A file system on which nothing fails, and which is asked for one content after the other. -/
def scripted (there : Bool) : FileSystem (List Bytes) where
  pathExists _ script := (there, script)
  read _ script := (.ok (script.headD []), script.tail)
  createDirAll _ script := (.ok (), script)
  createParent _ script := (.ok (), script)
  removeDirAll _ script := (.ok (), script)
  write _ _ script := (.ok (), script)
  removeFile _ script := (.ok (), script)

section

variable {α β : Type}

/-- With the contents it asks for in front of the script, the program ends with a value and
    has touched some paths. -/
def Carries (x : Applier (List Bytes) α) (a : α) (paths : List PathText) : Prop :=
  ∃ asked, ∀ rest applied touched, ∃ applied',
    x ⟨{ disk := asked ++ rest, applied := applied, touched := touched }, []⟩ =
      (.ok a, ⟨{ disk := rest, applied := applied', touched := touched ++ paths }, []⟩)

/-- With the contents it asks for in front of the script, the program touches the path,
    however it ends. -/
def Hits (x : Applier (List Bytes) α) (p : PathText) : Prop :=
  ∃ asked, ∀ rest applied touched,
    p ∈ (x ⟨{ disk := asked ++ rest, applied := applied, touched := touched }, []⟩).2.state.touched

variable {x : Applier (List Bytes) α}

/-- A step that leaves the state as it is. -/
theorem carries_still {a : α} (h : ∀ s, x ⟨s, []⟩ = (.ok a, ⟨s, []⟩)) : Carries x a [] := by
  refine ⟨[], fun rest applied touched => ⟨applied, ?_⟩⟩
  rw [List.nil_append, List.append_nil]
  exact h _

theorem carries_pure (a : α) : Carries (pure a) a [] :=
  carries_still fun _ => rfl

variable (p : PathText)

theorem carries_query {there : Bool} : Carries (query ((scripted there).pathExists p)) there [] :=
  carries_still fun _ => rfl

theorem carries_call (wrap : IoError → UpdateError) :
    Carries (call wrap fun script => (.ok (), script)) () [] :=
  carries_still fun _ => rfl

theorem carries_read {there : Bool} (wrap : IoError → UpdateError) (p : PathText)
    (content : Bytes) : Carries (call wrap ((scripted there).read p)) content [] := by
  refine ⟨[content], fun rest applied touched => ⟨applied, ?_⟩⟩
  rw [List.append_nil]
  rfl

theorem carries_touch : Carries (touch p fun script => (.ok (), script)) () [p] :=
  ⟨[], fun _ applied _ => ⟨applied, rfl⟩⟩

theorem carries_pushApplied (original : Option Bytes) : Carries (pushApplied p original) () [] := by
  refine ⟨[], fun rest applied touched => ⟨applied ++ [(p, original)], ?_⟩⟩
  rw [List.append_nil]
  rfl

variable {f : α → Applier (List Bytes) β} {paths : List PathText}

theorem carries_bind {a : α} {b : β} {paths' : List PathText} (hx : Carries x a paths)
    (hf : Carries (f a) b paths') : Carries (x >>= f) b (paths ++ paths') := by
  rcases hx with ⟨asked, hx⟩
  rcases hf with ⟨asked', hf⟩
  refine ⟨asked ++ asked', fun rest applied touched => ?_⟩
  rcases hx (asked' ++ rest) applied touched with ⟨applied1, hx⟩
  rcases hf rest applied1 (touched ++ paths) with ⟨applied2, hf⟩
  refine ⟨applied2, ?_⟩
  rw [List.append_assoc, bind_apply_ok x f _ _ a hx, hf, List.append_assoc]

variable {body : β → Applier (List Bytes) Unit}

theorem carries_forEach {l : List β} {paths : β → List PathText}
    (h : ∀ b ∈ l, Carries (body b) () (paths b)) :
    Carries (forEach l body) () (l.flatMap paths) := by
  induction l with
  | nil => exact carries_pure ()
  | cons b rest ih =>
      rw [List.forall_mem_cons] at h
      rw [List.flatMap_cons]
      exact carries_bind h.1 (ih h.2)

theorem hits_of_carries {a : α} {p : PathText} (hx : Carries x a paths) (hp : p ∈ paths) :
    Hits x p := by
  rcases hx with ⟨asked, hx⟩
  refine ⟨asked, fun rest applied touched => ?_⟩
  rcases hx rest applied touched with ⟨applied', hx⟩
  rw [hx]
  exact List.mem_append_right _ hp

theorem hits_bind {a : α} {p : PathText} (hx : Carries x a paths) (hf : Hits (f a) p) :
    Hits (x >>= f) p := by
  rcases hx with ⟨asked, hx⟩
  rcases hf with ⟨asked', hf⟩
  refine ⟨asked ++ asked', fun rest applied touched => ?_⟩
  rcases hx (asked' ++ rest) applied touched with ⟨applied1, hx⟩
  rw [List.append_assoc, bind_apply_ok x f _ _ a hx]
  exact hf rest applied1 (touched ++ paths)

/-- A path that is touched stays so. -/
theorem mem_touched_stable {ω : Type} :
    Stable (fun _ => True) fun s : Touching ω => p ∈ s.touched where
  disk _ _ hs := hs
  touched _ _ _ hs := List.mem_append_left _ hs
  noted _ _ _ _ hs := hs
  undone _ _ _ _ := trivial

theorem anything_stable {ω : Type} : Stable (fun _ => True) fun _ : Touching ω => True where
  disk _ _ hs := hs
  touched _ _ _ hs := hs
  noted _ _ _ _ hs := hs
  undone _ _ _ _ := trivial

/-- What the first part touches is touched in the end, however that part ends. -/
theorem hits_bind_of_first {p : PathText} (hx : Hits x p) (hquiet : Maintains (fun _ => True) x)
    (hf : ∀ a, Maintains (fun s : Touching (List Bytes) => p ∈ s.touched) (f a)) :
    Hits (x >>= f) p := by
  rcases hx with ⟨asked, hx⟩
  refine ⟨asked, fun rest applied touched => ?_⟩
  have hmem := hx rest applied touched
  have hnone := (hquiet { disk := asked ++ rest, applied := applied, touched := touched } trivial).1
  cases hrun : x ⟨{ disk := asked ++ rest, applied := applied, touched := touched }, []⟩ with
  | mk result w =>
      rw [hrun] at hmem hnone
      rcases w with ⟨s', faults⟩
      have hfaults : faults = [] := hnone
      subst hfaults
      cases result with
      | error e =>
          rw [bind_apply_error x f _ _ e hrun]
          exact hmem
      | ok a =>
          rw [bind_apply_ok x f _ _ a hrun]
          exact maintains_state (hf a) s' hmem

theorem hits_forEach {done rest : List β} {b : β} {p : PathText}
    (hdone : ∀ c ∈ done, ∃ paths, Carries (body c) () paths) (hb : Hits (body b) p)
    (hquiet : Maintains (fun _ => True) (body b))
    (hrest : ∀ c ∈ rest, Maintains (fun s : Touching (List Bytes) => p ∈ s.touched) (body c)) :
    Hits (forEach (done ++ b :: rest) body) p := by
  induction done with
  | nil => exact hits_bind_of_first hb hquiet fun _ => maintains_forEach hrest
  | cons c done ih =>
      rw [List.forall_mem_cons] at hdone
      rcases hdone.1 with ⟨paths, hc⟩
      exact hits_bind hc (ih hdone.2)

end

variable (installDir : PathText)

theorem preCheckFile_carries (fu : FileUpdate)
    (hknown : fu.operation ≠ .add → ∃ content, sha256 content = fu.hashBefore) :
    Carries (preCheckFile (scripted false) sha256 installDir fu) () [] := by
  have hhash : fu.operation ≠ .add →
      Carries (preCheckHash (scripted false) sha256 installDir fu) () [] := by
    intro hne
    rcases hknown hne with ⟨content, hcontent⟩
    refine carries_bind (carries_read _ _ content) ?_
    rw [if_neg (not_not.mpr hcontent)]
    exact carries_pure ()
  unfold preCheckFile
  cases hoperation : fu.operation with
  | add => exact carries_bind (carries_query _) (carries_pure ())
  | modify => exact hhash (by simp [hoperation])
  | remove => exact hhash (by simp [hoperation])

theorem applyFile_carries (contentDir : PathText) (fu : FileUpdate) :
    Carries (applyFile (scripted false) installDir contentDir fu) ()
      [joinPath installDir fu.path] := by
  unfold applyFile
  cases fu.operation with
  | add =>
      refine carries_bind (carries_call _) (carries_bind (carries_read _ _ []) ?_)
      exact carries_bind (carries_touch _) (carries_pushApplied _ _)
  | modify =>
      refine carries_bind (carries_read _ _ []) (carries_bind (carries_read _ _ []) ?_)
      exact carries_bind (carries_touch _) (carries_pushApplied _ _)
  | remove =>
      refine carries_bind (carries_read _ _ []) ?_
      exact carries_bind (carries_touch _) (carries_pushApplied _ _)

theorem applyOrRollback_carries {installDir contentDir : PathText} {manifest : UpdateManifest}
    {paths : List PathText}
    (h : Carries (forEach manifest.files (applyFile (scripted false) installDir contentDir)) ()
      paths) :
    Carries (applyOrRollback (scripted false) installDir contentDir manifest) () paths := by
  rcases h with ⟨asked, h⟩
  refine ⟨asked, fun rest applied touched => ?_⟩
  rcases h rest applied touched with ⟨applied', hrun⟩
  refine ⟨applied', ?_⟩
  rw [applyOrRollback, hrun]

/-- Every file of a manifest with attainable hashes can come to be touched. -/
theorem applyManifest_reaches (contentDir : PathText) (manifest : UpdateManifest)
    (hknown : ∀ fu ∈ manifest.files, fu.operation ≠ .add →
      ∃ content, sha256 content = fu.hashBefore) (fu : FileUpdate) (hfu : fu ∈ manifest.files) :
    Hits (applyManifest (scripted false) sha256 installDir contentDir manifest)
      (joinPath installDir fu.path) := by
  have hcheck : Carries
      (forEach manifest.files (preCheckFile (scripted false) sha256 installDir)) () _ :=
    carries_forEach fun fu hfu => preCheckFile_carries sha256 installDir fu (hknown fu hfu)
  have hfiles : Carries
      (forEach manifest.files (applyFile (scripted false) installDir contentDir)) () _ :=
    carries_forEach fun fu _ => applyFile_carries installDir contentDir fu
  refine hits_bind hcheck (hits_of_carries (applyOrRollback_carries hfiles) ?_)
  exact List.mem_flatMap.mpr ⟨fu, hfu, by simp⟩

variable (sourceDir : PathText)

theorem verifySourceFile_carries (delta : FileDelta)
    (hknown : ∃ content, sha256 content = delta.sourceHash) :
    Carries (verifySourceFile (scripted true) sha256 sourceDir delta) () [] := by
  rcases hknown with ⟨content, hcontent⟩
  refine carries_bind (carries_query _) (carries_bind (carries_read _ _ content) ?_)
  rw [if_neg (not_not.mpr hcontent)]
  exact carries_pure ()

theorem applyFileDelta_carries (targetDir : PathText) (delta : FileDelta)
    (hdelta : Completable sha256 delta) :
    Carries (applyFileDelta (scripted true) sha256 sourceDir targetDir delta) ()
      [joinPath targetDir delta.targetPath] := by
  rcases hdelta with ⟨source, content, hcontent, hhash⟩
  refine carries_bind (carries_call _) (carries_bind (carries_read _ _ source) ?_)
  rw [hcontent]
  refine carries_bind (carries_touch _) ?_
  rw [if_neg (not_not.mpr hhash)]
  exact carries_pure ()

/-- The file is written before its hash is checked. -/
theorem applyFileDelta_hits (targetDir : PathText) (delta : FileDelta) (hdelta : Writable delta) :
    Hits (applyFileDelta (scripted true) sha256 sourceDir targetDir delta)
      (joinPath targetDir delta.targetPath) := by
  rcases hdelta with ⟨source, content, hcontent⟩
  refine hits_bind (carries_call _) (hits_bind (carries_read _ _ source) ?_)
  rw [hcontent]
  refine hits_bind_of_first (hits_of_carries (carries_touch _) (by simp))
    (touch_maintains anything_stable trivial _) fun _ => ?_
  split_ifs
  · exact maintains_fail _
  · exact maintains_pure _

theorem createNewFile_carries (targetDir : PathText) (file : PathText × Bytes) :
    Carries (createNewFile (scripted true) targetDir file) () [joinPath targetDir file.1] :=
  carries_bind (carries_call _) (carries_touch _)

theorem deleteFile_carries (targetDir path : PathText) :
    Carries (deleteFile (scripted true) targetDir path) () [joinPath targetDir path] :=
  carries_bind (carries_query _) (carries_touch _)

/-- Every entry of a patch that is not held up by a hash can come to be touched. -/
theorem applyPatch_reaches (tempDir sourceDir targetDir : PathText) (patch : DeltaPatch)
    (hknown : ∀ delta ∈ patch.files, ∃ content, sha256 content = delta.sourceHash) :
    (∀ done delta rest, patch.files = done ++ delta :: rest →
      (∀ earlier ∈ done, Completable sha256 earlier) → Writable delta →
        Hits (applyPatch (scripted true) sha256 tempDir sourceDir targetDir patch)
          (joinPath targetDir delta.targetPath)) ∧
    ((∀ delta ∈ patch.files, Completable sha256 delta) → ∀ path,
      path ∈ patch.newFiles.map Prod.fst ++ patch.deletedFiles →
        Hits (applyPatch (scripted true) sha256 tempDir sourceDir targetDir patch)
          (joinPath targetDir path)) := by
  have hverify : Carries
      (forEach patch.files (verifySourceFile (scripted true) sha256 sourceDir)) () _ :=
    carries_forEach fun delta hdelta =>
      verifySourceFile_carries sha256 sourceDir delta (hknown delta hdelta)
  constructor
  · -- A path that was touched stays so, whatever the entries after it do.
    intro done delta rest hsplit hdone hdelta
    have hstable : Stable _ fun s : Touching (List Bytes) =>
        joinPath targetDir delta.targetPath ∈ s.touched := mem_touched_stable _
    refine hits_bind (carries_call _) (hits_bind hverify (hits_bind_of_first ?_ ?_ fun _ => ?_))
    · rw [hsplit]
      refine hits_forEach (fun earlier hearlier => ?_)
        (applyFileDelta_hits sha256 sourceDir targetDir delta hdelta) ?_ fun later _ => ?_
      · exact ⟨_, applyFileDelta_carries sha256 sourceDir targetDir earlier
          (hdone earlier hearlier)⟩
      · exact applyFileDelta_maintains anything_stable _ sha256 _ _ delta fun _ => trivial
      · exact applyFileDelta_maintains hstable _ sha256 _ _ later fun _ => trivial
    · exact maintains_forEach fun delta _ =>
        applyFileDelta_maintains anything_stable _ sha256 _ _ delta fun _ => trivial
    · refine maintains_bind (maintains_forEach fun file _ => ?_) fun _ => ?_
      · exact createNewFile_maintains hstable _ targetDir file trivial
      refine maintains_bind (maintains_forEach fun path _ => ?_) fun _ => ?_
      · exact deleteFile_maintains hstable _ targetDir path trivial
      exact removeTempDir_maintains hstable _ tempDir
  · -- New and deleted files come after all of the deltas, so these have to go through.
    intro hcomplete path hpath
    have hdeltas : Carries
        (forEach patch.files (applyFileDelta (scripted true) sha256 sourceDir targetDir)) () _ :=
      carries_forEach fun delta hdelta =>
        applyFileDelta_carries sha256 sourceDir targetDir delta (hcomplete delta hdelta)
    have hnew : Carries (forEach patch.newFiles (createNewFile (scripted true) targetDir)) () _ :=
      carries_forEach fun file _ => createNewFile_carries targetDir file
    have hdeleted : Carries
        (forEach patch.deletedFiles (deleteFile (scripted true) targetDir)) () _ :=
      carries_forEach fun path _ => deleteFile_carries targetDir path
    have htemp : Carries (removeTempDir (scripted true) tempDir) () [] :=
      carries_bind (carries_query _) (carries_call _)
    refine hits_bind (carries_call _) (hits_bind hverify (hits_bind hdeltas ?_))
    refine hits_of_carries (carries_bind hnew (carries_bind hdeleted htemp)) ?_
    rcases List.mem_append.mp hpath with hmem | hmem
    · rcases List.mem_map.mp hmem with ⟨file, hfile, rfl⟩
      exact List.mem_append_left _ (List.mem_flatMap.mpr ⟨file, hfile, by simp⟩)
    · refine List.mem_append_right _ (List.mem_append_left _ ?_)
      exact List.mem_flatMap.mpr ⟨path, hmem, by simp⟩

/-- A path that can be hit is one that has to be inside. -/
theorem inside_of_hits {cwd : List (List Char)} {dir p : PathText}
    {applier : ∀ {ω : Type}, FileSystem ω → Applier ω Unit} {there : Bool}
    (h : StaysInside cwd dir applier) (hp : Hits (applier (scripted there)) p) :
    Inside cwd dir p := by
  rcases hp with ⟨asked, hp⟩
  exact h (List Bytes) (scripted there) (asked ++ []) p (hp [] [] [])

end

section

variable (sha256 : Bytes → String) (cwd : List (List Char))

/-- The appliers write and remove files inside the directory, whatever the file system
    does, exactly if the paths that can be reached lead there. -/
theorem appliers_stay_inside_iff :
    (∀ (manifest : UpdateManifest) (installDir contentDir : PathText),
      StaysInside cwd installDir
        (fun fs => applyManifest fs sha256 installDir contentDir manifest) ↔
          ManifestPathsInside sha256 cwd manifest installDir) ∧
    ∀ (patch : DeltaPatch) (tempDir sourceDir targetDir : PathText),
      StaysInside cwd targetDir
        (fun fs => applyPatch fs sha256 tempDir sourceDir targetDir patch) ↔
          PatchPathsInside sha256 cwd patch targetDir := by
  have hstart : ∀ {ω : Type} (dir : PathText) (disk : ω),
      AllInside cwd dir { disk := disk } := fun dir disk =>
    ⟨fun _ hmem => absurd hmem List.not_mem_nil, fun _ hmem => absurd hmem List.not_mem_nil⟩
  constructor
  · intro manifest installDir contentDir
    constructor
    · intro h hknown fu hfu
      exact inside_of_hits h
        (applyManifest_reaches sha256 installDir contentDir manifest hknown fu hfu)
    · intro h ω fs disk
      exact (maintains_state (applyManifest_maintains (allInside_stable cwd installDir) fs sha256
        installDir contentDir manifest h) _ (hstart installDir disk)).touched
  · intro patch tempDir sourceDir targetDir
    constructor
    · intro h hknown
      rcases applyPatch_reaches sha256 tempDir sourceDir targetDir patch hknown
        with ⟨hdeltas, hfiles⟩
      refine ⟨fun done delta rest hsplit hdone hdelta => ?_, fun hcomplete => ⟨?_, ?_⟩⟩
      · exact inside_of_hits h (hdeltas done delta rest hsplit hdone hdelta)
      · intro file hfile
        refine inside_of_hits h (hfiles hcomplete file.1 (List.mem_append_left _ ?_))
        exact List.mem_map_of_mem hfile
      · intro path hpath
        exact inside_of_hits h (hfiles hcomplete path (List.mem_append_right _ hpath))
    · intro h ω fs disk
      exact (maintains_state (applyPatch_maintains (allInside_stable cwd targetDir) fs sha256
        tempDir sourceDir targetDir patch h) _ (hstart targetDir disk)).touched

end

/-- A file system that does what it is asked to; the directories need not be there. -/
def plainDisk (cwd : List (List Char)) : FileSystem (List (List (List Char) × Bytes)) where
  pathExists p files := ((files.lookup (normalise cwd p)).isSome, files)
  read p files :=
    match files.lookup (normalise cwd p) with
    | some content => (.ok content, files)
    | none => (.error .notFound, files)
  createDirAll _ files := (.ok (), files)
  createParent _ files := (.ok (), files)
  removeDirAll p files := (.ok (), files.filter fun file => !decide (normalise cwd p <+: file.1))
  write p content files := (.ok (), (normalise cwd p, content) :: files)
  removeFile p files :=
    if (files.lookup (normalise cwd p)).isSome then
      (.ok (), files.filter fun file => decide (file.1 ≠ normalise cwd p))
    else (.error .notFound, files)

def appDir : PathText := ['/', 'a', 'p', 'p']

def newDir : PathText := ['/', 'n', '/', 'v']

/-- The file `../x` is to be added. -/
def climbingManifest : UpdateManifest where
  files :=
    [{ path := ['.', '.', '/', 'x']
       hashBefore := ""
       hashAfter := ""
       size := 1
       operation := .add }]

/-- The file `/x` is to be created. -/
def absolutePatch : DeltaPatch where
  newFiles := [(['/', 'x'], [1])]

/-- Whatever the hash is, a file to be added with two dots in its path, and a new file with
    an absolute path, are written outside of the directory. -/
theorem appliers_escape : (¬ ∃ sha256, StaysInside [] appDir
      fun fs => applyManifest fs sha256 appDir newDir climbingManifest) ∧
    ¬ ∃ sha256, StaysInside [] appDir
      fun fs => applyPatch fs sha256 newDir appDir appDir absolutePatch := by
  constructor
  · rintro ⟨sha256, h⟩
    have hmanifest : (applyManifest (plainDisk []) sha256 appDir newDir climbingManifest
        ⟨{ disk := [([['n'], ['x']], [1])] }, []⟩).2.state.touched =
          [['/', 'a', 'p', 'p', '/', '.', '.', '/', 'x']] := rfl
    have hinside := h _ (plainDisk []) [([['n'], ['x']], [1])]
    rw [hmanifest] at hinside
    exact absurd (hinside _ (List.mem_singleton_self _)) (by decide)
  · rintro ⟨sha256, h⟩
    have hpatch : (applyPatch (plainDisk []) sha256 newDir appDir appDir absolutePatch
        ⟨{ disk := [] }, []⟩).2.state.touched = [['/', 'x']] := rfl
    have hinside := h _ (plainDisk []) []
    rw [hpatch] at hinside
    exact absurd (hinside _ (List.mem_singleton_self _)) (by decide)

end OpenFlight.Updater.OnDisk
