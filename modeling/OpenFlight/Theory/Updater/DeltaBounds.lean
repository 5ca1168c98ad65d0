import OpenFlight.Core.Updater.Delta

/-!
# The Bounds of a Delta

What the operations of a file delta produce, and when the check of a copy is
passed by a range that is not there.

A copy is in bounds when its offset and its length together do not exceed the
length of the source. The code adds them as machine words before it compares, and
a sum that wraps around can come out small: the check passes, the range ends
before it starts, and slicing panics. All other deltas behave: a copy past the
end is an error, and without one the target is what the operations say, in order.

The loop stops at the first copy past the end. What counts is therefore the first
one, and `Overruns` says that its sum wraps to a position inside of the source.

## Main definitions

* `piece`, `assembled`: What operations contribute to the target.
* `MeetsDelta`: What is promised of the application of a delta.

## Theorems

* `applyOperation_wrapsInside`, `applyOperation_pastEnd`, `applyOperation_within`:
  One operation.
* `applyFileDelta_meets_iff`: Deltas behave up to a wrapped sum.
-/

namespace OpenFlight.Updater

/-- A copy whose range reaches past the end of the source. -/
def PastEnd (source : Bytes) : DeltaOperation → Prop
  | .copy srcOffset length => source.length < srcOffset + length
  | _ => False

/-- A copy whose end does not fit a word, and is inside of the source once it has wrapped around. -/
def WrapsInside (source : Bytes) : DeltaOperation → Prop
  | .copy srcOffset length =>
      2 ^ 64 ≤ srcOffset + length ∧ srcOffset + length - 2 ^ 64 ≤ source.length
  | _ => False

/-- The numbers of an operation are words. -/
def DeltaOperation.InWords : DeltaOperation → Prop
  | .copy srcOffset length => srcOffset < 2 ^ 64 ∧ length < 2 ^ 64
  | .insert _ => True
  | .delete length => length < 2 ^ 64

/-- What an operation adds to the target. -/
def piece (source : Bytes) : DeltaOperation → Bytes
  | .copy srcOffset length => (source.drop srcOffset).take length
  | .insert data => data
  | .delete _ => []

/-- The copied ranges and the inserted data, in order. -/
def assembled (source : Bytes) (operations : List DeltaOperation) : Bytes :=
  operations.flatMap (piece source)

/-- Some range wraps to one inside of the source, and none before it is past the end. -/
def Overruns (source : Bytes) : List DeltaOperation → Prop
  | [] => False
  | op :: rest => WrapsInside source op ∨ ¬ PastEnd source op ∧ Overruns source rest

section

variable {source : Bytes} {op : DeltaOperation} (content : Bytes)

theorem applyOperation_wrapsInside (hwords : op.InWords) (h : WrapsInside source op) :
    applyOperation source content op = .error .panicked := by
  cases op with
  | copy srcOffset length =>
      rcases hwords with ⟨hoffset, hlength⟩
      rcases h with ⟨hlarge, hinside⟩
      have hstop : (srcOffset + length) % 2 ^ 64 = srcOffset + length - 2 ^ 64 := by omega
      simp only [applyOperation, hstop]
      -- The wrapped end is below the length of the range, hence below its start.
      rw [if_neg (by omega), if_pos (by omega)]
  | insert data => exact absurd h id
  | delete length => exact absurd h id

theorem applyOperation_pastEnd (hwords : op.InWords) (h : PastEnd source op)
    (hwraps : ¬ WrapsInside source op) :
    applyOperation source content op =
      .error (.error (.deltaPatch "Copy operation exceeds source file bounds")) := by
  cases op with
  | copy srcOffset length =>
      rcases hwords with ⟨hoffset, hlength⟩
      have hpast : source.length < srcOffset + length := h
      have hstop : source.length < (srcOffset + length) % 2 ^ 64 := by
        by_cases hlarge : 2 ^ 64 ≤ srcOffset + length
        · have hinside : ¬ srcOffset + length - 2 ^ 64 ≤ source.length := fun hle =>
            hwraps ⟨hlarge, hle⟩
          omega
        · omega
      simp only [applyOperation]
      rw [if_pos hstop]
  | insert data => exact absurd h id
  | delete length => exact absurd h id

theorem applyOperation_within (h : ¬ PastEnd source op) (hwraps : ¬ WrapsInside source op) :
    applyOperation source content op = .ok (content ++ piece source op) := by
  cases op with
  | copy srcOffset length =>
      have hwithin : ¬ source.length < srcOffset + length := h
      have hsmall : srcOffset + length < 2 ^ 64 := by
        by_contra hlarge
        exact hwraps ⟨by omega, by omega⟩
      have hstop : (srcOffset + length) % 2 ^ 64 = srcOffset + length := Nat.mod_eq_of_lt hsmall
      simp only [applyOperation, hstop]
      rw [if_neg hwithin, if_neg (by omega), Nat.add_sub_cancel_left]
      rfl
  | insert data => rfl
  | delete length => rw [piece, List.append_nil]; rfl

end

section

variable (source : Bytes) (operations : List DeltaOperation)

theorem foldlM_panics_iff (hwords : ∀ op ∈ operations, op.InWords) (content : Bytes) :
    operations.foldlM (applyOperation source) content = .error .panicked ↔
      Overruns source operations := by
  induction operations generalizing content with
  | nil => simp [Overruns, pure, Except.pure]
  | cons op rest ih =>
      rw [List.forall_mem_cons] at hwords
      rw [List.foldlM_cons, Overruns]
      by_cases hwraps : WrapsInside source op
      · rw [applyOperation_wrapsInside content hwords.1 hwraps]
        exact ⟨fun _ => Or.inl hwraps, fun _ => rfl⟩
      · by_cases hpast : PastEnd source op
        · -- The loop ends with an error here, and nothing after it counts.
          rw [applyOperation_pastEnd content hwords.1 hpast hwraps]
          simp [bind, Except.bind, hwraps, hpast]
        · rw [applyOperation_within content hpast hwraps]
          simp only [bind, Except.bind, ih hwords.2, hwraps, hpast, false_or, not_false_eq_true,
            true_and]

theorem foldlM_pastEnd (hwords : ∀ op ∈ operations, op.InWords)
    (hpast : ∃ op ∈ operations, PastEnd source op) (content out : Bytes) :
    operations.foldlM (applyOperation source) content ≠ .ok out := by
  induction operations generalizing content with
  | nil => simp at hpast
  | cons op rest ih =>
      rw [List.forall_mem_cons] at hwords
      rw [List.foldlM_cons]
      by_cases hwraps : WrapsInside source op
      · rw [applyOperation_wrapsInside content hwords.1 hwraps]
        simp [bind, Except.bind]
      · by_cases hop : PastEnd source op
        · rw [applyOperation_pastEnd content hwords.1 hop hwraps]
          simp [bind, Except.bind]
        · rw [applyOperation_within content hop hwraps]
          refine ih hwords.2 ?_ _
          rcases hpast with ⟨other, hmem, hother⟩
          rcases List.mem_cons.mp hmem with heq | hmem
          · exact absurd (heq ▸ hother) hop
          · exact ⟨other, hmem, hother⟩

theorem foldlM_within (hwithin : ∀ op ∈ operations, ¬ PastEnd source op)
    (h : ¬ Overruns source operations) (content : Bytes) :
    operations.foldlM (applyOperation source) content =
      .ok (content ++ assembled source operations) := by
  induction operations generalizing content with
  | nil => simp [assembled, pure, Except.pure]
  | cons op rest ih =>
      rw [List.forall_mem_cons] at hwithin
      rw [Overruns, not_or] at h
      rw [List.foldlM_cons, applyOperation_within content hwithin.1 h.1]
      have hrest : ¬ Overruns source rest := fun hover => h.2 ⟨hwithin.1, hover⟩
      have hassembled : assembled source (op :: rest) = piece source op ++ assembled source rest :=
        List.flatMap_cons
      rw [hassembled, ← List.append_assoc]
      exact ih hwithin.2 hrest _

end

section

variable (sha256 : Bytes → String) (source target : Dir) (delta : FileDelta)

/-- What is promised of `apply_file_delta`: it does not panic; a copy past the end of
    the source is an error; otherwise the target gets what the operations assemble,
    which is accepted if its hash is the one that the delta gives. -/
structure MeetsDelta : Prop where
  noPanic : applyFileDelta sha256 source target delta ≠ .error .panicked
  rejects : ∀ content, source.readFile delta.sourcePath = .ok content →
    (∃ op ∈ delta.operations, PastEnd content op) →
    ∃ e, applyFileDelta sha256 source target delta = .error (.error e)
  exact : ∀ content, source.readFile delta.sourcePath = .ok content →
    (∀ op ∈ delta.operations, ¬ PastEnd content op) →
    ∀ target', applyFileDelta sha256 source target delta = .ok target' ↔
      ∃ made, target.createDirAll delta.targetPath.dropLast = .ok made ∧
        made.writeFile delta.targetPath (assembled content delta.operations) = .ok target' ∧
        sha256 (assembled content delta.operations) = delta.targetHash

/-- The call comes to the operations, and the first copy past the end of the source
    is one that wraps around to a position inside. -/
def ReachesOverrun : Prop :=
  (∃ made, target.createDirAll delta.targetPath.dropLast = .ok made) ∧
    ∃ content, source.readFile delta.sourcePath = .ok content ∧
      Overruns content delta.operations

variable {sha256 source target delta}

/-- What is left of the call once the target is assembled: it is written, and then its
    hash is checked. -/
def finishDelta (sha256 : Bytes → String) (delta : FileDelta) (made : Dir) (out : Bytes) :
    Except ApplyFailure Dir := do
  let target ← liftIo (made.writeFile delta.targetPath out)
  if sha256 out ≠ delta.targetHash then
    throw (.error (.deltaPatch ("Target file hash mismatch for " ++ displayPath delta.targetPath
      ++ ": expected " ++ delta.targetHash ++ ", got " ++ sha256 out)))
  return target

/-- It succeeds if both do, and never panics. -/
theorem finishDelta_spec (made : Dir) (out : Bytes) :
    (∀ target', finishDelta sha256 delta made out = .ok target' ↔
      made.writeFile delta.targetPath out = .ok target' ∧ sha256 out = delta.targetHash) ∧
    finishDelta sha256 delta made out ≠ .error .panicked := by
  unfold finishDelta
  cases made.writeFile delta.targetPath out with
  | error e => simp [liftIo, Except.mapError, bind, Except.bind]
  | ok written =>
      by_cases hhash : sha256 out = delta.targetHash
      · simp [liftIo, Except.mapError, bind, Except.bind, pure, Except.pure, hhash]
      · simp [liftIo, Except.mapError, bind, Except.bind, throw, throwThe, MonadExceptOf.throw,
          hhash]

/-- The call, once the directories are made and the source is read. -/
theorem applyFileDelta_eq {made : Dir} {content : Bytes}
    (hmade : target.createDirAll delta.targetPath.dropLast = .ok made)
    (hread : source.readFile delta.sourcePath = .ok content) :
    applyFileDelta sha256 source target delta =
      (delta.operations.foldlM (applyOperation content) [] >>= finishDelta sha256 delta made) := by
  simp only [applyFileDelta, hmade, hread, liftIo, Except.mapError, bind, Except.bind, finishDelta]

section

variable (h : ¬ ((∃ made, target.createDirAll delta.targetPath.dropLast = .ok made) ∧
      ∃ content, source.readFile delta.sourcePath = .ok content))

include h

/-- Before the operations there is only the file system to fail. -/
theorem applyFileDelta_stops :
    ∃ e, applyFileDelta sha256 source target delta = .error (.error (.io e)) := by
  unfold applyFileDelta
  cases hmade : target.createDirAll delta.targetPath.dropLast with
  | error e => exact ⟨e, rfl⟩
  | ok made =>
      cases hread : source.readFile delta.sourcePath with
      | error e => exact ⟨e, rfl⟩
      | ok content => exact absurd ⟨⟨made, hmade⟩, content, hread⟩ h

/-- A call that fails before the operations meets everything. -/
theorem meets_of_stops : MeetsDelta sha256 source target delta := by
  have hstops : ∃ e, applyFileDelta sha256 source target delta = .error (.error (.io e)) :=
    applyFileDelta_stops h
  rcases hstops with ⟨e, he⟩
  refine ⟨by simp [he], fun _ _ _ => ⟨_, he⟩, fun content hread _ target' => ?_⟩
  rw [he]
  refine ⟨nofun, ?_⟩
  rintro ⟨made, hmade, -⟩
  exact absurd ⟨⟨made, hmade⟩, content, hread⟩ h

end

theorem meets_of_pastEnd (hwords : ∀ op ∈ delta.operations, op.InWords) {made : Dir}
    {content : Bytes} (hmade : target.createDirAll delta.targetPath.dropLast = .ok made)
    (hread : source.readFile delta.sourcePath = .ok content)
    (hover : ¬ Overruns content delta.operations)
    (hpast : ∃ op ∈ delta.operations, PastEnd content op) :
    MeetsDelta sha256 source target delta := by
  have herror : ∃ e, applyFileDelta sha256 source target delta = .error (.error e) := by
    rw [applyFileDelta_eq hmade hread]
    cases hfold : delta.operations.foldlM (applyOperation content) [] with
    | ok out => exact absurd hfold (foldlM_pastEnd content _ hwords hpast [] out)
    | error failure =>
        cases failure with
        | error e => exact ⟨e, rfl⟩
        | panicked => exact absurd ((foldlM_panics_iff content _ hwords []).mp hfold) hover
  rcases herror with ⟨e, he⟩
  refine ⟨by simp [he], fun _ _ _ => ⟨e, he⟩, fun content' hread' hwithin => ?_⟩
  -- The source has one content only, and a copy is past its end.
  rw [hread, Except.ok.injEq] at hread'
  rcases hpast with ⟨op, hmem, hop⟩
  exact absurd (hread' ▸ hop) (hwithin op hmem)

theorem meets_of_within {made : Dir} {content : Bytes}
    (hmade : target.createDirAll delta.targetPath.dropLast = .ok made)
    (hread : source.readFile delta.sourcePath = .ok content)
    (hover : ¬ Overruns content delta.operations)
    (hwithin : ∀ op ∈ delta.operations, ¬ PastEnd content op) :
    MeetsDelta sha256 source target delta := by
  have hcall : applyFileDelta sha256 source target delta =
      finishDelta sha256 delta made (assembled content delta.operations) := by
    rw [applyFileDelta_eq hmade hread, foldlM_within content _ hwithin hover]
    rfl
  refine ⟨by rw [hcall]; exact (finishDelta_spec made _).2, ?_, ?_⟩
  · rintro content' hread' ⟨op, hmem, hop⟩
    rw [hread, Except.ok.injEq] at hread'
    exact absurd (hread' ▸ hop) (hwithin op hmem)
  · intro content' hread' _ target'
    rw [hread, Except.ok.injEq] at hread'
    rw [hcall, (finishDelta_spec made _).1, hmade, ← hread']
    simp only [Except.ok.injEq, exists_eq_left']

/-- Applying a delta does what is promised, for every source and target, exactly unless the call
    comes to a first copy past the end of the source whose sum wraps around to a position inside. -/
theorem applyFileDelta_meets_iff (sha256 : Bytes → String) (source target : Dir)
    (delta : FileDelta) (hwords : ∀ op ∈ delta.operations, op.InWords) :
    MeetsDelta sha256 source target delta ↔ ¬ ReachesOverrun source target delta := by
  constructor
  · rintro hmeets ⟨⟨made, hmade⟩, content, hread, hover⟩
    apply hmeets.noPanic
    rw [applyFileDelta_eq hmade hread, (foldlM_panics_iff content _ hwords []).mpr hover]
    rfl
  · intro h
    by_cases hrun : (∃ made, target.createDirAll delta.targetPath.dropLast = .ok made) ∧
        ∃ content, source.readFile delta.sourcePath = .ok content
    · rcases hrun with ⟨⟨made, hmade⟩, content, hread⟩
      have hover : ¬ Overruns content delta.operations := fun hover =>
        h ⟨⟨made, hmade⟩, content, hread, hover⟩
      by_cases hpast : ∃ op ∈ delta.operations, PastEnd content op
      · exact meets_of_pastEnd hwords hmade hread hover hpast
      · refine meets_of_within hmade hread hover fun op hmem hop => hpast ⟨op, hmem, hop⟩
    · exact meets_of_stops hrun

/-- A source directory with one file of three bytes. -/
def smallSource : Dir :=
  FileTree.set ⟨[⟨[], .dir⟩], by simp⟩ ["a.bin"] (.file [1, 2, 3])

/-- A delta with one copy. -/
def copyDelta (srcOffset length : Nat) : FileDelta where
  sourcePath := ["a.bin"]
  targetPath := ["a.bin"]
  sourceHash := ""
  targetHash := ""
  operations := [.copy srcOffset length]
  compression := "none"

theorem applyFileDelta_wraps :
    ¬ ∀ (sha256 : Bytes → String) (source target : Dir) (delta : FileDelta),
      (∀ op ∈ delta.operations, op.InWords) → MeetsDelta sha256 source target delta := by
  intro h
  have hwords : ∀ op ∈ (copyDelta (2 ^ 64 - 1) 2).operations, op.InWords := by
    simp [copyDelta, DeltaOperation.InWords]
  refine (h (fun _ => "") smallSource smallSource (copyDelta (2 ^ 64 - 1) 2) hwords).noPanic ?_
  decide +kernel

theorem applyFileDelta_meets_two :
    MeetsDelta (fun _ => "") smallSource smallSource (copyDelta 1 2) := by
  have hwords : ∀ op ∈ (copyDelta 1 2).operations, op.InWords := by
    simp [copyDelta, DeltaOperation.InWords]
  refine (applyFileDelta_meets_iff _ _ _ _ hwords).mpr ?_
  rintro ⟨-, content, -, hover⟩
  simp [copyDelta, Overruns, WrapsInside] at hover

end

end OpenFlight.Updater
