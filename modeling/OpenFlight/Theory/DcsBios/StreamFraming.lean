import OpenFlight.Theory.DcsBios.FrameGrammar

/-!
# Frames in a Stream

What looking for sync sequences finds in a stream of whole frames.

Parsing a frame looks for a sync sequence only where a header is due, so four
sync bytes in the data of an update are data. Looking through a stream knows
no headers and reports them. It also reports a sequence that begins with sync
bytes at the end of a frame and is completed by the sync sequence of the next
one. `findSyncPositions_flatten_iff` says that these are the only two ways to
report more than the starts of frames, and nothing is reported short of them.

An address is even, so the byte after a sync sequence is no sync byte, and no
sequence begins inside another one.

## Main definitions

* `WholeFrame`: One frame that is accepted to its last byte.
* `frameStarts`: The offsets of frames that follow each other.

## Theorems

* `findSyncPositions_flatten_iff`: When the starts of frames are reported.
* `findSyncPositions_data`: A frame that is reported twice.
-/

namespace OpenFlight.DcsBios

/-- One frame that `parse_frame` accepts, with nothing after it. -/
def WholeFrame (data : List UInt8) : Prop :=
  ∃ updates, parseFrame data = .ok updates ∧ data = syncBytes ++ encodeAll updates

/-- The offsets at which the frames start, the first one at `offset`. -/
def frameStarts : Nat → List (List UInt8) → List Nat
  | _, [] => []
  | offset, frame :: rest => offset :: frameStarts (offset + frame.length) rest

/-- A position is reported exactly when the sync sequence stands there. -/
theorem mem_findSyncPositions (data : List UInt8) (i : Nat) :
    i ∈ findSyncPositions data ↔ syncBytes <+: data.drop i := by
  have hprefix : syncBytes <+: data.drop i ↔ slice data i 4 = syncBytes := by
    rw [List.prefix_iff_eq_take]
    exact eq_comm
  unfold findSyncPositions
  by_cases hshort : data.length < 4
  · rw [if_pos hshort]
    refine ⟨fun h => absurd h List.not_mem_nil, fun h => ?_⟩
    have hlength := h.length_le
    rw [List.length_drop] at hlength
    simp only [syncBytes, List.length_cons, List.length_nil] at hlength
    omega
  · rw [if_neg hshort, List.mem_filter, List.mem_range, beq_iff_eq, ← hprefix]
    refine ⟨fun h => h.2, fun h => ⟨?_, h⟩⟩
    have hlength := h.length_le
    rw [List.length_drop] at hlength
    simp only [syncBytes, List.length_cons, List.length_nil] at hlength
    omega

theorem sorted_findSyncPositions (data : List UInt8) :
    (findSyncPositions data).Pairwise (· < ·) := by
  unfold findSyncPositions
  split
  · exact List.Pairwise.nil
  · exact List.Pairwise.filter _ List.pairwise_lt_range

theorem le_of_mem_frameStarts (offset : Nat) (frames : List (List UInt8)) :
    ∀ i ∈ frameStarts offset frames, offset ≤ i := by
  induction frames generalizing offset with
  | nil => simp [frameStarts]
  | cons frame rest ih =>
      refine List.forall_mem_cons.mpr ⟨le_refl _, fun i hi => ?_⟩
      exact (Nat.le_add_right _ _).trans (ih _ i hi)

theorem sorted_frameStarts (offset : Nat) (frames : List (List UInt8))
    (hne : ∀ frame ∈ frames, frame ≠ []) : (frameStarts offset frames).Pairwise (· < ·) := by
  induction frames generalizing offset with
  | nil => exact List.Pairwise.nil
  | cons frame rest ih =>
      rw [List.forall_mem_cons] at hne
      refine List.pairwise_cons.mpr ⟨fun i hi => ?_, ih _ hne.2⟩
      have hle := le_of_mem_frameStarts _ rest i hi
      have hpos := List.length_pos_iff.mpr hne.1
      omega

theorem mem_frameStarts_add (offset n i : Nat) (frames : List (List UInt8)) :
    n + i ∈ frameStarts (n + offset) frames ↔ i ∈ frameStarts offset frames := by
  induction frames generalizing offset with
  | nil => simp [frameStarts]
  | cons frame rest ih =>
      rw [frameStarts, frameStarts, List.mem_cons, List.mem_cons, Nat.add_left_cancel_iff,
        Nat.add_assoc, ih]

/-- Two lists of positions in order are equal when they have the same ones. -/
theorem eq_of_sorted (l l' : List Nat) (h : l.Pairwise (· < ·)) (h' : l'.Pairwise (· < ·))
    (hmem : ∀ i, i ∈ l ↔ i ∈ l') : l = l' := by
  have hperm : l.Perm l' := (List.perm_ext_iff_of_nodup
    (h.imp fun hlt => hlt.ne) (h'.imp fun hlt => hlt.ne)).mpr hmem
  exact hperm.eq_of_pairwise (fun a b _ _ hab hba => absurd hab (Nat.lt_asymm hba)) h h'

section

variable {frame : List UInt8}

/-- A whole frame is its sync sequence and more, which does not start with a sync byte. -/
theorem WholeFrame.shape (h : WholeFrame frame) :
    ∃ b body, frame = syncBytes ++ b :: body ∧ b ≠ 0x55 ∧ 3 ≤ body.length := by
  rcases h with ⟨updates, hparse, hbytes⟩
  rcases (parseFrame_iff frame updates).mp hparse with ⟨rest, hframe⟩
  cases updates with
  | nil => exact absurd rfl hframe.nonempty
  | cons u updates =>
      -- The byte after the sync bytes is the low one of an address, and addresses are even.
      have heven := (hframe.wellFormed u List.mem_cons_self).1.1
      refine ⟨UInt8.ofNat u.address.toNat,
        UInt8.ofNat (u.address.toNat / 256) :: (toLe 2 u.data.length ++ u.data)
          ++ encodeAll updates, ?_, fun hodd => ?_, ?_⟩
      · rw [hbytes]
        simp [encodeAll, DcsBiosUpdate.encode, toLe]
      · have hnat := congrArg UInt8.toNat hodd
        rw [UInt8.toNat_ofNat'] at hnat
        simp only [UInt8.reduceToNat] at hnat
        omega
      · simp only [List.cons_append, List.length_cons, List.length_append, length_toLe]
        omega

theorem WholeFrame.ne_nil (h : WholeFrame frame) : frame ≠ [] := by
  rcases h.shape with ⟨b, body, rfl, _, _⟩
  simp [syncBytes]

/-- A sync sequence that starts inside a frame but not at its start, with the sync sequence of
    another frame after it or nothing: it is in the updates, or the frame ends with a sync byte. -/
theorem strays_cons (h : WholeFrame frame) (after : List UInt8)
    (hafter : after = [] ∨ syncBytes <+: after) :
    (∀ i, 0 < i → i < frame.length → ¬ syncBytes <+: (frame ++ after).drop i) ↔
      ¬ syncBytes <:+: frame.drop 4 ∧ (after ≠ [] → frame.getLast? ≠ some 0x55) := by
  rcases h.shape with ⟨b, body, rfl, hb, hlong⟩
  have hdrop : (syncBytes ++ b :: body).drop 4 = b :: body := rfl
  have hlength : (syncBytes ++ b :: body).length = body.length + 5 := by
    simp [syncBytes]
  rw [hdrop, hlength]
  constructor
  · intro hnone
    constructor
    · rintro ⟨front, back, hbody⟩
      -- A sequence in the updates starts inside the frame.
      have hlt : 4 + front.length < body.length + 5 := by
        have hcount := congrArg List.length hbody
        simp only [syncBytes, List.length_append, List.length_cons, List.length_nil] at hcount
        omega
      refine hnone (4 + front.length) (by omega) hlt ⟨back ++ after, ?_⟩
      rw [← hbody]
      simp [syncBytes, ← List.drop_drop]
    · intro hmore hlast
      rcases hafter with hempty | ⟨back, hback⟩
      · exact hmore hempty
      · -- The last byte and three of the next sync sequence.
        refine hnone (body.length + 4) (by omega) (by omega) ⟨0x55 :: back, ?_⟩
        rcases List.getLast?_eq_some_iff.mp hlast with ⟨front, hfront⟩
        have hcount := congrArg List.length hfront
        rw [hlength, List.length_append, List.length_singleton] at hcount
        rw [hfront, ← hback, List.append_assoc,
          List.drop_left' (by omega : front.length = body.length + 4)]
        rfl
  · rintro ⟨hinside, hend⟩ i hpos hlt hstray
    by_cases hfront : i < 4
    · -- Inside the sync sequence itself, where the byte after it would have to be one too.
      have hcases : i = 1 ∨ i = 2 ∨ i = 3 := by omega
      rcases hcases with rfl | rfl | rfl <;> simp [syncBytes, Ne.symm hb] at hstray
    · obtain ⟨j, rfl⟩ : ∃ j, i = 4 + j := ⟨i - 4, by omega⟩
      have hj : j < (b :: body).length := by
        rw [List.length_cons]
        omega
      have hskip : (syncBytes ++ (b :: body ++ after)).drop 4 = b :: body ++ after := rfl
      rw [List.append_assoc, ← List.drop_drop, hskip,
        List.drop_append_of_le_length hj.le] at hstray
      have hself : (b :: body).drop j <+: (b :: body).drop j ++ after := List.prefix_append _ _
      by_cases hfits : syncBytes.length ≤ ((b :: body).drop j).length
      · -- All of it is in the updates.
        refine hinside ((List.prefix_of_prefix_length_le hstray hself hfits).isInfix.trans ?_)
        exact (List.drop_suffix j _).isInfix
      · -- The frame ends inside it.
        have hcut := List.prefix_of_prefix_length_le hself hstray (Nat.le_of_not_le hfits)
        have htail : (b :: body).drop j ≠ [] := by
          intro hnil
          have hcount := congrArg List.length hnil
          rw [List.length_drop, List.length_nil] at hcount
          omega
        refine hend (fun hempty => hfits ?_) ?_
        · rw [hempty, List.append_nil] at hstray
          exact hstray.length_le
        · -- What is left of the frame is the start of a sync sequence, so it ends with a sync byte.
          have hlast : (syncBytes ++ b :: body).getLast? = ((b :: body).drop j).getLast? := by
            rw [List.getLast?_drop, if_neg (not_le.mpr hj), List.getLast?_append,
              List.getLast?_cons, Option.some_or]
          rw [hlast, List.getLast?_eq_some_getLast htail]
          have hmem := hcut.subset (List.getLast_mem htail)
          simpa [syncBytes] using hmem

/-- The first frame of a stream and the others: a position in the stream is a
    stray one in the first frame, or a position in the rest. -/
theorem mem_frameStarts_cons (frame : List UInt8) (frames : List (List UInt8)) (hne : frame ≠ []) :
    (∀ i, syncBytes <+: (frame ++ frames.flatten).drop i → i ∈ frameStarts 0 (frame :: frames)) ↔
      (∀ i, 0 < i → i < frame.length → ¬ syncBytes <+: (frame ++ frames.flatten).drop i) ∧
        ∀ i, syncBytes <+: frames.flatten.drop i → i ∈ frameStarts 0 frames := by
  have hstart : ∀ i, i ∈ frameStarts 0 (frame :: frames) ↔
      i = 0 ∨ i ∈ frameStarts (0 + frame.length) frames := fun i => List.mem_cons
  constructor
  · intro h
    constructor
    · intro i hpos hlt hstray
      rcases (hstart i).mp (h i hstray) with hzero | hlater
      · omega
      · have hle := le_of_mem_frameStarts _ frames i hlater
        omega
    · intro i hsync
      -- A position in the rest is one in the stream, moved by the first frame.
      have hshift : (frame ++ frames.flatten).drop (frame.length + i) = frames.flatten.drop i := by
        rw [← List.drop_drop, List.drop_left]
      rcases (hstart _).mp (h (frame.length + i) (hshift ▸ hsync)) with hzero | hlater
      · have hpos := List.length_pos_iff.mpr hne
        omega
      · rw [Nat.zero_add] at hlater
        exact (mem_frameStarts_add 0 frame.length i frames).mp hlater
  · rintro ⟨hinside, hrest⟩ i hsync
    refine (hstart i).mpr ?_
    by_cases hzero : i = 0
    · exact .inl hzero
    · by_cases hlt : i < frame.length
      · exact absurd hsync (hinside i (Nat.pos_of_ne_zero hzero) hlt)
      · obtain ⟨j, rfl⟩ : ∃ j, i = frame.length + j := ⟨i - frame.length, by omega⟩
        rw [← List.drop_drop, List.drop_left] at hsync
        rw [Nat.zero_add]
        exact .inr ((mem_frameStarts_add 0 frame.length j frames).mpr (hrest j hsync))

/-- A frame is reported at its start, and nothing at its other positions, when
    no sequence strays in it. -/
theorem starts_reported (frames : List (List UInt8)) (h : ∀ frame ∈ frames, WholeFrame frame)
    (i : Nat) (hi : i ∈ frameStarts 0 frames) : syncBytes <+: frames.flatten.drop i := by
  induction frames generalizing i with
  | nil => exact absurd hi List.not_mem_nil
  | cons frame rest ih =>
      rw [List.forall_mem_cons] at h
      rw [List.flatten_cons]
      rcases List.mem_cons.mp hi with rfl | hlater
      · rcases h.1.shape with ⟨b, body, rfl, _, _⟩
        exact ⟨(b :: body) ++ rest.flatten, by simp⟩
      · have hle := le_of_mem_frameStarts _ rest i hlater
        obtain ⟨j, rfl⟩ : ∃ j, i = frame.length + j := ⟨i - frame.length, by omega⟩
        rw [← List.drop_drop, List.drop_left]
        rw [Nat.zero_add] at hlater
        exact ih h.2 j ((mem_frameStarts_add 0 frame.length j rest).mp hlater)

/-- Every position that is reported is the start of a frame exactly when no
    frame has a stray sequence. -/
theorem reported_starts_iff (frames : List (List UInt8)) (h : ∀ frame ∈ frames, WholeFrame frame) :
    (∀ i, syncBytes <+: frames.flatten.drop i → i ∈ frameStarts 0 frames) ↔
      (∀ frame ∈ frames, ¬ syncBytes <:+: frame.drop 4) ∧
        ∀ frame ∈ frames.dropLast, frame.getLast? ≠ some 0x55 := by
  induction frames with
  | nil => simp [syncBytes]
  | cons frame rest ih =>
      rw [List.forall_mem_cons] at h
      -- What comes after the frame is nothing or the start of another frame.
      have hafter : rest.flatten = [] ∨ syncBytes <+: rest.flatten := by
        cases rest with
        | nil => exact .inl rfl
        | cons next rest => exact .inr (starts_reported (next :: rest) h.2 0 List.mem_cons_self)
      have hmore : rest.flatten ≠ [] ↔ rest ≠ [] := by
        cases rest with
        | nil => simp
        | cons next rest =>
            have hne := (h.2 next List.mem_cons_self).ne_nil
            simp [hne]
      have hlast : (∀ f ∈ (frame :: rest).dropLast, f.getLast? ≠ some 0x55) ↔
          (rest ≠ [] → frame.getLast? ≠ some 0x55) ∧
            ∀ f ∈ rest.dropLast, f.getLast? ≠ some 0x55 := by
        cases rest with
        | nil => simp
        | cons next rest => simp
      rw [List.flatten_cons, mem_frameStarts_cons frame rest h.1.ne_nil,
        strays_cons h.1 _ hafter, ih h.2, hmore, hlast, List.forall_mem_cons]
      exact and_and_and_comm

end

/-- A frame that sets a word, and neither of its bytes to a sync byte. -/
def plainFrame : List UInt8 :=
  syncBytes ++ encodeAll [⟨0x1000, [0x01, 0x02]⟩]

theorem wholeFrame_plain : WholeFrame plainFrame :=
  ⟨_, rfl, rfl⟩

/-- The starts of the frames are reported and nothing else, exactly when no frame has sync bytes in
    its updates and no frame before another one ends with a sync byte. -/
theorem findSyncPositions_flatten_iff (frames : List (List UInt8))
    (h : ∀ frame ∈ frames, WholeFrame frame) :
    findSyncPositions frames.flatten = frameStarts 0 frames ↔
      (∀ frame ∈ frames, ¬ syncBytes <:+: frame.drop 4) ∧
        ∀ frame ∈ frames.dropLast, frame.getLast? ≠ some 0x55 := by
  rw [← reported_starts_iff frames h]
  have hne : ∀ frame ∈ frames, frame ≠ [] := fun frame hmem => (h frame hmem).ne_nil
  constructor
  · intro heq i hsync
    rw [← heq]
    exact (mem_findSyncPositions _ i).mpr hsync
  · intro hstarts
    refine eq_of_sorted _ _ (sorted_findSyncPositions _) (sorted_frameStarts 0 frames hne) ?_
    intro i
    rw [mem_findSyncPositions]
    exact ⟨hstarts i, starts_reported frames h i⟩

/-- Two frames with nothing amiss are found where they are. -/
theorem findSyncPositions_two : findSyncPositions [plainFrame, plainFrame].flatten = [0, 10] := by
  have hwhole : ∀ frame ∈ [plainFrame, plainFrame], WholeFrame frame := by
    intro frame hmem
    have hframe : frame = plainFrame := by simpa using hmem
    rw [hframe]
    exact wholeFrame_plain
  exact (findSyncPositions_flatten_iff _ hwhole).mpr ⟨by decide, by decide⟩

/-- A frame that sets four bytes to the sync bytes is reported twice. -/
theorem findSyncPositions_data : WholeFrame (syncBytes ++ encodeAll [⟨0x1000, syncBytes⟩]) ∧
    findSyncPositions [syncBytes ++ encodeAll [⟨0x1000, syncBytes⟩]].flatten ≠
      frameStarts 0 [syncBytes ++ encodeAll [⟨0x1000, syncBytes⟩]] :=
  ⟨⟨_, rfl, rfl⟩, by decide⟩

/-- A word that ends with a sync byte is reported with the next frame. -/
example : findSyncPositions
    ((syncBytes ++ encodeAll [⟨0x1000, [0x01, 0x55]⟩]) ++ plainFrame) = [0, 9, 10] := by
  decide

end OpenFlight.DcsBios
