import Mathlib.Data.List.Infix
import Mathlib.Data.List.TakeWhile
import OpenFlight.Core.Axis.Recording
import OpenFlight.Lib.Run

/-!
# What a Playback Gives Out

Which samples of a recording a playback has given out, and where it loses some.

The windows are half open, the end of a recording is not. A player that does
not loop is finished when its position is at the duration, but the samples at
that time are given out only by a window that ends later. So the playback is
complete when it is first finished exactly as long as no window ends on the
duration; a recording of samples at time zero alone is finished before it has
begun.

A looping player gives out the samples at the duration with the window that
reaches it, also when the window ends there. With all that the window has
before, these may be more than the 32 that there is room for, and what has no
room is skipped.

## Main definitions

* `Played`, `playStep`: A player with all that it has given out.
* `windowCount`, `WindowFits`: How many samples lie in a window.

## Theorems

* `playback_loses_nothing`: Both kinds of playback, along every run.
* `finished_before_last_sample`: A run that loses samples.
-/

namespace OpenFlight.Axis

/-- A player with all that it has given out. -/
structure Played where
  playback : AxisPlayback
  played : List AxisSample

def Played.new (recording : AxisRecording) (looping : Bool) : Played :=
  { playback := .new recording looping
    played := [] }

/-- One window. -/
def playStep (p : Played) (deltaUs : UInt64) : Played :=
  { playback := (p.playback.advance deltaUs).1
    played := p.played ++ (p.playback.advance deltaUs).2 }

/-- The end of the window from the current position. -/
def Played.windowEnd (p : Played) (deltaUs : UInt64) : UInt64 :=
  saturatingAddUs p.playback.currentUs deltaUs

/-- The samples that lie in a window: those of this turn of the recording, and
    for a looping player those of the next. -/
def windowCount (p : Played) (deltaUs : UInt64) : ℕ :=
  let recording := p.playback.recording
  (recording.samples.countP fun s =>
      p.playback.currentUs ≤ s.timestampUs && s.timestampUs < p.windowEnd deltaUs) +
    if p.playback.looping then
      recording.samples.countP fun s =>
        recording.durationUs.toNat + s.timestampUs.toNat < (p.windowEnd deltaUs).toNat
    else 0

/-- The window has no more samples than there is room for. -/
def WindowFits (p : Played) (deltaUs : UInt64) : Prop :=
  windowCount p deltaUs ≤ 32

instance (p : Played) (deltaUs : UInt64) : Decidable (WindowFits p deltaUs) :=
  inferInstanceAs (Decidable (_ ≤ _))

/-- What has been given out is the beginning of the recording, and all of it when
    the window is the first to finish the playback. -/
def CompleteWhenFinished (p : Played) (deltaUs : UInt64) : Prop :=
  (playStep p deltaUs).played <+: p.playback.recording.samples ∧
    (p.playback.isFinished = false → (playStep p deltaUs).playback.isFinished = true →
      (playStep p deltaUs).played = p.playback.recording.samples)

instance (p : Played) (deltaUs : UInt64) : Decidable (CompleteWhenFinished p deltaUs) :=
  inferInstanceAs (Decidable (_ ∧ _))

/-- The window does not end on the duration, unless the playback is finished already. -/
def EndsBeyond (p : Played) (deltaUs : UInt64) : Prop :=
  p.playback.currentUs < p.playback.recording.durationUs →
    p.windowEnd deltaUs ≠ p.playback.recording.durationUs

instance (p : Played) (deltaUs : UInt64) : Decidable (EndsBeyond p deltaUs) :=
  inferInstanceAs (Decidable (_ → _))

/-- A window that ends on the duration has room for the samples there too. -/
def EndFits (p : Played) (deltaUs : UInt64) : Prop :=
  p.windowEnd deltaUs = p.playback.recording.durationUs →
    (p.playback.recording.samples.countP fun s => p.playback.currentUs ≤ s.timestampUs) ≤ 32

instance (p : Played) (deltaUs : UInt64) : Decidable (EndFits p deltaUs) :=
  inferInstanceAs (Decidable (_ → _))

/-- What has been given out is the beginning of the recording repeated without end. -/
def InOrder (p : Played) (deltaUs : UInt64) : Prop :=
  ∃ turns, (playStep p deltaUs).played <+:
    (List.replicate turns p.playback.recording.samples).flatten

/-- The samples are in the order of their times. -/
def Ascending (samples : List AxisSample) : Prop :=
  samples.Pairwise fun a b => a.timestampUs ≤ b.timestampUs

instance (samples : List AxisSample) : Decidable (Ascending samples) :=
  inferInstanceAs (Decidable (List.Pairwise _ _))

section

variable (samples : List AxisSample)

theorem recordAll_append (s : AxisSample) : AxisRecording.recordAll (samples ++ [s]) =
      (AxisRecording.recordAll samples).record s.timestampUs s.axisIndex s.value :=
  List.foldl_append

@[simp]
theorem recordAll_samples : (AxisRecording.recordAll samples).samples = samples := by
  induction samples using List.reverseRecOn with
  | nil => rfl
  | append_singleton samples s ih =>
      rw [recordAll_append]
      exact congrArg (· ++ [s]) ih

/-- No sample is later than the duration, and one is as late. -/
theorem recordAll_duration :
    (∀ s ∈ samples, s.timestampUs ≤ (AxisRecording.recordAll samples).durationUs) ∧
      (0 < (AxisRecording.recordAll samples).durationUs →
        ∃ s ∈ samples, s.timestampUs = (AxisRecording.recordAll samples).durationUs) := by
  induction samples using List.reverseRecOn with
  | nil => exact ⟨fun s h => absurd h List.not_mem_nil, fun h => absurd h (by decide)⟩
  | append_singleton samples s ih =>
      rw [recordAll_append]
      dsimp only [AxisRecording.record]
      split_ifs with hlater
      · refine ⟨fun t ht => ?_, fun _ => ⟨s, List.mem_append_right _ List.mem_cons_self, rfl⟩⟩
        rcases List.mem_append.mp ht with ht | ht
        · exact UInt64.le_trans (ih.1 t ht) (UInt64.le_of_lt hlater)
        · rw [List.mem_singleton.mp ht]
          exact UInt64.le_refl _
      · refine ⟨fun t ht => ?_, fun hpos => ?_⟩
        · rcases List.mem_append.mp ht with ht | ht
          · exact ih.1 t ht
          · rw [List.mem_singleton.mp ht]
            exact UInt64.not_lt.mp hlater
        · rcases ih.2 hpos with ⟨t, ht, heq⟩
          exact ⟨t, List.mem_append_left _ ht, heq⟩

end

section

variable (samples : List AxisSample) (stop : UInt64 → Bool)

/-- The loop gives out the samples before the first that stops it, as far as there is room. -/
theorem collect_eq (room sampleIndex : ℕ) :
    collect samples stop room sampleIndex =
      let out := ((samples.drop sampleIndex).takeWhile fun s => !stop s.timestampUs).take room
      (sampleIndex + out.length, out) := by
  induction room generalizing sampleIndex with
  | zero => rfl
  | succ room ih =>
      rw [collect]
      rcases Nat.lt_or_ge sampleIndex samples.length with hlt | hge
      · rw [List.getElem?_eq_getElem hlt, List.drop_eq_getElem_cons hlt, List.takeWhile_cons]
        dsimp only
        cases hstop : stop samples[sampleIndex].timestampUs with
        | true => rfl
        | false =>
            rw [ih]
            simp [Nat.add_assoc, Nat.add_comm 1]
      · rw [List.getElem?_eq_none hge, List.drop_eq_nil_of_le hge]
        rfl

/-- In the order of times, nothing before `last` comes after something that is not. -/
theorem le_of_mem_dropWhile (last : UInt64) (hsorted : Ascending samples) (s : AxisSample)
    (hs : s ∈ samples.dropWhile fun s => !decide (last ≤ s.timestampUs)) :
    last ≤ s.timestampUs := by
  induction samples with
  | nil => exact absurd hs List.not_mem_nil
  | cons first rest ih =>
      rcases List.pairwise_cons.mp hsorted with ⟨hfirst, hrest⟩
      rw [List.dropWhile_cons] at hs
      by_cases hstop : last ≤ first.timestampUs
      · rw [if_neg (by simp [hstop])] at hs
        rcases List.mem_cons.mp hs with rfl | hs
        · exact hstop
        · exact UInt64.le_trans hstop (hfirst s hs)
      · rw [if_pos (by simp [hstop])] at hs
        exact ih hrest hs

theorem take_length_takeWhile (p : AxisSample → Bool) :
    samples.take (samples.takeWhile p).length = samples.takeWhile p :=
  (List.prefix_iff_eq_take.mp (List.takeWhile_prefix p)).symm

theorem drop_length_takeWhile (p : AxisSample → Bool) :
    samples.drop (samples.takeWhile p).length = samples.dropWhile p := by
  have hsplit := congrArg (List.drop (samples.takeWhile p).length)
    (List.takeWhile_append_dropWhile (p := p) (l := samples))
  rw [List.drop_left] at hsplit
  exact hsplit.symm

/-- With room for all the samples in the list that a window may have, the loop gives out the part of
    the list up to the window's end, and what is left is not before it. -/
theorem collect_window (last : UInt64) (room sampleIndex : ℕ) (hsorted : Ascending samples)
    (hroom : ((samples.drop sampleIndex).countP fun s => s.timestampUs < last) ≤ room) :
    let window := collect samples (fun ts => last ≤ ts) room sampleIndex
    samples.take window.1 = samples.take sampleIndex ++ window.2 ∧
      (∀ s ∈ window.2, s.timestampUs < last) ∧
      (∀ s ∈ samples.drop window.1, last ≤ s.timestampUs) := by
  rw [collect_eq]
  generalize hwindow : ((samples.drop sampleIndex).takeWhile
    fun s => !decide (last ≤ s.timestampUs)) = window
  have hbefore : ∀ s ∈ window, s.timestampUs < last := by
    intro s hs
    rw [← hwindow] at hs
    have hgoes := List.mem_takeWhile_imp hs
    rw [Bool.not_eq_true', decide_eq_false_iff_not, UInt64.not_le] at hgoes
    exact hgoes
  -- The loop stops at the end of the window, and not for want of room.
  have hlength : window.length ≤ room := by
    rw [← List.countP_eq_length.mpr fun s hs => decide_eq_true (hbefore s hs)]
    refine (List.Sublist.countP_le ?_).trans hroom
    rw [← hwindow]
    exact List.takeWhile_sublist _
  dsimp only
  rw [List.take_of_length_le hlength]
  refine ⟨?_, hbefore, fun s hs => ?_⟩
  · rw [List.take_add, ← hwindow, take_length_takeWhile]
  · rw [← List.drop_drop, ← hwindow, drop_length_takeWhile] at hs
    exact le_of_mem_dropWhile _ last (hsorted.sublist (List.drop_sublist _ _)) s hs

end

/-- What the player has given out: earlier turns, and of this turn the samples
    before the position, up to its place in the list. -/
structure Upto (recording : AxisRecording) (earlier : List AxisSample) (p : Played) : Prop where
  recording_eq : p.playback.recording = recording
  played_eq : p.played = earlier ++ recording.samples.take p.playback.sampleIndex
  before : ∀ s ∈ recording.samples.take p.playback.sampleIndex,
    s.timestampUs < p.playback.currentUs
  after : ∀ s ∈ recording.samples.drop p.playback.sampleIndex,
    p.playback.currentUs ≤ s.timestampUs

section

variable (recording : AxisRecording)

theorem upto_new (looping : Bool) : Upto recording [] (.new recording looping) where
  recording_eq := rfl
  played_eq := rfl
  before := fun _ h => absurd h List.not_mem_nil
  after := fun _ _ => UInt64.zero_le

variable (p : Played) (deltaUs : UInt64)

theorem toNat_windowEnd : (p.windowEnd deltaUs).toNat =
      min (p.playback.currentUs.toNat + deltaUs.toNat) (2 ^ 64 - 1) :=
  UInt64.toNat_ofNat_of_lt' (Nat.lt_of_le_of_lt (Nat.min_le_right _ _) (by decide))

theorem le_windowEnd : p.playback.currentUs ≤ p.windowEnd deltaUs := by
  have hlt := p.playback.currentUs.toNat_lt
  rw [UInt64.le_iff_toNat_le, toNat_windowEnd]
  omega

/-- Of the samples that are left, those before the end of the window lie in it. -/
theorem countP_drop_le (earlier : List AxisSample) (h : Upto recording earlier p) :
    ((recording.samples.drop p.playback.sampleIndex).countP fun s =>
        s.timestampUs < p.windowEnd deltaUs) ≤
      recording.samples.countP fun s =>
        p.playback.currentUs ≤ s.timestampUs && s.timestampUs < p.windowEnd deltaUs := by
  refine le_trans (List.countP_mono_left fun s hs hlast => ?_)
    (List.Sublist.countP_le (List.drop_sublist p.playback.sampleIndex recording.samples))
  rw [Bool.and_eq_true, decide_eq_true_iff]
  exact ⟨h.after s hs, hlast⟩

theorem advance_window
    (h : ¬ (p.playback.looping = true ∧ 0 < p.playback.recording.durationUs ∧
      p.playback.recording.durationUs ≤ p.windowEnd deltaUs)) :
    p.playback.advance deltaUs =
      let window := collect p.playback.recording.samples (fun ts => p.windowEnd deltaUs ≤ ts) 32
        p.playback.sampleIndex
      ({ p.playback with currentUs := p.windowEnd deltaUs, sampleIndex := window.1 },
        window.2) := by
  unfold AxisPlayback.advance
  exact if_neg h

theorem advance_wrap
    (h : p.playback.looping = true ∧ 0 < p.playback.recording.durationUs ∧
      p.playback.recording.durationUs ≤ p.windowEnd deltaUs) :
    p.playback.advance deltaUs =
      let recording := p.playback.recording
      let tail := collect recording.samples (fun ts => recording.durationUs < ts) 32
        p.playback.sampleIndex
      let newPos := p.windowEnd deltaUs % recording.durationUs
      let head := collect recording.samples (fun ts => newPos ≤ ts) (32 - tail.2.length) 0
      ({ p.playback with currentUs := newPos, sampleIndex := head.1 }, tail.2 ++ head.2) := by
  unfold AxisPlayback.advance
  exact if_pos h

/-- A window that does not reach the end of a looping recording. -/
theorem upto_step (hsorted : Ascending recording.samples) (p : Played) (deltaUs : UInt64)
    (earlier : List AxisSample) (h : Upto recording earlier p) (hfits : WindowFits p deltaUs)
    (hnowrap : ¬ (p.playback.looping = true ∧ 0 < recording.durationUs ∧
      recording.durationUs ≤ p.windowEnd deltaUs)) :
    Upto recording earlier (playStep p deltaUs) ∧
      (playStep p deltaUs).playback.currentUs = p.windowEnd deltaUs := by
  rcases h.recording_eq with rfl
  have hroom := (countP_drop_le _ p deltaUs earlier h).trans
    ((Nat.le_add_right _ _).trans hfits)
  have hwindow := collect_window _ (p.windowEnd deltaUs) 32 p.playback.sampleIndex hsorted hroom
  unfold playStep
  rw [advance_window p deltaUs hnowrap]
  refine ⟨⟨rfl, ?_, fun s hs => ?_, hwindow.2.2⟩, rfl⟩
  · dsimp only
    rw [h.played_eq, hwindow.1, List.append_assoc]
  · rw [hwindow.1] at hs
    rcases List.mem_append.mp hs with hs | hs
    · exact UInt64.lt_of_lt_of_le (h.before s hs) (le_windowEnd p deltaUs)
    · exact hwindow.2.1 s hs

/-- All that is left of the recording, where there is room for it. -/
theorem collect_rest (samples : List AxisSample) (last : UInt64) (room sampleIndex : ℕ)
    (hlast : ∀ s ∈ samples, s.timestampUs ≤ last)
    (hroom : (samples.drop sampleIndex).length ≤ room) :
    (collect samples (fun ts => last < ts) room sampleIndex).2 = samples.drop sampleIndex := by
  rw [collect_eq]
  dsimp only
  rw [List.takeWhile_eq_self_iff.mpr, List.take_of_length_le hroom]
  intro s hs
  have hle := UInt64.not_lt.mpr (hlast s (List.mem_of_mem_drop hs))
  rw [decide_eq_false hle]
  rfl

/-- Samples that are left are not before the position. -/
theorem length_rest_le (earlier : List AxisSample) (h : Upto recording earlier p)
    (q : AxisSample → Bool)
    (hq : ∀ s ∈ recording.samples, p.playback.currentUs ≤ s.timestampUs → q s = true) :
    (recording.samples.drop p.playback.sampleIndex).length ≤ recording.samples.countP q := by
  have hall : ∀ s ∈ recording.samples.drop p.playback.sampleIndex, q s = true :=
    fun s hs => hq s (List.mem_of_mem_drop hs) (h.after s hs)
  rw [← List.countP_eq_length.mpr hall]
  exact List.Sublist.countP_le (List.drop_sublist _ _)

/-- What is left of this turn and what the window has of the next one is no more
    than there is room for. -/
theorem length_rest_add_next_le (earlier : List AxisSample) (h : Upto recording earlier p)
    (hloop : p.playback.looping = true)
    (hlast : ∀ s ∈ recording.samples, s.timestampUs ≤ recording.durationUs)
    (hreach : recording.durationUs ≤ p.windowEnd deltaUs) (hfits : WindowFits p deltaUs)
    (hend : EndFits p deltaUs) :
    (recording.samples.drop p.playback.sampleIndex).length +
      (recording.samples.countP fun s =>
        recording.durationUs.toNat + s.timestampUs.toNat < (p.windowEnd deltaUs).toNat) ≤ 32 := by
  rcases h.recording_eq with rfl
  rcases Nat.eq_or_lt_of_le (UInt64.le_iff_toNat_le.mp hreach) with heq | hlt
  · -- The window ends with the turn, so there is nothing of the next one in it.
    have hnone : (p.playback.recording.samples.countP fun s =>
        p.playback.recording.durationUs.toNat + s.timestampUs.toNat
          < (p.windowEnd deltaUs).toNat) = 0 := by
      refine List.countP_eq_zero.mpr fun s _ => ?_
      rw [decide_eq_true_iff]
      omega
    rw [hnone]
    refine (length_rest_le _ p earlier h _ fun s _ hs => decide_eq_true hs).trans ?_
    exact hend (UInt64.toNat_inj.mp heq.symm)
  · have hrest := length_rest_le _ p earlier h
      (fun s => p.playback.currentUs ≤ s.timestampUs && s.timestampUs < p.windowEnd deltaUs)
      (fun s hs hcurrent => by
        rw [Bool.and_eq_true, decide_eq_true_iff, decide_eq_true_iff]
        exact ⟨hcurrent, UInt64.lt_of_le_of_lt (hlast s hs) (UInt64.lt_iff_toNat_lt.mpr hlt)⟩)
    unfold WindowFits windowCount at hfits
    dsimp only at hfits
    rw [if_pos hloop] at hfits
    exact (Nat.add_le_add_right hrest _).trans hfits

/-- How far the window goes into the next turn. -/
theorem toNat_newPos (hcurrent : p.playback.currentUs < recording.durationUs)
    (hdelta : deltaUs ≤ recording.durationUs)
    (hreach : recording.durationUs ≤ p.windowEnd deltaUs) :
    (p.windowEnd deltaUs % recording.durationUs).toNat =
      (p.windowEnd deltaUs).toNat - recording.durationUs.toNat := by
  rw [UInt64.lt_iff_toNat_lt] at hcurrent
  rw [UInt64.le_iff_toNat_le] at hdelta hreach
  have hend := toNat_windowEnd p deltaUs
  rw [UInt64.toNat_mod, Nat.mod_eq_sub_mod hreach, Nat.mod_eq_of_lt (by omega)]

section

variable (hsorted : Ascending recording.samples)

include hsorted

/-- A window that reaches the end of a looping recording. -/
theorem upto_step_wrap (p : Played) (deltaUs : UInt64) (earlier : List AxisSample)
    (h : Upto recording earlier p) (hloop : p.playback.looping = true)
    (hlast : ∀ s ∈ recording.samples, s.timestampUs ≤ recording.durationUs)
    (hcurrent : p.playback.currentUs < recording.durationUs)
    (hdelta : deltaUs ≤ recording.durationUs) (hreach : recording.durationUs ≤ p.windowEnd deltaUs)
    (hfits : WindowFits p deltaUs) (hend : EndFits p deltaUs) :
    Upto recording (earlier ++ recording.samples) (playStep p deltaUs) ∧
      (playStep p deltaUs).playback.currentUs < recording.durationUs := by
  have hroom := length_rest_add_next_le recording p deltaUs earlier h hloop hlast hreach hfits hend
  have hnew := toNat_newPos recording p deltaUs hcurrent hdelta hreach
  rcases h.recording_eq with rfl
  have hpos : 0 < p.playback.recording.durationUs :=
    UInt64.lt_of_le_of_lt UInt64.zero_le hcurrent
  -- First comes all that is left of this turn, then what the window has of the next.
  have htail := collect_rest p.playback.recording.samples p.playback.recording.durationUs 32
    p.playback.sampleIndex hlast (by omega)
  have hhead := collect_window p.playback.recording.samples
    (p.windowEnd deltaUs % p.playback.recording.durationUs)
    (32 - (p.playback.recording.samples.drop p.playback.sampleIndex).length) 0 hsorted (by
      refine le_trans (List.countP_mono_left fun s _ hs => ?_)
        (Nat.le_sub_of_add_le (Nat.add_comm _ _ ▸ hroom))
      rw [decide_eq_true_iff, UInt64.lt_iff_toNat_lt, hnew] at hs
      exact decide_eq_true (by omega))
  unfold playStep
  rw [advance_wrap p deltaUs ⟨hloop, hpos, hreach⟩]
  dsimp only at hhead ⊢
  rw [htail]
  refine ⟨⟨rfl, ?_, fun s hs => ?_, hhead.2.2⟩, ?_⟩
  · dsimp only
    rw [h.played_eq, hhead.1, List.take_zero, List.nil_append]
    simp only [List.append_assoc]
    rw [← List.append_assoc (List.take _ _), List.take_append_drop]
  · rw [hhead.1, List.take_zero, List.nil_append] at hs
    exact hhead.2.1 s hs
  · exact UInt64.mod_lt _ hpos

/-- A step of a player that does not loop. -/
theorem upto_step_once (p : Played) (deltaUs : UInt64)
    (h : Upto recording [] p ∧ p.playback.looping = false) (hfits : WindowFits p deltaUs) :
    (Upto recording [] (playStep p deltaUs) ∧ (playStep p deltaUs).playback.looping = false) ∧
      (playStep p deltaUs).playback.currentUs = p.windowEnd deltaUs := by
  have hnowrap : ¬ (p.playback.looping = true ∧ 0 < recording.durationUs ∧
      recording.durationUs ≤ p.windowEnd deltaUs) :=
    fun hwrap => absurd (h.2.symm.trans hwrap.1) (by decide)
  have hstep := upto_step recording hsorted p deltaUs [] h.1 hfits hnowrap
  refine ⟨⟨hstep.1, ?_⟩, hstep.2⟩
  rcases h.1.recording_eq with rfl
  unfold playStep
  rw [advance_window p deltaUs hnowrap]
  exact h.2

section

variable (hlast : ∀ s ∈ recording.samples, s.timestampUs ≤ recording.durationUs)

include hlast

/-- A window is complete when it finishes the playback exactly when it does not
    end on the duration. -/
theorem completeWhenFinished_iff
    (hmax : ∃ s ∈ recording.samples, s.timestampUs = recording.durationUs) (p : Played)
    (deltaUs : UInt64) (h : Upto recording [] p ∧ p.playback.looping = false)
    (hfits : WindowFits p deltaUs) : CompleteWhenFinished p deltaUs ↔ EndsBeyond p deltaUs := by
  rcases upto_step_once recording hsorted p deltaUs h hfits with ⟨⟨hnext, hloop⟩, hcurrent⟩
  rcases h.1.recording_eq with rfl
  have hplayed := hnext.played_eq
  rw [List.nil_append] at hplayed
  have hprefix : (playStep p deltaUs).played <+: p.playback.recording.samples :=
    hplayed ▸ List.take_prefix _ _
  -- Without loop, the position alone says whether the playback is finished.
  have hfinished : p.playback.isFinished = false ↔
      p.playback.currentUs < p.playback.recording.durationUs := by
    unfold AxisPlayback.isFinished
    rw [h.2, Bool.not_false, Bool.true_and, decide_eq_false_iff_not, UInt64.not_le]
  have hthen : (playStep p deltaUs).playback.isFinished = true ↔
      p.playback.recording.durationUs ≤ p.windowEnd deltaUs := by
    unfold AxisPlayback.isFinished
    rw [hloop, Bool.not_false, Bool.true_and, decide_eq_true_iff, hnext.recording_eq, hcurrent]
  unfold CompleteWhenFinished EndsBeyond
  rw [and_iff_right hprefix, hfinished, hthen]
  refine imp_congr_right fun _ => ⟨fun hall hends => ?_, fun hends hreach => ?_⟩
  · -- The sample at the duration would have to be before the end of the window.
    rcases hmax with ⟨s, hs, hts⟩
    rw [← hall (hends ▸ UInt64.le_refl _), hplayed] at hs
    have hbefore := hnext.before s hs
    rw [hcurrent, hends, hts] at hbefore
    exact UInt64.lt_irrefl _ hbefore
  · -- A sample that is left would be later than the time reached.
    have hnone :
        p.playback.recording.samples.drop (playStep p deltaUs).playback.sampleIndex = [] := by
      refine List.eq_nil_iff_forall_not_mem.mpr fun s hs => hends ?_
      have hafter := hnext.after s hs
      rw [hcurrent] at hafter
      exact UInt64.le_antisymm (UInt64.le_trans hafter (hlast s (List.mem_of_mem_drop hs))) hreach
    rw [hplayed, List.take_of_length_le (List.drop_eq_nil_iff.mp hnone)]

/-- A step of a looping player. -/
theorem inOrder_step (p : Played) (deltaUs : UInt64) (turns : ℕ)
    (h : Upto recording (List.replicate turns recording.samples).flatten p)
    (hloop : p.playback.looping = true) (hcurrent : p.playback.currentUs < recording.durationUs)
    (hdelta : deltaUs ≤ recording.durationUs) (hfits : WindowFits p deltaUs)
    (hend : EndFits p deltaUs) :
    ∃ turns', Upto recording (List.replicate turns' recording.samples).flatten
        (playStep p deltaUs) ∧
      (playStep p deltaUs).playback.looping = true ∧
      (playStep p deltaUs).playback.currentUs < recording.durationUs := by
  by_cases hreach : recording.durationUs ≤ p.windowEnd deltaUs
  · obtain ⟨hnext, hpos⟩ := upto_step_wrap recording hsorted p deltaUs _ h hloop hlast hcurrent
      hdelta hreach hfits hend
    refine ⟨turns + 1, ?_, ?_, hpos⟩
    · rw [List.replicate_succ', List.flatten_append, List.flatten_singleton]
      exact hnext
    · rcases h.recording_eq with rfl
      unfold playStep
      rw [advance_wrap p deltaUs ⟨hloop, UInt64.lt_of_le_of_lt UInt64.zero_le hcurrent, hreach⟩]
      exact hloop
  · have hnowrap : ¬ (p.playback.looping = true ∧ 0 < recording.durationUs ∧
        recording.durationUs ≤ p.windowEnd deltaUs) := fun hwrap => hreach hwrap.2.2
    rcases upto_step recording hsorted p deltaUs _ h hfits hnowrap with ⟨hnext, hpos⟩
    refine ⟨turns, hnext, ?_, hpos ▸ UInt64.not_le.mp hreach⟩
    rcases h.recording_eq with rfl
    unfold playStep
    rw [advance_window p deltaUs hnowrap]
    exact hloop

end

end

end

section

variable (samples : List AxisSample) (hsorted : Ascending samples) (deltas : List UInt64)
include hsorted

/-- A playback without loop is complete when it is first finished exactly when the recording is
    empty, or is not over at once and no window ends on the duration. -/
theorem playback_complete_iff
    (hfits : StepsMeet playStep WindowFits (.new (.recordAll samples) false) deltas) :
    ((AxisPlayback.new (.recordAll samples) false).isFinished = true → samples = []) ∧
        StepsMeet playStep CompleteWhenFinished (.new (.recordAll samples) false) deltas ↔
      samples = [] ∨ (0 < (AxisRecording.recordAll samples).durationUs ∧
        StepsMeet playStep EndsBeyond (.new (.recordAll samples) false) deltas) := by
  have hordered : Ascending (AxisRecording.recordAll samples).samples := by
    rwa [recordAll_samples]
  have hduration := recordAll_duration samples
  have hfinished : (AxisPlayback.new (.recordAll samples) false).isFinished = true ↔
      ¬ 0 < (AxisRecording.recordAll samples).durationUs :=
    decide_eq_true_iff.trans UInt64.not_lt.symm
  have hstart : Upto (.recordAll samples) [] (.new (.recordAll samples) false) ∧
      (Played.new (.recordAll samples) false).playback.looping = false :=
    ⟨upto_new _ false, rfl⟩
  by_cases hempty : samples = []
  · -- Nothing is given out, and there is nothing to give out.
    refine iff_of_true ⟨fun _ => hempty, ?_⟩ (Or.inl hempty)
    refine stepsMeet_of_stepsMeet playStep (fun p => Upto (.recordAll samples) [] p ∧
      p.playback.looping = false) _ _ (fun p deltaUs h hfit => ?_) _ deltas hstart hfits
    have hnext := (upto_step_once _ hordered p deltaUs h hfit).1
    have hnone : (playStep p deltaUs).played = [] := by
      rw [hnext.1.played_eq, recordAll_samples, hempty, List.take_nil, List.append_nil]
    refine ⟨⟨hnone ▸ List.nil_prefix, fun _ _ => ?_⟩, hnext⟩
    rw [hnone, h.1.recording_eq, recordAll_samples, hempty]
  · have hlong : ((AxisPlayback.new (.recordAll samples) false).isFinished = true → samples = []) ↔
        0 < (AxisRecording.recordAll samples).durationUs := by
      rw [hfinished]
      exact ⟨fun h => by_contra fun hover => hempty (h hover), fun hpos hover => absurd hpos hover⟩
    rw [hlong, or_iff_right hempty]
    refine and_congr_right fun hpos => ?_
    have hiff := fun p deltaUs => completeWhenFinished_iff _ hordered
      (by rw [recordAll_samples]; exact hduration.1)
      (by rw [recordAll_samples]; exact hduration.2 hpos) p deltaUs
    -- Along a run the invariant makes the two conditions one.
    constructor
    · intro hcomplete
      exact stepsMeet_of_stepsMeet playStep _ _ _ (fun p deltaUs h hboth =>
        ⟨(hiff p deltaUs h hboth.1).mp hboth.2, (upto_step_once _ hordered p deltaUs h hboth.1).1⟩)
        _ deltas hstart ((stepsMeet_and playStep _ _ _ deltas).mpr ⟨hfits, hcomplete⟩)
    · intro hends
      exact stepsMeet_of_stepsMeet playStep _ _ _ (fun p deltaUs h hboth =>
        ⟨(hiff p deltaUs h hboth.1).mpr hboth.2, (upto_step_once _ hordered p deltaUs h hboth.1).1⟩)
        _ deltas hstart ((stepsMeet_and playStep _ _ _ deltas).mpr ⟨hfits, hends⟩)

/-- A looping playback gives out the recording again and again, when every window
    that ends on the duration has room for the samples there. -/
theorem playback_in_order (hdeltas : ∀ deltaUs ∈ deltas,
      0 < deltaUs ∧ deltaUs ≤ (AxisRecording.recordAll samples).durationUs)
    (hfits : StepsMeet playStep (fun p deltaUs => WindowFits p deltaUs ∧ EndFits p deltaUs)
      (.new (.recordAll samples) true) deltas) :
    StepsMeet playStep InOrder (.new (.recordAll samples) true) deltas := by
  rcases deltas.eq_nil_or_concat' with rfl | ⟨front, back, rfl⟩
  · trivial
  · have hpos : 0 < (AxisRecording.recordAll samples).durationUs := by
      have hback := hdeltas back (List.mem_append_right _ List.mem_cons_self)
      exact UInt64.lt_of_lt_of_le hback.1 hback.2
    have hordered : Ascending (AxisRecording.recordAll samples).samples := by
      rwa [recordAll_samples]
    have hlast : ∀ s ∈ (AxisRecording.recordAll samples).samples,
        s.timestampUs ≤ (AxisRecording.recordAll samples).durationUs := by
      rw [recordAll_samples]
      exact (recordAll_duration samples).1
    refine stepsMeet_of_stepsMeet playStep (fun p => ∃ turns,
      Upto (.recordAll samples)
          (List.replicate turns (AxisRecording.recordAll samples).samples).flatten p ∧
        p.playback.looping = true ∧
        p.playback.currentUs < (AxisRecording.recordAll samples).durationUs) _ _
      (fun p deltaUs h hok => ?_) _ _ ⟨0, upto_new _ true, rfl, hpos⟩
      (stepsMeet_and_mem playStep _ _ _ hdeltas _ hfits)
    rcases h with ⟨turns, hupto, hloop, hcurrent⟩
    obtain ⟨turns', hnext, hrest⟩ := inOrder_step _ hordered hlast p deltaUs turns hupto hloop
      hcurrent hok.2.2 hok.1.1 hok.1.2
    refine ⟨⟨turns' + 1, ?_⟩, turns', hnext, hrest⟩
    rw [hnext.played_eq, hupto.recording_eq, List.replicate_succ', List.flatten_append,
      List.flatten_singleton]
    exact (List.prefix_append_right_inj _).mpr (List.take_prefix _ _)

end

/-- For every recording in the order of its times and every list of windows with at most 32 samples
    each: without loop, the playback gives out a beginning of the recording, and all of it when it
    is first finished, exactly when the recording is empty, or is not over at once and no window
    ends on the duration. In a loop, with times up to the duration, it gives out the recording again
    and again when every window that ends on the duration has room for the samples there. -/
theorem playback_loses_nothing (samples : List AxisSample) (hsorted : Ascending samples) :
    (∀ deltas, StepsMeet playStep WindowFits (.new (.recordAll samples) false) deltas →
      (((AxisPlayback.new (.recordAll samples) false).isFinished = true → samples = []) ∧
          StepsMeet playStep CompleteWhenFinished (.new (.recordAll samples) false) deltas ↔
        samples = [] ∨ (0 < (AxisRecording.recordAll samples).durationUs ∧
          StepsMeet playStep EndsBeyond (.new (.recordAll samples) false) deltas))) ∧
    (∀ deltas, (∀ deltaUs ∈ deltas,
        0 < deltaUs ∧ deltaUs ≤ (AxisRecording.recordAll samples).durationUs) →
      StepsMeet playStep (fun p deltaUs => WindowFits p deltaUs ∧ EndFits p deltaUs)
        (.new (.recordAll samples) true) deltas →
      StepsMeet playStep InOrder (.new (.recordAll samples) true) deltas) :=
  ⟨fun deltas hfits => playback_complete_iff samples hsorted deltas hfits,
    fun deltas hdeltas hfits => playback_in_order samples hsorted deltas hdeltas hfits⟩

/-- Samples at 100 µs, 250 µs and 500 µs, two of one axis. -/
def threeSamples : List AxisSample :=
  [{ timestampUs := 100, axisIndex := 0, value := .fin 1 },
    { timestampUs := 250, axisIndex := 1, value := .fin 0 },
    { timestampUs := 500, axisIndex := 0, value := .fin (1 / 2) }]

/-- They are played once and in a loop, in steps that end beyond the last of them. -/
theorem playback_past_the_end_loses_nothing :
    StepsMeet playStep CompleteWhenFinished (.new (.recordAll threeSamples) false) [300, 300] ∧
    StepsMeet playStep InOrder (.new (.recordAll threeSamples) true) [300, 300, 400] := by
  have hsorted : Ascending threeSamples := by decide
  rcases playback_loses_nothing threeSamples hsorted with ⟨honce, hloop⟩
  refine ⟨((honce [300, 300] (by decide)).mpr (Or.inr (by decide))).2, ?_⟩
  refine hloop [300, 300, 400] ?_ (by decide)
  simp only [List.forall_mem_cons]
  exact ⟨by decide, by decide, by decide, fun _ h => absurd h List.not_mem_nil⟩

/-- A step of 500 µs finishes the playback of a sample at 500 µs, and has not given it out. -/
theorem finished_before_last_sample :
    WindowFits (.new (.recordAll [{ timestampUs := 500, axisIndex := 0, value := .fin 1 }]) false)
        500 ∧
      ¬ CompleteWhenFinished
        (.new (.recordAll [{ timestampUs := 500, axisIndex := 0, value := .fin 1 }]) false)
        500 := by
  decide

end OpenFlight.Axis
