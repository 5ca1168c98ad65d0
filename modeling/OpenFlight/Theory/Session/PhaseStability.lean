import OpenFlight.Core.Session.PhaseTracker
import OpenFlight.Lib.Run

/-!
# Phases of Flight Are Stable

When the phase of flight changes, and how often.

The tracker does not keep the frames it has seen. It keeps a candidate and a count, and
the count is never more than the number of frames, back from the last one, that were
classified as the candidate. A frame that is classified otherwise leaves no candidate, or
another one whose count starts again. The count has 32 bits, and where it wraps it only
falls behind.

## Main definitions

* `frameStep`, `afterFrames`: The tracker after some frames.
* `EndsIn`: The last frames were classified alike.

## Theorems

* `phase_stable`: The phase changes after enough frames, and not too often.
-/

namespace OpenFlight.Session

section

variable (config : PofHysteresisConfig)

/-- A snapshot and the clock readings of the call that handles it. -/
abbrev Frame := TelemetrySnapshot × Readings

/-- The phase that a frame is classified as. -/
def Frame.phase (frame : Frame) : PhaseOfFlight :=
  determinePhaseOfFlight frame.1

def frameStep (tracker : PofTracker) (frame : Frame) : PofTracker :=
  (tracker.updatePof frame.phase frame.1 config frame.2).1

/-- The tracker after some frames. -/
def afterFrames (frames : List Frame) : PofTracker :=
  run (frameStep config) {} frames

variable (tracker : PofTracker)

/-- What a frame can do: it is of the current phase, it completes a change, it continues
    the candidate, or it starts a new one. -/
theorem updatePof_cases (frame : Frame) : (tracker.currentPof = some frame.phase ∧
      (frameStep config tracker frame).currentPof = tracker.currentPof ∧
      (frameStep config tracker frame).pofEnterTime = tracker.pofEnterTime ∧
      (frameStep config tracker frame).candidatePof = none) ∨
    (tracker.currentPof ≠ some frame.phase ∧ tracker.candidatePof = some frame.phase ∧
      config.consecutiveFramesRequired ≤
        (tracker.consecutiveFrames.lookup frame.phase).getD 0 + 1 ∧
      tracker.timeOk (frame.2 0) config = true ∧
      (frameStep config tracker frame).currentPof = some frame.phase ∧
      (frameStep config tracker frame).pofEnterTime = some (frame.2 0) ∧
      (frameStep config tracker frame).candidatePof = none) ∨
    (tracker.candidatePof = some frame.phase ∧
      (frameStep config tracker frame).currentPof = tracker.currentPof ∧
      (frameStep config tracker frame).pofEnterTime = tracker.pofEnterTime ∧
      (frameStep config tracker frame).candidatePof = some frame.phase ∧
      (frameStep config tracker frame).consecutiveFrames.lookup frame.phase =
        some ((tracker.consecutiveFrames.lookup frame.phase).getD 0 + 1)) ∨
    ((frameStep config tracker frame).currentPof = tracker.currentPof ∧
      (frameStep config tracker frame).pofEnterTime = tracker.pofEnterTime ∧
      (frameStep config tracker frame).candidatePof = some frame.phase ∧
      (frameStep config tracker frame).consecutiveFrames.lookup frame.phase = some 1) := by
  unfold frameStep PofTracker.updatePof
  by_cases hcurrent : tracker.currentPof = some frame.phase
  · left
    simp [hcurrent]
  right
  by_cases hcandidate : tracker.candidatePof = some frame.phase
  · by_cases hcount : config.consecutiveFramesRequired ≤
        (tracker.consecutiveFrames.lookup frame.phase).getD 0 + 1
    · by_cases htime : tracker.timeOk (frame.2 0) config = true
      · left
        have htime' := htime
        unfold PofTracker.timeOk at htime'
        simp [hcurrent, hcandidate, hcount, PofTracker.timeOk, htime']
      · -- Frames enough, but too soon: the candidate stays.
        right
        left
        have htime' := htime
        unfold PofTracker.timeOk at htime'
        simp [hcurrent, hcandidate, hcount, PofTracker.timeOk, htime', Finmap.lookup_insert]
    · right
      left
      simp [hcurrent, hcandidate, hcount, Finmap.lookup_insert]
  · right
    right
    simp [hcurrent, hcandidate, Finmap.lookup_insert]

/-- The last frames, at least as many as `n`, were classified alike. -/
def EndsIn (n : ℕ) (phase : PhaseOfFlight) (frames : List Frame) : Prop :=
  ∃ before during, frames = before ++ during ∧ n ≤ during.length ∧
    ∀ frame ∈ during, frame.phase = phase

theorem EndsIn.concat {n : ℕ} {phase : PhaseOfFlight} {frames : List Frame} {frame : Frame}
    (h : EndsIn n phase frames) (hphase : frame.phase = phase) :
    EndsIn (n + 1) phase (frames ++ [frame]) := by
  rcases h with ⟨before, during, rfl, hlength, hall⟩
  refine ⟨before, during ++ [frame], List.append_assoc _ _ _, ?_, fun other hother => ?_⟩
  · rw [List.length_append]
    exact Nat.succ_le_succ hlength
  · rcases List.mem_append.mp hother with hold | hnew
    · exact hall other hold
    · rw [List.mem_singleton.mp hnew, hphase]

theorem EndsIn.mono {m n : ℕ} {phase : PhaseOfFlight} {frames : List Frame}
    (h : EndsIn n phase frames) (hle : m ≤ n) : EndsIn m phase frames := by
  rcases h with ⟨before, during, heq, hlength, hall⟩
  exact ⟨before, during, heq, hle.trans hlength, hall⟩

variable (frames : List Frame)

theorem endsIn_singleton (frame : Frame) : EndsIn 1 frame.phase (frames ++ [frame]) := by
  refine ⟨frames, [frame], rfl, le_refl 1, fun other hother => ?_⟩
  rw [List.mem_singleton.mp hother]

theorem toNat_succ_le (count : UInt32) : (count + 1).toNat ≤ count.toNat + 1 := by
  rw [UInt32.toNat_add]
  exact Nat.mod_le _ _

/-- The count of the candidate is at most the number of last frames of its phase. -/
def Counted (tracker : PofTracker) (frames : List Frame) : Prop :=
  ∀ phase, tracker.candidatePof = some phase →
    EndsIn ((tracker.consecutiveFrames.lookup phase).getD 0).toNat phase frames

theorem counted_frameStep (frame : Frame) (h : Counted tracker frames) :
    Counted (frameStep config tracker frame) (frames ++ [frame]) := by
  intro phase hphase
  rcases updatePof_cases config tracker frame with
    ⟨_, _, _, hnone⟩ | ⟨_, _, _, _, _, _, hnone⟩ | ⟨hold, _, _, hnew, hcount⟩ | ⟨_, _, hnew, hcount⟩
  · rw [hnone] at hphase
    cases hphase
  · rw [hnone] at hphase
    cases hphase
  · -- The count wraps where the frames do not, and so it is at most their number.
    rw [hnew, Option.some.injEq] at hphase
    subst hphase
    rw [hcount]
    exact ((h _ hold).concat rfl).mono (toNat_succ_le _)
  · rw [hnew, Option.some.injEq] at hphase
    subst hphase
    rw [hcount]
    exact endsIn_singleton frames frame

theorem afterFrames_concat (frame : Frame) :
    afterFrames config (frames ++ [frame]) = frameStep config (afterFrames config frames) frame :=
  run_append ..

/-- The count along a run. -/
theorem counted_afterFrames : Counted (afterFrames config frames) frames := by
  induction frames using List.reverseRecOn with
  | nil => exact fun _ h => by cases h
  | append_singleton frames frame ih =>
      rw [afterFrames_concat]
      exact counted_frameStep config _ _ _ ih

/-- The times of the frames that change the phase. -/
def changeTimes : PofTracker → List Frame → List Instant
  | _, [] => []
  | tracker, frame :: rest =>
      if (frameStep config tracker frame).currentPof = tracker.currentPof then
        changeTimes (frameStep config tracker frame) rest
      else frame.2 0 :: changeTimes (frameStep config tracker frame) rest

/-- The time of the last change counts as well, where there is a current phase. -/
theorem changeTimes_spaced (h : tracker.pofEnterTime.isSome = tracker.currentPof.isSome) :
    (tracker.pofEnterTime.toList ++ changeTimes config tracker frames).IsChain
      fun t t' => config.minPhaseTime ≤ durationSince t' t := by
  induction frames generalizing tracker with
  | nil =>
      rw [changeTimes, List.append_nil]
      cases tracker.pofEnterTime with
      | none => exact List.isChain_nil
      | some t => exact List.isChain_singleton t
  | cons frame rest ih =>
      rw [changeTimes]
      by_cases hsame : (frameStep config tracker frame).currentPof = tracker.currentPof
      · -- Without a change the time of the last one stays, and the rest is chained to it.
        rw [if_pos hsame]
        have htime : (frameStep config tracker frame).pofEnterTime = tracker.pofEnterTime := by
          rcases updatePof_cases config tracker frame with
            ⟨_, _, htime, _⟩ | ⟨hne, _, _, _, hnew, _, _⟩ | ⟨_, _, htime, _⟩ | ⟨_, htime, _⟩
          · exact htime
          · exact absurd (hsame ▸ hnew) hne
          · exact htime
          · exact htime
        have hrest := ih (frameStep config tracker frame) (by rw [htime, hsame, h])
        rw [htime] at hrest
        exact hrest
      · rw [if_neg hsame]
        rcases updatePof_cases config tracker frame with
          ⟨_, heq, _⟩ | ⟨_, _, _, hok, hnew, htime, _⟩ | ⟨_, heq, _⟩ | ⟨heq, _⟩
        · exact absurd heq hsame
        · have hrest := ih (frameStep config tracker frame) (by rw [htime, hnew]; rfl)
          rw [htime, Option.toList_some, List.singleton_append] at hrest
          -- The first change of all has none before it, and is not checked.
          cases hlast : tracker.pofEnterTime with
          | none => exact hrest
          | some t =>
              rw [hlast, Option.isSome_some] at h
              rcases Option.isSome_iff_exists.mp h.symm with ⟨phase, hphase⟩
              rw [PofTracker.timeOk, hphase, hlast, decide_eq_true_eq] at hok
              exact List.isChain_cons_cons.mpr ⟨hok, hrest⟩
        · exact absurd heq hsame
        · exact absurd heq hsame

/-- A frame that changes the phase and the frames right before it, together at least as many
    as are required, were classified as the new phase, and between two changes the least
    time of a phase has passed. -/
theorem phase_stable (frames : List Frame) : (∀ done frame rest, frames = done ++ frame :: rest →
      (afterFrames config (done ++ [frame])).currentPof ≠ (afterFrames config done).currentPof →
      ∃ phase, (afterFrames config (done ++ [frame])).currentPof = some phase ∧
        EndsIn config.consecutiveFramesRequired.toNat phase (done ++ [frame])) ∧
    (changeTimes config {} frames).IsChain
      fun t t' => config.minPhaseTime ≤ durationSince t' t := by
  refine ⟨fun done frame rest _ hchange => ?_, changeTimes_spaced config {} frames rfl⟩
  rw [afterFrames_concat] at hchange ⊢
  have hcounted := counted_afterFrames config done
  generalize afterFrames config done = tracker at *
  rcases updatePof_cases config tracker frame with
    ⟨_, heq, _⟩ | ⟨_, hold, hcount, _, hnew, _, _⟩ | ⟨_, heq, _⟩ | ⟨heq, _⟩
  · exact absurd heq hchange
  · refine ⟨frame.phase, hnew, ((hcounted _ hold).concat rfl).mono ?_⟩
    exact (UInt32.le_iff_toNat_le.mp hcount).trans (toNat_succ_le _)
  · exact absurd heq hchange
  · exact absurd heq hchange

/-- A taxiing aircraft. -/
def taxiing : TelemetrySnapshot where
  iasKnots := .fin 10
  groundSpeedKnots := .fin 15
  altitudeFeet := .fin 0
  verticalSpeedFpm := .fin 0
  gearDown := true

/-- Where two frames are required, the second one changes the phase. -/
theorem phase_stable_taxiing :
    changeTimes ⟨fromSecs 5, ∅, 2⟩ {} [(taxiing, fun _ => 1), (taxiing, fun _ => 2)] = [2] ∧
      ∃ phase, (afterFrames ⟨fromSecs 5, ∅, 2⟩
          [(taxiing, fun _ => 1), (taxiing, fun _ => 2)]).currentPof = some phase ∧
        EndsIn 2 phase [(taxiing, fun _ => 1), (taxiing, fun _ => 2)] :=
  ⟨by decide, (phase_stable ⟨fromSecs 5, ∅, 2⟩ [(taxiing, fun _ => 1), (taxiing, fun _ => 2)]).1
    [(taxiing, fun _ => 1)] (taxiing, fun _ => 2) [] rfl (by decide)⟩

end

end OpenFlight.Session
