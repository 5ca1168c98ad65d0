import OpenFlight.Core.Ffb.Fault
import OpenFlight.Lib.Run
import Mathlib.Data.List.Induction

/-!
# Fault Captures

Which entries a completed fault capture holds, against everything that was
recorded around the fault.

The entries after the fault are collected by call order and the ones before
it by time stamp, with a strict comparison that is there to leave the fault
itself out, since it has just been appended to the buffer. It also leaves out
what was recorded before the fault at the fault's own instant. Those entries
are in the window and in no part of the capture. `faultCapture_whole_iff` says
that nothing else is ever missing.

As long as the buffer has not wrapped it is the record of the run, and the
active capture is a function of where the last fault stands in it. `Capturing`
is that fact, `run_recorder` its induction over the calls.

## Main definitions

* `RecorderCall`, `recorderStep`: The calls and the recorder after one.
* `recorded`: Everything recorded by a run, faults included.

## Theorems

* `faultCapture_whole_iff`: When a completed capture has everything.
* `faultCapture_same_instant`: An entry that is lost.
-/

namespace OpenFlight.Ffb

inductive RecorderCall
  | record (entry : BlackboxEntry)
  | startFaultCapture (faultEntry : BlackboxEntry)

def RecorderCall.entry : RecorderCall → BlackboxEntry
  | .record entry => entry
  | .startFaultCapture faultEntry => faultEntry

def recorderStep (r : BlackboxRecorder) : RecorderCall → BlackboxRecorder
  | .record entry => r.record entry
  | .startFaultCapture faultEntry => r.startFaultCapture faultEntry

/-- Everything the calls put into the buffer, oldest first. -/
def recorded (calls : List RecorderCall) : List BlackboxEntry :=
  calls.map RecorderCall.entry

/-- The entries of a capture, in the order of the dump. -/
def FaultCapture.entries (capture : FaultCapture) : List BlackboxEntry :=
  capture.preFaultEntries ++ capture.faultEntry :: capture.postFaultEntries

/-- The capture holds every entry of the log from the start of its window on,
    each once and in order. -/
def FaultCapture.Whole (config : BlackboxConfig) (log : List BlackboxEntry)
    (capture : FaultCapture) : Prop :=
  capture.entries = log.filter fun entry =>
    decide (capture.faultTime - config.preFaultDuration ≤ entry.timestamp)

/-- The recorder after a run that fits into its buffer. An active capture was opened by the last
    fault of the run, after which came only entries that are too early to complete it. -/
structure Capturing (config : BlackboxConfig) (calls : List RecorderCall)
    (r : BlackboxRecorder) : Prop where
  config_eq : r.config = config
  capacity : r.maxCompletedCaptures = 10
  buffer : r.circularBuffer = recorded calls
  active : ∀ capture, r.activeCapture = some capture →
    ∃ before during,
      calls = before ++ .startFaultCapture capture.faultEntry :: during.map .record ∧
      capture.complete = false ∧
      capture.faultTime = capture.faultEntry.timestamp ∧
      capture.preFaultEntries =
        (recorded before ++ [capture.faultEntry]).filter (fun entry =>
          decide (capture.faultTime - config.preFaultDuration ≤ entry.timestamp) &&
            decide (entry.timestamp < capture.faultTime)) ∧
      capture.postFaultEntries = during ∧
      ∀ entry ∈ during,
        durationSince entry.timestamp capture.faultTime < config.postFaultDuration

section

variable {config : BlackboxConfig} {calls : List RecorderCall} {r : BlackboxRecorder}

theorem recorded_concat (call : RecorderCall) :
    recorded (calls ++ [call]) = recorded calls ++ [call.entry] := by
  simp [recorded]

/-- While the buffer has room, an append loses nothing. -/
theorem Capturing.pushBuffer_eq (h : Capturing config calls r)
    (hroom : calls.length < config.maxEntries) (entry : BlackboxEntry) :
    r.pushBuffer entry = recorded calls ++ [entry] := by
  have hlength : r.circularBuffer.length = calls.length := by
    rw [h.buffer, recorded, List.length_map]
  unfold BlackboxRecorder.pushBuffer
  rw [h.config_eq, hlength, if_neg (Nat.not_le.mpr hroom), h.buffer]

/-- What `record` does to the active capture. -/
theorem record_cases (r : BlackboxRecorder) (entry : BlackboxEntry) : (r.activeCapture = none ∧
      r.record entry = { r with circularBuffer := r.pushBuffer entry }) ∨
    ∃ capture, r.activeCapture = some capture ∧
      ((capture.complete = true ∧
        r.record entry = { r with circularBuffer := r.pushBuffer entry }) ∨
      (capture.complete = false ∧
        r.config.postFaultDuration ≤ durationSince entry.timestamp capture.faultTime ∧
        r.record entry =
          { r with
            circularBuffer := r.pushBuffer entry
            activeCapture := none
            completedCaptures := pushBounded r.maxCompletedCaptures r.completedCaptures
              { capture with
                postFaultEntries := capture.postFaultEntries ++ [entry]
                complete := true } }) ∨
      (capture.complete = false ∧
        durationSince entry.timestamp capture.faultTime < r.config.postFaultDuration ∧
        r.record entry =
          { r with
            circularBuffer := r.pushBuffer entry
            activeCapture := some
              { capture with postFaultEntries := capture.postFaultEntries ++ [entry] } })) := by
  unfold BlackboxRecorder.record
  cases hactive : r.activeCapture with
  | none => exact .inl ⟨rfl, rfl⟩
  | some capture =>
      refine .inr ⟨capture, rfl, ?_⟩
      cases hcomplete : capture.complete with
      | true => exact .inl ⟨rfl, by simp only [hcomplete, if_true]⟩
      | false =>
          by_cases hlate :
              r.config.postFaultDuration ≤ durationSince entry.timestamp capture.faultTime
          · refine .inr (.inl ⟨rfl, hlate, ?_⟩)
            simp only [hcomplete, Bool.false_eq_true, if_false, if_pos hlate]
          · refine .inr (.inr ⟨rfl, not_le.mp hlate, ?_⟩)
            simp only [hcomplete, Bool.false_eq_true, if_false, if_neg hlate]

theorem capturing_record (h : Capturing config calls r)
    (hroom : calls.length < config.maxEntries) (entry : BlackboxEntry) :
    Capturing config (calls ++ [.record entry]) (r.record entry) := by
  have hbuffer : r.pushBuffer entry = recorded (calls ++ [.record entry]) := by
    rw [h.pushBuffer_eq hroom, recorded_concat]
    rfl
  rcases record_cases r entry with
    ⟨hnone, heq⟩ | ⟨capture, hactive, ⟨hcomplete, heq⟩ | ⟨-, -, heq⟩ | ⟨hcomplete, hearly, heq⟩⟩
  · rw [heq]
    refine ⟨h.config_eq, h.capacity, hbuffer, fun capture hcapture => ?_⟩
    rw [hnone] at hcapture
    cases hcapture
  · -- An active capture is never marked complete.
    rcases h.active capture hactive with ⟨_, _, _, hfalse, _⟩
    rw [hcomplete] at hfalse
    cases hfalse
  · rw [heq]
    -- The capture was completed by this entry, so none is active.
    refine ⟨h.config_eq, h.capacity, hbuffer, fun capture hcapture => ?_⟩
    cases hcapture
  · rw [heq]
    -- The capture goes on with one more entry after its fault.
    refine ⟨h.config_eq, h.capacity, hbuffer, fun capture' hcapture => ?_⟩
    rcases h.active capture hactive with ⟨before, during, hcalls, -, htime, hpre, hpost, hduring⟩
    simp only [Option.some.injEq] at hcapture
    subst hcapture
    refine ⟨before, during ++ [entry], ?_, hcomplete, htime, hpre, by rw [hpost], ?_⟩
    · rw [hcalls]
      simp
    · intro e he
      rcases List.mem_append.mp he with he | he
      · exact hduring e he
      · rw [List.mem_singleton.mp he, ← h.config_eq]
        exact hearly

theorem capturing_startFaultCapture (h : Capturing config calls r)
    (hroom : calls.length < config.maxEntries) (faultEntry : BlackboxEntry) :
    Capturing config (calls ++ [.startFaultCapture faultEntry])
      (r.startFaultCapture faultEntry) := by
  have hbuffer := h.pushBuffer_eq hroom faultEntry
  unfold BlackboxRecorder.startFaultCapture
  refine ⟨h.config_eq, h.capacity, ?_, fun capture hcapture => ?_⟩
  · rw [recorded_concat]
    exact hbuffer
  · simp only [Option.some.injEq] at hcapture
    subst hcapture
    refine ⟨calls, [], by simp, rfl, rfl, ?_, rfl, fun e he => by cases he⟩
    -- The window is cut out of the buffer with the fault already in it.
    rw [hbuffer, h.config_eq]

/-- The recorder after a run of at most `max_entries` calls. -/
theorem run_recorder (config : BlackboxConfig) (calls : List RecorderCall)
    (hroom : calls.length ≤ config.maxEntries) :
    Capturing config calls (run recorderStep { config := config } calls) := by
  induction calls using List.reverseRecOn with
  | nil => exact ⟨rfl, rfl, rfl, fun capture hcapture => by cases hcapture⟩
  | append_singleton calls call ih =>
      rw [List.length_append, List.length_singleton] at hroom
      rw [run_append]
      -- What fits with the last call fits without it.
      have hbefore := ih (Nat.le_of_succ_le hroom)
      cases call with
      | record entry => exact capturing_record hbefore hroom entry
      | startFaultCapture faultEntry =>
          exact capturing_startFaultCapture hbefore hroom faultEntry

/-- A completed capture is the last of the completed ones. -/
theorem getLast?_pushBounded {α : Type*} (bound : Nat) (queue : List α) (x : α)
    (hbound : 0 < bound) : (pushBounded bound queue x).getLast? = some x := by
  unfold pushBounded
  by_cases hover : bound < (queue ++ [x]).length
  · rw [if_pos hover, List.getLast?_tail, if_neg (by omega), List.getLast?_concat]
  · rw [if_neg hover, List.getLast?_concat]

/-- Entries none of which is later than the fault: the strict comparison keeps
    those of the window exactly when none of them has the fault's time. -/
theorem filter_window_iff (log : List BlackboxEntry) (cutoff faultTime : Instant)
    (hcutoff : cutoff ≤ faultTime) (hbefore : ∀ entry ∈ log, entry.timestamp ≤ faultTime) :
    (log.filter fun entry =>
        decide (cutoff ≤ entry.timestamp) && decide (entry.timestamp < faultTime))
      = log.filter (fun entry => decide (cutoff ≤ entry.timestamp)) ↔
      ∀ entry ∈ log, entry.timestamp ≠ faultTime := by
  have hsplit : (log.filter fun entry =>
        decide (cutoff ≤ entry.timestamp) && decide (entry.timestamp < faultTime))
      = (log.filter fun entry => decide (cutoff ≤ entry.timestamp)).filter
          fun entry => decide (entry.timestamp < faultTime) := by
    rw [List.filter_filter]
    exact List.filter_congr fun entry _ => Bool.and_comm _ _
  rw [hsplit, List.filter_eq_self]
  constructor
  · intro hall entry hentry htime
    -- An entry with the fault's time is in the window, so the second test would drop it.
    have hin : entry ∈ log.filter fun entry => decide (cutoff ≤ entry.timestamp) :=
      List.mem_filter.mpr ⟨hentry, decide_eq_true (hcutoff.trans_eq htime.symm)⟩
    exact absurd htime (Nat.ne_of_lt (of_decide_eq_true (hall entry hin)))
  · intro hne entry hentry
    have hmem := (List.mem_filter.mp hentry).1
    exact decide_eq_true (Nat.lt_of_le_of_ne (hbefore entry hmem) (hne entry hmem))

/-- The capture that the entry `last` completes, against the record of the whole run. -/
theorem whole_completed_iff (config : BlackboxConfig) (capture : FaultCapture)
    (log during : List BlackboxEntry) (last : BlackboxEntry)
    (htime : capture.faultTime = capture.faultEntry.timestamp)
    (hpre : capture.preFaultEntries =
      (log ++ [capture.faultEntry]).filter fun entry =>
        decide (capture.faultTime - config.preFaultDuration ≤ entry.timestamp) &&
          decide (entry.timestamp < capture.faultTime))
    (hpost : capture.postFaultEntries = during ++ [last])
    (hsorted : (log ++ capture.faultEntry :: (during ++ [last])).Pairwise
      fun a b => a.timestamp ≤ b.timestamp) :
    capture.Whole config (log ++ capture.faultEntry :: (during ++ [last])) ↔
      ∀ entry ∈ log, entry.timestamp ≠ capture.faultTime := by
  rcases List.pairwise_append.mp hsorted with ⟨-, hafter, hacross⟩
  have hcutoff : capture.faultTime - config.preFaultDuration ≤ capture.faultTime :=
    Nat.sub_le _ _
  have hbefore : ∀ entry ∈ log, entry.timestamp ≤ capture.faultTime := fun entry hentry => by
    rw [htime]
    exact hacross entry hentry _ List.mem_cons_self
  -- The comparison leaves out the fault itself, which is a part of its own.
  have hpre' : capture.preFaultEntries = log.filter fun entry =>
      decide (capture.faultTime - config.preFaultDuration ≤ entry.timestamp) &&
        decide (entry.timestamp < capture.faultTime) := by
    rw [hpre, List.filter_append, List.filter_singleton, ← htime]
    simp
  -- Nothing from the fault on is before the window.
  have hkept : (capture.faultEntry :: (during ++ [last])).filter (fun entry =>
      decide (capture.faultTime - config.preFaultDuration ≤ entry.timestamp))
      = capture.faultEntry :: (during ++ [last]) := by
    rw [List.filter_eq_self]
    intro entry hentry
    refine decide_eq_true (hcutoff.trans ?_)
    rcases List.mem_cons.mp hentry with rfl | hentry
    · exact htime.le
    · exact htime.trans_le ((List.pairwise_cons.mp hafter).1 entry hentry)
  unfold FaultCapture.Whole FaultCapture.entries
  rw [hpost, hpre', List.filter_append, hkept, List.append_left_inj]
  exact filter_window_iff log _ _ hcutoff hbefore

end

/-- In a run whose entries do not go back in time and fit into the buffer, the
    entry that completes the active capture is the first one to reach the end
    of its window. The capture then holds everything recorded in the window
    exactly when nothing was recorded before the fault at the fault's time. -/
theorem faultCapture_whole_iff (config : BlackboxConfig) (calls : List RecorderCall)
    (last : BlackboxEntry) (active : FaultCapture)
    (hroom : calls.length < config.maxEntries)
    (hsorted : (recorded (calls ++ [.record last])).Pairwise
      fun a b => a.timestamp ≤ b.timestamp)
    (hactive : (run recorderStep { config := config } calls).activeCapture = some active)
    (hdone : (run recorderStep { config := config } (calls ++ [.record last])).activeCapture
      = none) :
    ∃ (capture : FaultCapture) (before : List RecorderCall) (during : List BlackboxEntry),
      (run recorderStep { config := config } (calls ++ [.record last])).completedCaptures.getLast?
        = some capture ∧
      calls = before ++ .startFaultCapture capture.faultEntry :: during.map .record ∧
      capture.faultTime = capture.faultEntry.timestamp ∧
      (∀ entry ∈ during, entry.timestamp < capture.faultTime + config.postFaultDuration) ∧
      capture.faultTime + config.postFaultDuration ≤ last.timestamp ∧
      (capture.Whole config (recorded (calls ++ [.record last])) ↔
        ∀ entry ∈ recorded before, entry.timestamp ≠ capture.faultTime) := by
  have hrun := run_recorder config calls (Nat.le_of_lt hroom)
  rw [run_append] at hdone ⊢
  generalize run recorderStep { config := config } calls = r at hactive hdone hrun ⊢
  change (r.record last).activeCapture = none at hdone
  rcases hrun.active active hactive with ⟨before, during, hcalls, -, htime, hpre, hpost, hduring⟩
  -- The log is what came before the fault, the fault, and the entries of the capture.
  have hlog : recorded (calls ++ [.record last])
      = recorded before ++ active.faultEntry :: (during ++ [last]) := by
    rw [hcalls]
    simp [recorded, Function.comp_def, RecorderCall.entry]
  rw [hlog] at hsorted ⊢
  -- A capture is active before the last entry and none is after it: the entry completed it.
  rcases record_cases r last with
    ⟨hnone, -⟩ | ⟨capture, hsome, ⟨-, heq⟩ | ⟨-, hlate, heq⟩ | ⟨-, -, heq⟩⟩
  · rw [hactive] at hnone
    cases hnone
  · rw [heq] at hdone
    change r.activeCapture = none at hdone
    rw [hactive] at hdone
    cases hdone
  · rw [hactive, Option.some.injEq] at hsome
    subst hsome
    rw [hrun.config_eq] at hlate
    -- The last entry is not before the fault, so the saturating difference is the difference.
    have horder : active.faultTime ≤ last.timestamp := by
      rw [htime]
      have hafter := (List.pairwise_append.mp hsorted).2.1
      exact (List.pairwise_cons.mp hafter).1 last (by simp)
    unfold durationSince at hlate hduring
    refine ⟨{ active with
      postFaultEntries := active.postFaultEntries ++ [last]
      complete := true }, before, during, ?_, hcalls, htime, fun entry hentry => ?_, ?_, ?_⟩
    · change (r.record last).completedCaptures.getLast? = _
      rw [heq]
      refine getLast?_pushBounded _ _ _ ?_
      rw [hrun.capacity]
      decide
    · have hearly := hduring entry hentry
      grind
    · grind
    · exact whole_completed_iff config _ (recorded before) during last htime hpre
        (congrArg (· ++ [last]) hpost) hsorted
  · rw [heq] at hdone
    cases hdone

/-- A sample at 4 s, a fault at 5 s and a sample at 6 s: the capture is whole. -/
theorem faultCapture_whole_between_samples : ∃ capture, (run recorderStep {}
        [.record (.systemEvent (fromSecs 4) "sample"),
          .startFaultCapture (.fault (fromSecs 5) .usbStall),
          .record (.systemEvent (fromSecs 6) "sample")]).completedCaptures.getLast? = some capture ∧
      capture.Whole {}
        [.systemEvent (fromSecs 4) "sample", .fault (fromSecs 5) .usbStall,
          .systemEvent (fromSecs 6) "sample"] := by
  rcases faultCapture_whole_iff {}
    [.record (.systemEvent (fromSecs 4) "sample"),
      .startFaultCapture (.fault (fromSecs 5) .usbStall)]
    (.systemEvent (fromSecs 6) "sample")
    ⟨fromSecs 5, .fault (fromSecs 5) .usbStall, [.systemEvent (fromSecs 4) "sample"], [], false⟩
    (by decide) (by decide) (by decide) (by decide)
    with ⟨capture, before, during, hlast, hcalls, htime, -, -, hwhole⟩
  refine ⟨capture, hlast, hwhole.mpr ?_⟩
  -- The calls before the fault are the first sample.
  rcases before with _ | ⟨first, _ | ⟨second, rest⟩⟩
  · simp at hcalls
  · simp only [List.cons_append, List.nil_append, List.cons.injEq,
      RecorderCall.startFaultCapture.injEq] at hcalls
    rw [htime, ← hcalls.1, ← hcalls.2.1]
    decide
  · simp at hcalls

/-- A sample recorded at the fault's instant, before the fault, is in no part
    of the completed capture. -/
theorem faultCapture_same_instant :
    let calls : List RecorderCall :=
      [.record (.systemEvent (fromSecs 5) "sample"),
        .startFaultCapture (.fault (fromSecs 5) .usbStall),
        .record (.systemEvent (fromSecs 6) "sample")]
    (recorded calls).Pairwise (fun a b => a.timestamp ≤ b.timestamp) ∧
      ∃ capture, (run recorderStep {} calls).completedCaptures = [capture] ∧
        capture.complete = true ∧ ¬ capture.Whole {} (recorded calls) ∧
        .systemEvent (fromSecs 5) "sample" ∉ capture.entries := by
  refine ⟨by decide, ⟨fromSecs 5, .fault (fromSecs 5) .usbStall, [],
    [.systemEvent (fromSecs 6) "sample"], true⟩, by decide, rfl, ?_, by decide⟩
  unfold FaultCapture.Whole
  decide

end OpenFlight.Ffb
