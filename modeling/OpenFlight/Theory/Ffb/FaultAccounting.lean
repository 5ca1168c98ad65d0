import OpenFlight.Core.Ffb.Engine
import OpenFlight.Lib.Run

/-!
# Fault Accounting

How often the engine records a fault, from one `clear_faults` to the next.

The detector records a fault when it detects one, and hands the record to the
engine; `process_fault` records the fault it is given. The calls that detect
through the detector do both, so each of their faults is in the history twice
and counted twice, while a fault given to `process_fault` directly is counted
once. `Counts` is the requirement on the ledger, the history and the counters
together, against the list of faults detected so far, which is a ghost here.

`Counts.recordFault` says that one record keeps it and `not_counts_twice` that
two break it at once, so along a run it holds exactly as long as no call
detects through the detector. The counters are 32 bits wide, and the last one
wraps: that is the other way to break it, and the only one left to
`process_fault`.

## Main definitions

* `FaultInput`: The calls that can report a fault.
* `Accounted`, `accountedStep`: The engine with the faults detected so far.

## Theorems

* `faultAccounting_iff`: The ledger is right exactly when no call detects
  through the detector.
* `faultAccounting_double`: A fault that is counted twice.
-/

namespace OpenFlight.Ffb

/-- The calls that report a fault, or find that there is none. -/
inductive FaultInput
  | recordUsbWriteResult (success : Bool)
  | checkPipelineValue (value : F32)
  | checkEndpointResponsiveness (responsive : Bool)
  | checkDisconnectFromErrorCode (errorCode : Int)
  | recordDeviceDisconnect
  | processFault (fault : FaultType)

namespace FaultInput

/-- The engine after the call. -/
def exec (e : FfbEngine) (clk : Readings) : FaultInput → FfbEngine
  | .recordUsbWriteResult success => (e.recordUsbWriteResult clk success).1
  | .checkPipelineValue value => (e.checkPipelineValue clk value).1
  | .checkEndpointResponsiveness responsive => (e.checkEndpointResponsiveness clk responsive).1
  | .checkDisconnectFromErrorCode errorCode => (e.checkDisconnectFromErrorCode clk errorCode).1
  | .recordDeviceDisconnect => (e.recordDeviceDisconnect clk).1
  | .processFault fault => (e.processFault clk fault).1

/-- The fault the call detects, by the detector's own tests. -/
def detectedBy (e : FfbEngine) (clk : Readings) : FaultInput → Option FaultType
  | .recordUsbWriteResult success =>
      if !success && (e.faultDetector.recordUsbStall (clk 0)).2 then some .usbStall else none
  | .checkPipelineValue value =>
      if (e.faultDetector.checkNanValue (clk 0) value).2 then some .nanValue else none
  | .checkEndpointResponsiveness responsive =>
      if (e.faultDetector.checkEndpointWedge clk responsive).2 then some .endpointWedged else none
  | .checkDisconnectFromErrorCode errorCode =>
      if (e.faultDetector.checkDisconnectFromErrorCode (clk 0) errorCode).2
      then some .deviceDisconnect else none
  | .recordDeviceDisconnect =>
      if e.safetyState ≠ .faulted then some .deviceDisconnect else none
  | .processFault fault => some fault

end FaultInput

/-- One record in the history, while it is below its bound, and one count for
    each detected fault. -/
def Counts (d : FaultDetector) (detected : List FaultType) : Prop :=
  (d.faultHistory.length < d.maxHistorySize →
    d.faultHistory.map FaultRecord.faultType = detected) ∧
  ∀ fault, (d.faultCounters fault).toNat = detected.count fault

/-- Two detectors with the same history and the same counters. -/
def SameLedger (d d' : FaultDetector) : Prop :=
  d'.faultHistory = d.faultHistory ∧ d'.faultCounters = d.faultCounters ∧
    d'.maxHistorySize = d.maxHistorySize

theorem SameLedger.trans {d₁ d₂ d₃ : FaultDetector} (h : SameLedger d₁ d₂)
    (h' : SameLedger d₂ d₃) : SameLedger d₁ d₃ :=
  ⟨h'.1.trans h.1, h'.2.1.trans h.2.1, h'.2.2.trans h.2.2⟩

theorem SameLedger.counts_iff {d d' : FaultDetector} (h : SameLedger d d')
    (detected : List FaultType) : Counts d' detected ↔ Counts d detected := by
  unfold Counts
  rw [h.1, h.2.1, h.2.2]

theorem SameLedger.recordFault {d d' : FaultDetector} (h : SameLedger d d') (now : Instant)
    (fault : FaultType) : SameLedger (d.recordFault now fault) (d'.recordFault now fault) := by
  unfold FaultDetector.recordFault SameLedger
  dsimp only
  rw [h.1, h.2.1, h.2.2]
  exact ⟨rfl, rfl, rfl⟩

section

variable {d : FaultDetector} {detected : List FaultType}

/-- The history after one more record: one longer, or full. -/
theorem recordFault_history (d : FaultDetector) (now : Instant) (fault : FaultType)
    (h : (d.recordFault now fault).faultHistory.length < d.maxHistorySize) :
    d.faultHistory.length < d.maxHistorySize ∧
      (d.recordFault now fault).faultHistory.map FaultRecord.faultType
        = d.faultHistory.map FaultRecord.faultType ++ [fault] := by
  unfold FaultDetector.recordFault pushBounded at h ⊢
  dsimp only at h ⊢
  by_cases hover : d.maxHistorySize <
      (d.faultHistory ++ [FaultDetector.faultRecord now fault]).length
  · -- A full history drops its first record and is full again.
    rw [if_pos hover, List.length_tail] at h
    omega
  · rw [if_neg hover] at h ⊢
    rw [List.length_append] at h
    refine ⟨by omega, ?_⟩
    rw [List.map_append]
    rfl

theorem recordFault_counter (d : FaultDetector) (now : Instant) (fault other : FaultType) :
    (d.recordFault now fault).faultCounters other =
      if other = fault then d.faultCounters fault + 1 else d.faultCounters other := by
  unfold FaultDetector.recordFault
  dsimp only
  rw [Function.update_apply]

/-- One record of a fault keeps the ledger right, as long as its counter has room. -/
theorem Counts.recordFault (h : Counts d detected) (now : Instant) (fault : FaultType)
    (hroom : detected.count fault + 1 < 2 ^ 32) :
    Counts (d.recordFault now fault) (detected ++ [fault]) := by
  constructor
  · intro hlength
    rcases recordFault_history d now fault hlength with ⟨hbefore, hmap⟩
    rw [hmap, h.1 hbefore]
  · intro other
    rw [recordFault_counter, List.count_append, List.count_singleton]
    by_cases hother : other = fault
    · subst hother
      -- The counter of this fault has room for one more.
      rw [if_pos rfl, UInt32.toNat_add, h.2 other, if_pos (beq_self_eq_true other)]
      exact Nat.mod_eq_of_lt hroom
    · rw [if_neg hother, h.2 other, if_neg (by simpa using Ne.symm hother), Nat.add_zero]

/-- A full counter wraps. -/
theorem not_counts_full (now : Instant) (fault : FaultType)
    (hfull : ¬ detected.count fault + 1 < 2 ^ 32) :
    ¬ Counts (d.recordFault now fault) (detected ++ [fault]) := by
  intro hafter
  have hcount := hafter.2 fault
  rw [List.count_append, List.count_singleton_self] at hcount
  have hlt := ((d.recordFault now fault).faultCounters fault).toNat_lt
  omega

/-- Two records of one fault count it twice. -/
theorem not_counts_twice (h : Counts d detected) (now now' : Instant) (fault : FaultType) :
    ¬ Counts ((d.recordFault now fault).recordFault now' fault) (detected ++ [fault]) := by
  intro hafter
  have hcount := hafter.2 fault
  rw [recordFault_counter, if_pos rfl, recordFault_counter, if_pos rfl, List.count_append,
    List.count_singleton_self, ← h.2 fault, UInt32.toNat_add, UInt32.toNat_add] at hcount
  have hlt := (d.faultCounters fault).toNat_lt
  -- Two more are not one more, also where the counter wraps.
  simp only [UInt32.reduceToNat] at hcount
  omega

end

namespace FfbEngine

section

variable (e : FfbEngine) (clk : Readings)

theorem announceSoftStop_faultDetector (now : Instant) :
    (e.announceSoftStop now).1.faultDetector = e.faultDetector := by
  unfold announceSoftStop
  dsimp only
  split
  · rcases e.audioSystem.triggerCue now .softStop with ⟨audio, err | ⟨⟩⟩
    · rfl
    · dsimp only
      split
      · rfl
      · rfl
  · split
    · rfl
    · rfl

theorem triggerSoftStopFromTorque_faultDetector (torque : ℚ) :
    (e.triggerSoftStopFromTorque clk torque).1.faultDetector
      = e.faultDetector.recordSoftStop (clk 0) := by
  unfold triggerSoftStopFromTorque
  dsimp only
  split
  · rfl
  · -- The detector notes the time of the soft stop, and the announcement is not its concern.
    rw [announceSoftStop_faultDetector]
    rfl

theorem respondToCutoff_ledger :
    SameLedger e.faultDetector (e.respondToCutoff clk).1.faultDetector := by
  unfold respondToCutoff
  dsimp only
  split
  · exact ⟨rfl, rfl, rfl⟩
  · rw [triggerSoftStopFromTorque_faultDetector]
    exact ⟨rfl, rfl, rfl⟩

/-- Processing a fault records it once, whatever becomes of the response. -/
theorem processFault_ledger (fault : FaultType) :
    SameLedger (e.faultDetector.recordFault (clk 1) fault)
      (e.processFault clk fault).1.faultDetector := by
  cases hcutoff : fault.requiresTorqueCutoff with
  | true =>
      rw [processFault_of_cutoff e clk fault hcutoff]
      exact respondToCutoff_ledger (e.logFault clk fault) (clk.skip 2)
  | false =>
      rw [processFault_of_not_cutoff e clk fault hcutoff]
      exact ⟨rfl, rfl, rfl⟩

/-- A fault that a detector reports is recorded by the detector and then processed. -/
theorem processIf_ledger (d : FaultDetector) (now : Instant) (fault : FaultType)
    (hd : SameLedger (e.faultDetector.recordFault now fault) d) :
    SameLedger ((e.faultDetector.recordFault now fault).recordFault (clk 1) fault)
      (e.processIf (d, true) clk fault).1.faultDetector := by
  have hprocess := processFault_ledger { e with faultDetector := d } clk fault
  exact (hd.recordFault (clk 1) fault).trans hprocess

end

end FfbEngine

/-- What a call does to the ledger: nothing when it detects nothing, one record
    when the fault is given to it, and two when it detects the fault itself. -/
theorem exec_ledger (e : FfbEngine) (clk : Readings) (input : FaultInput) :
    (input.detectedBy e clk = none ∧
      SameLedger e.faultDetector (input.exec e clk).faultDetector) ∨
    (∃ fault, input = .processFault fault ∧
      SameLedger (e.faultDetector.recordFault (clk 1) fault)
        (input.exec e clk).faultDetector) ∨
    (∃ fault now now', (∀ other, input ≠ .processFault other) ∧
      input.detectedBy e clk = some fault ∧
      SameLedger ((e.faultDetector.recordFault now fault).recordFault now' fault)
        (input.exec e clk).faultDetector) := by
  cases input with
  | processFault fault => exact .inr (.inl ⟨fault, rfl, e.processFault_ledger clk fault⟩)
  | recordUsbWriteResult success =>
      unfold FaultInput.detectedBy FaultInput.exec FfbEngine.recordUsbWriteResult
        FaultDetector.recordUsbStall
      dsimp only
      cases success with
      | true => exact .inl ⟨rfl, rfl, rfl, rfl⟩
      | false =>
          -- Only the third stall in a row is a fault.
          by_cases hthird : 3 ≤ e.faultDetector.usbStallCounter + 1
          · simp only [if_pos hthird, if_neg Bool.false_ne_true]
            exact .inr (.inr ⟨.usbStall, _, _, nofun, rfl,
              e.processIf_ledger (clk.skip 1) _ (clk 0) .usbStall ⟨rfl, rfl, rfl⟩⟩)
          · simp only [if_neg hthird, if_neg Bool.false_ne_true]
            exact .inl ⟨rfl, rfl, rfl, rfl⟩
  | checkPipelineValue value =>
      unfold FaultInput.detectedBy FaultInput.exec FfbEngine.checkPipelineValue
        FaultDetector.checkNanValue
      dsimp only
      -- Infinities count as values that are not numbers.
      cases value.isFinite with
      | true => exact .inl ⟨rfl, rfl, rfl, rfl⟩
      | false =>
          exact .inr (.inr ⟨.nanValue, _, _, nofun, rfl,
            e.processIf_ledger (clk.skip 1) _ (clk 0) .nanValue ⟨rfl, rfl, rfl⟩⟩)
  | checkEndpointResponsiveness responsive =>
      unfold FaultInput.detectedBy FaultInput.exec FfbEngine.checkEndpointResponsiveness
        FaultDetector.checkEndpointWedge
      dsimp only
      cases responsive with
      | true => exact .inl ⟨rfl, rfl, rfl, rfl⟩
      | false =>
          simp only [if_neg Bool.false_ne_true]
          cases e.faultDetector.endpointWedgeTimer with
          | none => exact .inl ⟨rfl, rfl, rfl, rfl⟩
          | some timer =>
              -- The first missing answer starts the timer, and later ones read it.
              by_cases hwedged : fromMillis 100 ≤ durationSince (clk 0) timer
              · simp only [if_pos hwedged]
                exact .inr (.inr ⟨.endpointWedged, _, _, nofun, rfl,
                  e.processIf_ledger (clk.skip 2) _ (clk 1) .endpointWedged ⟨rfl, rfl, rfl⟩⟩)
              · simp only [if_neg hwedged]
                exact .inl ⟨rfl, rfl, rfl, rfl⟩
  | checkDisconnectFromErrorCode errorCode =>
      unfold FaultInput.detectedBy FaultInput.exec FfbEngine.checkDisconnectFromErrorCode
        FaultDetector.checkDisconnectFromErrorCode
      dsimp only
      cases FaultDetector.isDisconnectCode errorCode with
      | false => exact .inl ⟨rfl, rfl, rfl, rfl⟩
      | true =>
          exact .inr (.inr ⟨.deviceDisconnect, _, _, nofun, rfl,
            e.processIf_ledger (clk.skip 1) _ (clk 0) .deviceDisconnect ⟨rfl, rfl, rfl⟩⟩)
  | recordDeviceDisconnect =>
      unfold FaultInput.detectedBy FaultInput.exec FfbEngine.recordDeviceDisconnect
      dsimp only
      by_cases hstate : e.safetyState ≠ .faulted
      · simp only [if_pos hstate]
        exact .inr (.inr ⟨.deviceDisconnect, _, _, nofun, rfl,
          e.processIf_ledger (clk.skip 1) _ (clk 0) .deviceDisconnect ⟨rfl, rfl, rfl⟩⟩)
      · -- A faulted engine ignores the report.
        simp only [if_neg hstate]
        exact .inl ⟨trivial, rfl, rfl, rfl⟩

/-- The engine with the faults detected since the history was cleared. -/
structure Accounted where
  engine : FfbEngine
  detected : List FaultType := []

def accountedStep (a : Accounted) (call : Readings × FaultInput) : Accounted :=
  { engine := call.2.exec a.engine call.1
    detected := a.detected ++ (call.2.detectedBy a.engine call.1).toList }

/-- The call detects nothing, or is `process_fault` with room in the fault's counter. -/
def RecordsOnce (a : Accounted) (call : Readings × FaultInput) : Prop :=
  match call.2 with
  | .processFault fault => a.detected.count fault + 1 < 2 ^ 32
  | input => input.detectedBy a.engine call.1 = none

theorem recordsOnce_iff_of_ne (a : Accounted) (clk : Readings) (input : FaultInput)
    (h : ∀ fault, input ≠ .processFault fault) :
    RecordsOnce a (clk, input) ↔ input.detectedBy a.engine clk = none := by
  unfold RecordsOnce
  cases input with
  | processFault fault => exact absurd rfl (h fault)
  | _ => exact Iff.rfl

/-- One step under the guard keeps the ledger right, and any other breaks it. -/
theorem accountedStep_counts_iff (a : Accounted) (call : Readings × FaultInput)
    (h : Counts a.engine.faultDetector a.detected) :
    Counts (accountedStep a call).engine.faultDetector (accountedStep a call).detected ↔
      RecordsOnce a call := by
  rcases call with ⟨clk, input⟩
  unfold accountedStep
  dsimp only
  rcases exec_ledger a.engine clk input with
    ⟨hnone, hledger⟩ | ⟨fault, rfl, hledger⟩ | ⟨fault, now, now', hne, hsome, hledger⟩
  · -- Nothing is detected and nothing recorded.
    have hne : ∀ fault, input ≠ .processFault fault := by
      rintro fault rfl
      cases hnone
    rw [recordsOnce_iff_of_ne a clk input hne, hledger.counts_iff, hnone, Option.toList_none,
      List.append_nil]
    exact ⟨fun _ => rfl, fun _ => h⟩
  · -- One record of a fault that is processed directly, which only a full counter spoils.
    rw [hledger.counts_iff]
    constructor
    · intro hafter
      by_contra hfull
      exact not_counts_full (clk 1) fault hfull hafter
    · exact h.recordFault (clk 1) fault
  · -- The detector recorded the fault before it was processed.
    rw [recordsOnce_iff_of_ne a clk input hne, hledger.counts_iff, hsome]
    constructor
    · intro hafter
      exact absurd hafter (not_counts_twice h now now' fault)
    · intro hnone
      cases hnone

/-- From one `clear_faults` on, along any run of fault inputs: the history, while it is below its
    bound, holds one record for each detected fault and the counters their numbers, in every state
    of the run, exactly when no call of the run detects a fault through the detector and no counter
    is full. -/
theorem faultAccounting_iff (e : FfbEngine) (calls : List (Readings × FaultInput)) :
    Always accountedStep (fun a => Counts a.engine.faultDetector a.detected)
        { engine := { e with faultDetector := e.faultDetector.clearFaults } } calls ↔
      StepsMeet accountedStep RecordsOnce
        { engine := { e with faultDetector := e.faultDetector.clearFaults } } calls := by
  refine always_iff_stepsMeet accountedStep (fun _ => True) _ RecordsOnce (fun _ _ _ => trivial)
    (fun a call _ h => (accountedStep_counts_iff a call h).mpr)
    (fun a call _ h hbad hafter => hbad ((accountedStep_counts_iff a call h).mp hafter))
    _ calls trivial ?_
  -- After a clear there are no records and no counts.
  exact ⟨fun _ => rfl, fun fault => rfl⟩

/-- One value that is not a number, after a clear: two records and a count of
    two for the one fault that was detected. -/
theorem faultAccounting_double :
    let e := FfbEngine.new {}
    let a := run accountedStep
      { engine := { e with faultDetector := e.faultDetector.clearFaults } }
      [(fun _ => 0, .checkPipelineValue .nan)]
    a.detected = [.nanValue] ∧
      a.engine.faultDetector.faultHistory.map FaultRecord.faultType = [.nanValue, .nanValue] ∧
      a.engine.faultDetector.faultCounters .nanValue = 2 ∧
      ¬ Counts a.engine.faultDetector a.detected := by
  refine ⟨by decide +kernel, by decide +kernel, by decide +kernel, fun hcounts => ?_⟩
  exact absurd (hcounts.2 .nanValue) (by decide +kernel)

end OpenFlight.Ffb
