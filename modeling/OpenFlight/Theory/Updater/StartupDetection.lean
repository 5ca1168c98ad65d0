import OpenFlight.Lib.Run
import OpenFlight.Theory.Updater.VersionSteps

/-!
# When a Crashed Startup Is Detected

What the crash detector sees over a history of program runs.

Each run starts with `initialize` and then either reports a successful startup
or dies. `initialize` marks its own attempt first and looks for a previous one
afterwards, in the same file. So the attempt it finds is always the one it has
just marked, and the time that has elapsed since is the time between its own two
readings of the clock: the last run's attempt is gone before it is looked at.

The history keeps what the statement speaks about beside the file: the last
attempt that no success has followed, and whether the last run was successful.
`run_file` says that this is what the file holds.

## Main definitions

* `ProgramRun`, `Startups`, `startup`: A run, and a history of them.
* `Detects`: The run takes the rollback path when it should and only then.

## Theorems

* `detects_iff`: A history of runs is handled as it should be exactly if each
  run's own readings say so.
-/

namespace OpenFlight.Updater

open Faulty

/-- One run of the program: everything but the startup file as the run finds it, the clock in
    milliseconds at its two readings, and whether it reports a successful startup before it ends. -/
structure ProgramRun where
  machine : Machine
  markMs : Fin (2 ^ 128)
  checkMs : Fin (2 ^ 128)
  buildTimestamp : Nat
  installTimestamp : Nat
  success : Bool

/-- What one run leaves to the next: the startup file, the last attempt that no
    success has followed, and whether the last run was successful. -/
structure Startups where
  file : Option String := none
  attempt : Option Nat := none
  succeeded : Bool := false

section

variable (config : UpdateConfig)

/-- The machine at the start of a run. -/
def atStart (s : Startups) (r : ProgramRun) : Faulted Machine StepFault :=
  { state := { r.machine with startupFile := s.file }, faults := [] }

/-- The call of `initialize` in a run. -/
def initializeRun (s : Startups) (r : ProgramRun) :
    Except ApplyFailure (Option UpdateResult) × Faulted Machine StepFault :=
  initializeManager config r.markMs r.checkMs r.buildTimestamp r.installTimestamp (atStart s r)

/-- The rollback path is taken: a crash was detected. -/
def TakesRollback (s : Startups) (r : ProgramRun) : Prop :=
  (detectCrash config r.markMs r.checkMs (atStart s r)).1 = .ok true

/-- A rollback that succeeds reports a successful startup. -/
def rolledBack (result : Except ApplyFailure (Option UpdateResult)) : Bool :=
  match result with
  | .ok (some _) => true
  | _ => false

/-- One run of the program. -/
def startup (s : Startups) (r : ProgramRun) : Startups :=
  let after := initializeRun config s r
  let final := if r.success then (markStartupSuccess after.2).2 else after.2
  { file := final.state.startupFile
    attempt := if r.success || rolledBack after.1 then none else some r.markMs
    succeeded := r.success }

/-- The run starts more than the timeout after the last attempt, and no success
    has followed that attempt. -/
def Due (s : Startups) (r : ProgramRun) : Prop :=
  ∃ t, s.attempt = some t ∧ t + startupTimeoutMs config < r.markMs

/-- The run takes the rollback path if it is due, and not after a success. -/
def Detects (s : Startups) (r : ProgramRun) : Prop :=
  (Due config s r → TakesRollback config s r) ∧ (s.succeeded → ¬ TakesRollback config s r)

/-- The run's own two readings of the clock are more than the timeout apart. -/
def SlowCheck (r : ProgramRun) : Prop :=
  startupTimeoutMs config < min (r.checkMs.val - r.markMs.val) (2 ^ 64 - 1)

instance (r : ProgramRun) : Decidable (SlowCheck config r) :=
  inferInstanceAs (Decidable (startupTimeoutMs config < _))

theorem parseU128_toString (n : Nat) (h : n < 2 ^ 128) : parseU128 (toString n) = .ok n := by
  have hlist : (toString n).toList = Nat.toDigits 10 n := Nat.toList_repr
  have hdigits : ∀ c ∈ Nat.toDigits 10 n, c.isDigit = true := by
    intro c hc
    exact Nat.isDigit_of_mem_toDigits (by decide) (by decide) hc
  -- A decimal numeral does not begin with a plus.
  have hplus : dropPlus (Nat.toDigits 10 n) = Nat.toDigits 10 n := by
    unfold dropPlus
    split
    · next rest heq =>
        have hdigit := hdigits '+' (by rw [heq]; exact List.mem_cons_self)
        exact absurd hdigit (by decide)
    · rfl
  have hall : (Nat.toDigits 10 n).all Char.isDigit = true := List.all_eq_true.mpr hdigits
  simp only [parseU128, hlist, hplus, hall, Nat.toDigits_ne_nil, Nat.ofDigitChars_ten_toDigits, h,
    not_true_eq_false, or_self, if_false, if_true]

/-- The check of a run finds the attempt that the run itself has marked. -/
theorem detectCrash_eq (s : Startups) (r : ProgramRun) :
    ∃ w, detectCrash config r.markMs r.checkMs (atStart s r) =
        (.ok (exceedsTimeout config r.checkMs r.markMs), w) ∧
      w.Quiet ∧ w.state.startupFile = some (toString r.markMs.val) := by
  have hquiet : (atStart s r).Quiet := rfl
  generalize atStart s r = w0 at hquiet
  -- The run writes its own time first.
  have hmark : markStartupAttempt r.markMs w0 =
      (.ok (), w0.next { w0.state with startupFile := some (toString r.markMs.val) }) :=
    operation_apply_ok _ _ w0 _ _ (hquiet.faultAt w0 0) rfl
  have hquiet1 := hquiet.next w0 { w0.state with startupFile := some (toString r.markMs.val) }
  rw [detectCrash, bind_apply_ok _ _ w0 _ () hmark]
  generalize hw1 : w0.next { w0.state with startupFile := some (toString r.markMs.val) } = w1
    at hquiet1
  have hfile : w1.state.startupFile = some (toString r.markMs.val) := by
    rw [← hw1, Faulted.next_state]
  -- So there is a file when the check looks for one.
  have hexists : startupFileExists w1 = (.ok true, w1.next w1.state) :=
    operation_apply_ok _ _ w1 _ _ (hquiet1.faultAt w1 0) (by simp [hfile])
  have hquiet2 := hquiet1.next w1 w1.state
  refine ⟨(w1.next w1.state).next w1.state, ?_, hquiet2.next _ _, hfile⟩
  rw [checkPreviousCrash, bind_apply_ok _ _ w1 _ true hexists, if_pos rfl]
  -- And what is read back is the time just written.
  have hread : readStartupFile (w1.next w1.state) =
      (.ok (toString r.markMs.val), (w1.next w1.state).next w1.state) := by
    unfold readStartupFile readStep
    refine operation_apply_ok _ _ _ _ _ (hquiet2.faultAt _ 0) ?_
    simp only [Faulted.next_state, hfile]
  rw [bind_apply_ok _ _ _ _ _ hread, parseU128_toString _ r.markMs.isLt]
  rfl

/-- Whether the rollback path is taken depends on the run's own readings of the
    clock and on nothing that an earlier run has left. -/
theorem takesRollback_iff (s : Startups) (r : ProgramRun) :
    TakesRollback config s r ↔ SlowCheck config r := by
  rcases detectCrash_eq config s r with ⟨w, hrun, -, -⟩
  rw [TakesRollback, hrun, SlowCheck, exceedsTimeout]
  simp

theorem recordIfNew_keeps (buildTimestamp installTimestamp : Nat) :
    Keeps (fun m : Machine => m.startupFile)
      (recordIfNew config buildTimestamp installTimestamp) := by
  have hrecord : Keeps (fun m : Machine => m.startupFile)
      (recordCurrentVersion config buildTimestamp installTimestamp) :=
    recordVersion_keeps _ _ _ _ (fun _ _ => rfl) (fun _ _ => rfl) fun _ _ _ => rfl
  intro w
  unfold recordIfNew
  split
  · split_ifs
    · exact hrecord w
    · exact ⟨rfl, id⟩
  · exact hrecord w

/-- A reported success leaves no file, whether there was one or not. -/
theorem quiet_markStartupSuccess (s : Machine) :
    QuietMeets markStartupSuccess s (fun _ s' => s'.startupFile = none)
      fun s' => s'.startupFile = none := by
  have hexists : QuietMeets startupFileExists s
      (fun found s' => s' = s ∧ found = s.startupFile.isSome)
      fun s' => s'.startupFile = none := by
    refine quiet_operation (fun found s' h => ?_) fun e he => ?_
    · cases h
      exact ⟨rfl, rfl⟩
    · cases he
  refine quiet_bind hexists ?_
  rintro found s' ⟨rfl, rfl⟩
  cases hfile : s'.startupFile with
  | none => exact quiet_pure hfile
  | some content =>
      rw [Option.isSome_some, if_pos rfl]
      refine quiet_operation (fun _ s'' h => ?_) fun e he => ?_
      · cases h
        rfl
      · cases he

/-- `initialize` leaves the attempt of its own run, unless a rollback succeeds. -/
theorem quiet_initializeManager (s : Startups) (r : ProgramRun) :
    QuietMeets (initializeManager config r.markMs r.checkMs r.buildTimestamp r.installTimestamp)
      (atStart s r).state
      (fun result s' => s'.startupFile =
        if result.isSome then none else some (toString r.markMs.val))
      fun s' => s'.startupFile = some (toString r.markMs.val) := by
  rcases detectCrash_eq config s r with ⟨w, hrun, hquiet, hfile⟩
  have hdetect : QuietMeets (detectCrash config r.markMs r.checkMs) (atStart s r).state
      (fun _ s' => s'.startupFile = some (toString r.markMs.val))
      fun s' => s'.startupFile = some (toString r.markMs.val) := by
    change detectCrash config r.markMs r.checkMs ⟨(atStart s r).state, []⟩ = _ at hrun
    rw [QuietMeets, hrun]
    exact ⟨hquiet, fun _ _ => hfile, fun _ _ => hfile⟩
  refine quiet_bind hdetect fun crashed s' hs' => ?_
  cases crashed with
  | false =>
      -- Without a crash the version is recorded, which leaves the file alone.
      exact quiet_bind (quiet_of_keeps (recordIfNew_keeps config _ _) hs') fun _ _ h =>
        quiet_pure h
  | true =>
      -- The rollback itself leaves the file alone; only its success clears it.
      have hback := quiet_of_keeps (rollbackToPrevious_keeps (fun m : Machine => m.startupFile)
        (fun _ _ => rfl) (fun _ _ => rfl) fun _ _ _ => rfl) hs'
      have hhandle : QuietMeets (handleStartupCrash config) s'
          (fun _ s'' => s''.startupFile = none)
          fun s'' => s''.startupFile = some (toString r.markMs.val) :=
        quiet_bind hback fun _ s'' _ => quiet_bind (quiet_attempt (quiet_markStartupSuccess s''))
          fun _ _ h => quiet_pure h
      exact quiet_bind hhandle fun _ _ h => quiet_pure h

/-- In every history of runs, the file holds the last attempt that no success has followed. -/
theorem run_file (runs : List ProgramRun) :
    (run (startup config) {} runs).file = (run (startup config) {} runs).attempt.map toString := by
  -- One run suffices, whatever state it starts from.
  refine run_invariant (startup config) (fun s => s.file = s.attempt.map toString) ?_ {} runs rfl
  intro s r _
  rcases quiet_initializeManager config s r with ⟨hquiet, hok, herror⟩
  change (initializeRun config s r).2.Quiet at hquiet
  change ∀ a, (initializeRun config s r).1 = _ → _ at hok
  change ∀ e, (initializeRun config s r).1 = _ → _ at herror
  unfold startup
  have hfile : (initializeRun config s r).2.state.startupFile =
      if rolledBack (initializeRun config s r).1 then none else some (toString r.markMs.val) := by
    cases hresult : (initializeRun config s r).1 with
    | error e => exact herror e hresult
    | ok result =>
        rw [show (initializeRun config s r).2.state.startupFile = _ from hok result hresult]
        cases result with
        | none => rfl
        | some result => rfl
  generalize initializeRun config s r = after at hquiet hfile ⊢
  cases r.success with
  | true =>
      have hw : after.2 = ⟨after.2.state, []⟩ := by
        rw [← show after.2.faults = [] from hquiet]
      have hgone := quiet_markStartupSuccess after.2.state
      simp only [if_true, Bool.true_or, Option.map_none]
      rw [hw]
      cases hresult : (markStartupSuccess ⟨after.2.state, []⟩).1 with
      | ok a => exact hgone.2.1 a hresult
      | error e => exact hgone.2.2 e hresult
  | false =>
      simp only [Bool.false_eq_true, if_false, Bool.false_or, hfile]
      split_ifs
      · rfl
      · rfl

/-- A history of runs is handled as it should be exactly if every run that is
    due has a slow check of its own, and no run after a success has one. -/
theorem detects_iff (runs : List ProgramRun) : StepsMeet (startup config) (Detects config) {} runs ↔
      StepsMeet (startup config)
        (fun s r => (Due config s r → SlowCheck config r) ∧ (s.succeeded → ¬ SlowCheck config r))
        {} runs := by
  refine stepsMeet_congr _ (fun _ => True) _ _ (fun _ _ _ => trivial) (fun s r _ => ?_) _ _ trivial
  -- Both conditions are about the two readings of one run.
  rw [Detects, takesRollback_iff]

end

/-- A machine with nothing on its disk. -/
def emptyMachine : Machine :=
  { volume := fun _ => DirTree.empty
    historyFile := .missing
    startupFile := none
    currentVersion := none
    versionHistory := [] }

/-- A run at a time, whose two readings of the clock are the same. -/
def runAt (ms : Fin (2 ^ 128)) : ProgramRun :=
  { machine := emptyMachine, markMs := ms, checkMs := ms, buildTimestamp := 0
    installTimestamp := 0, success := false }

/-- A run that dies, and the next one two minutes later. -/
theorem crash_not_detected : ¬ ∀ (config : UpdateConfig) (runs : List ProgramRun),
      StepsMeet (startup config) (Detects config) {} runs := by
  intro hall
  rcases hall (.default "1.0.0") [runAt 0, runAt 120000] with ⟨-, hsecond, -⟩
  have hdue : Due (.default "1.0.0") (startup (.default "1.0.0") {} (runAt 0)) (runAt 120000) :=
    ⟨0, by decide +kernel, by decide +kernel⟩
  have hslow := (takesRollback_iff (.default "1.0.0") _ _).mp (hsecond.1 hdue)
  exact absurd hslow (by decide +kernel)

end OpenFlight.Updater
