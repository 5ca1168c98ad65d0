import OpenFlight.Core.Ffb.Interlock
import OpenFlight.Lib.Run

/-!
# Soundness of the Physical Interlock

What a satisfied interlock says about the exchange that led to it.

The history of a run is kept as a log of what each call did, newest first:
challenges issued, responses accepted or refused, resets, changes of the
requirement. `AnsweredAt` reads off the log that a response accepted at some
instant, with no reset since, answered a challenge issued before it and not
expired. `Sound` is the requirement on the interlock: whenever it is required
and reports satisfied, such a response exists and is recent enough.

A time stamp is always backed by the log (`Consistent`), so the requirement
can fail only through a raised flag without a stamp, and the flag is raised
without a stamp only by `setRequired(false)`. That does no harm while the
interlock is not required. It does the moment the requirement is switched
back on, so the guard of a step is that `setRequired(true)` does not find the
flag up and the stamp missing.

The log also shows that no challenge is accepted twice. An accepted challenge
is used up, and the identifiers of later challenges differ from it as long as
the 64-bit counter has not come round.

## Main definitions

* `InterlockOp`, `InterlockEvent`, `Traced`, `tracedStep`: Runs with a log.
* `Consistent`, `Fresh`: The invariants of the two halves.

## Theorems

* `interlock_sound_iff`: Soundness along a run, exactly under the guard.
* `interlock_satisfied_unanswered`: A run that satisfies the interlock with no
  response at all.
-/

namespace OpenFlight.Ffb

/-- The calls on an interlock. -/
inductive InterlockOp
  | generateChallenge
  | validateResponse (response : InterlockResponse)
  | reset
  | setRequired (required : Bool)
deriving DecidableEq

/-- What a call did. -/
inductive InterlockEvent
  | generated (time : Instant) (challenge : InterlockChallenge)
  | accepted (time : Instant) (response : InterlockResponse)
  | refused (time : Instant) (response : InterlockResponse)
  | reset
  | requiredSet (required : Bool)

/-- An interlock, the log of its run, newest event first, and the instant of the latest call. -/
structure Traced where
  system : InterlockSystem
  log : List InterlockEvent := []
  clock : Instant := 0

/-- One call at an instant, logged by what it returned. -/
def tracedStep (t : Traced) (call : Instant × InterlockOp) : Traced :=
  match call.2 with
  | .generateChallenge =>
      let issued := t.system.generateChallenge call.1
      { system := issued.1, log := .generated call.1 issued.2 :: t.log, clock := call.1 }
  | .validateResponse response =>
      let outcome := t.system.validateResponse call.1 response
      match outcome.2 with
      | .ok _ =>
          { system := outcome.1, log := .accepted call.1 response :: t.log, clock := call.1 }
      | .error _ =>
          { system := outcome.1, log := .refused call.1 response :: t.log, clock := call.1 }
  | .reset => { system := t.system.reset, log := .reset :: t.log, clock := call.1 }
  | .setRequired required =>
      { system := t.system.setRequired required, log := .requiredSet required :: t.log,
        clock := call.1 }

/-- A response accepted at `last`, with no reset since, matches a challenge
    issued before it and at most `timeout` earlier. -/
def AnsweredAt (timeout : Duration) (log : List InterlockEvent) (last : Instant) : Prop :=
  ∃ later response earlier issued challenge,
    log = later ++ .accepted last response :: earlier ∧
      InterlockEvent.reset ∉ later ∧
      InterlockEvent.generated issued challenge ∈ earlier ∧
      ResponseMatches challenge response ∧
      last ≤ issued + timeout

/-- Whenever the interlock is required and reports satisfied, now or later, a
    response was accepted since the last reset, at most `satisfactionTimeout` ago, that
    matched a challenge issued at most `challengeTimeout` before it. -/
def Sound (t : Traced) : Prop :=
  ∀ now, t.clock ≤ now → t.system.required = true → t.system.isSatisfied now = true →
    ∃ last, AnsweredAt t.system.challengeTimeout t.log last ∧
      now ≤ last + t.system.satisfactionTimeout

/-- `setRequired(true)` is not called while the satisfied flag is up without a time stamp. -/
def StampsSatisfaction (t : Traced) (call : Instant × InterlockOp) : Prop :=
  call.2 = .setRequired true →
    ¬ (t.system.satisfied = true ∧ t.system.lastSatisfied = none)

/-- The identifiers of the accepted responses, newest first. -/
def acceptedIds (log : List InterlockEvent) : List Nat :=
  log.filterMap fun event => match event with
    | .accepted _ response => some response.challengeId
    | _ => none

/-- The number of challenges issued. -/
def issuedCount (log : List InterlockEvent) : Nat :=
  log.countP fun event => match event with
    | .generated _ _ => true
    | _ => false

/-- The stamp is backed by the log, a missing stamp means nothing was accepted
    since the last reset, and the active challenge was issued in this run. -/
structure Consistent (t : Traced) : Prop where
  stamped : ∀ last, t.system.lastSatisfied = some last →
    AnsweredAt t.system.challengeTimeout t.log last
  unstamped : t.system.lastSatisfied = none →
    ∀ last, ¬ AnsweredAt t.system.challengeTimeout t.log last
  active : ∀ challenge, t.system.activeChallenge = some challenge →
    ∃ issued, challenge.expiresAt = issued + t.system.challengeTimeout ∧
      InterlockEvent.generated issued challenge ∈ t.log

section

variable {timeout : Duration} {log : List InterlockEvent} {last : Instant}

theorem answeredAt_cons (event : InterlockEvent) (hreset : event ≠ .reset)
    (h : AnsweredAt timeout log last) : AnsweredAt timeout (event :: log) last := by
  rcases h with ⟨later, response, earlier, issued, challenge, hlog, hlater, hrest⟩
  refine ⟨event :: later, response, earlier, issued, challenge, by rw [hlog, List.cons_append],
    ?_, hrest⟩
  rw [List.mem_cons]
  rintro (heq | hmem)
  · exact hreset heq.symm
  · exact hlater hmem

/-- An answer in a longer log is the newest event or was there before, unless
    the newest event is a reset. -/
theorem answeredAt_of_cons (event : InterlockEvent)
    (haccepted : ∀ time response, event ≠ .accepted time response)
    (h : AnsweredAt timeout (event :: log) last) :
    event ≠ .reset ∧ AnsweredAt timeout log last := by
  rcases h with ⟨later, response, earlier, issued, challenge, hlog, hlater, hrest⟩
  cases later with
  | nil =>
      rw [List.nil_append, List.cons.injEq] at hlog
      exact absurd hlog.1 (haccepted last response)
  | cons top later =>
      rw [List.cons_append, List.cons.injEq] at hlog
      rw [List.mem_cons, not_or] at hlater
      refine ⟨fun heq => hlater.1 ?_, later, response, earlier, issued, challenge, hlog.2,
        hlater.2, hrest⟩
      rw [← hlog.1, heq]

end

variable (t : Traced)

/-- A call that neither touches the flags nor accepts keeps the first two halves of `Consistent`. -/
theorem consistent_of_same_stamp (system : InterlockSystem) (event : InterlockEvent)
    (clock : Instant) (h : Consistent t) (hreset : event ≠ .reset)
    (haccepted : ∀ time response, event ≠ .accepted time response)
    (hlast : system.lastSatisfied = t.system.lastSatisfied)
    (htimeout : system.challengeTimeout = t.system.challengeTimeout)
    (hactive : ∀ challenge, system.activeChallenge = some challenge →
      ∃ issued, challenge.expiresAt = issued + t.system.challengeTimeout ∧
        InterlockEvent.generated issued challenge ∈ event :: t.log) :
    Consistent { system := system, log := event :: t.log, clock := clock } := by
  constructor
  · intro last hstamp
    rw [hlast] at hstamp
    rw [htimeout]
    exact answeredAt_cons event hreset (h.stamped last hstamp)
  · intro hnone last hanswered
    rw [hlast] at hnone
    rw [htimeout] at hanswered
    exact h.unstamped hnone last (answeredAt_of_cons event haccepted hanswered).2
  · intro challenge hchallenge
    rw [htimeout]
    exact hactive challenge hchallenge

variable (call : Instant × InterlockOp)

/-- Every call keeps the stamp backed by the log. -/
theorem tracedStep_consistent (h : Consistent t) : Consistent (tracedStep t call) := by
  rcases call with ⟨now, op⟩
  -- A challenge that was active keeps its place in the log.
  have hkeep : ∀ (event : InterlockEvent) challenge, t.system.activeChallenge = some challenge →
      ∃ issued, challenge.expiresAt = issued + t.system.challengeTimeout ∧
        InterlockEvent.generated issued challenge ∈ event :: t.log := by
    intro event challenge hchallenge
    rcases h.active challenge hchallenge with ⟨issued, hexpires, hmem⟩
    exact ⟨issued, hexpires, List.mem_cons_of_mem event hmem⟩
  cases op with
  | generateChallenge =>
      refine consistent_of_same_stamp t _ _ _ h (by simp) (by simp) rfl rfl ?_
      intro challenge hchallenge
      have heq : t.system.nextChallenge now = challenge := Option.some.inj hchallenge
      rw [← heq]
      exact ⟨now, rfl, List.mem_cons_self⟩
  | validateResponse response =>
      simp only [tracedStep]
      cases hresult : (t.system.validateResponse now response).2 with
      | error err =>
          rw [t.system.validateResponse_of_error now response err hresult]
          exact consistent_of_same_stamp t _ _ _ h (by simp) (by simp) rfl rfl (hkeep _)
      | ok b =>
          -- The response answers the active challenge, whose issue is in the log.
          rcases (t.system.validateResponse_eq_ok_iff now response b).mp hresult with
            ⟨-, challenge, hchallenge, hmatches, hintime⟩
          rcases h.active challenge hchallenge with ⟨issued, hexpires, hmem⟩
          rw [t.system.validateResponse_of_ok now response b hresult]
          constructor
          · intro last hlast
            have heq : now = last := Option.some.inj hlast
            rw [← heq]
            exact ⟨[], response, t.log, issued, challenge, rfl, by simp, hmem, hmatches,
              by rw [← hexpires]; exact hintime⟩
          · intro hnone
            exact absurd hnone (by simp)
          · intro challenge hnone
            exact absurd hnone (by simp)
  | reset =>
      constructor
      · intro last hlast
        exact absurd hlast (by simp [tracedStep, InterlockSystem.reset])
      · -- Whatever was answered before lies behind the reset.
        intro _ last hanswered
        exact (answeredAt_of_cons .reset (by simp) hanswered).1 rfl
      · intro challenge hnone
        exact absurd hnone (by simp [tracedStep, InterlockSystem.reset])
  | setRequired required =>
      cases required with
      | true => exact consistent_of_same_stamp t _ _ _ h (by simp) (by simp) rfl rfl (hkeep _)
      | false => exact consistent_of_same_stamp t _ _ _ h (by simp) (by simp) rfl rfl (hkeep _)

/-- Under `Consistent`, soundness is about the flags: a required and satisfied
    interlock has a time stamp. -/
theorem sound_iff_stamped (h : Consistent t) :
    Sound t ↔ (t.system.required = true → t.system.satisfied = true →
      t.system.lastSatisfied ≠ none) := by
  constructor
  · intro hsound hrequired hsatisfied hnone
    -- Without a stamp the flag alone is reported, and never expires.
    have hreports : t.system.isSatisfied t.clock = true := by
      simp [InterlockSystem.isSatisfied, hrequired, hsatisfied, hnone]
    rcases hsound t.clock (le_refl _) hrequired hreports with ⟨last, hanswered, -⟩
    exact h.unstamped hnone last hanswered
  · intro hflags now _ hrequired hreports
    cases hsatisfied : t.system.satisfied with
    | false => simp [InterlockSystem.isSatisfied, hrequired, hsatisfied] at hreports
    | true =>
        cases hlast : t.system.lastSatisfied with
        | none => exact absurd hlast (hflags hrequired hsatisfied)
        | some last =>
            refine ⟨last, h.stamped last hlast, ?_⟩
            have hage : durationSince now last ≤ t.system.satisfactionTimeout := by
              simpa [InterlockSystem.isSatisfied, hrequired, hsatisfied, hlast] using hreports
            rw [durationSince, Nat.sub_le_iff_le_add'] at hage
            exact hage

theorem tracedStep_sound (h : Consistent t) (hsound : Sound t)
    (hguard : StampsSatisfaction t call) :
    Sound (tracedStep t call) := by
  rw [sound_iff_stamped _ (tracedStep_consistent t call h)]
  rw [sound_iff_stamped t h] at hsound
  rcases call with ⟨now, op⟩
  cases op with
  | generateChallenge => exact hsound
  | validateResponse response =>
      simp only [tracedStep]
      cases hresult : (t.system.validateResponse now response).2 with
      | error err =>
          rw [t.system.validateResponse_of_error now response err hresult]
          exact hsound
      | ok b =>
          rw [t.system.validateResponse_of_ok now response b hresult]
          intro _ _
          simp
  | reset =>
      intro _ hsatisfied
      exact absurd hsatisfied (by simp [tracedStep, InterlockSystem.reset])
  | setRequired required =>
      cases required with
      -- Switching on is where the guard is needed; switching off asks for nothing.
      | true => exact fun _ hsatisfied hnone => hguard rfl ⟨hsatisfied, hnone⟩
      | false =>
          intro hrequired
          exact absurd hrequired (by simp [tracedStep, InterlockSystem.setRequired])

theorem tracedStep_unsound (h : Consistent t) (hguard : ¬ StampsSatisfaction t call) :
    ¬ Sound (tracedStep t call) := by
  rcases call with ⟨now, op⟩
  rcases Classical.not_imp.mp hguard with ⟨hop, hflags⟩
  rcases Classical.not_not.mp hflags with ⟨hsatisfied, hnone⟩
  rw [sound_iff_stamped _ (tracedStep_consistent t (now, op) h)]
  rw [show op = .setRequired true from hop]
  exact fun hflags => hflags rfl hsatisfied hnone

/-- The identifiers accepted so far are distinct and were handed out by the counter, and the active
    challenge carries the newest identifier, not accepted yet. -/
structure Fresh (t : Traced) : Prop where
  counter : t.system.challengeCounter = (1 + issuedCount t.log) % 2 ^ 64
  handedOut : ∀ id ∈ acceptedIds t.log, ∃ k, k ≤ issuedCount t.log ∧ id = (1 + k) % 2 ^ 64
  active : ∀ challenge, t.system.activeChallenge = some challenge →
    challenge.challengeId = t.system.challengeCounter ∧
      challenge.challengeId ∉ acceptedIds t.log
  nodup : (acceptedIds t.log).Nodup

/-- Two counts closer than the range of the counter have different identifiers. -/
theorem challengeId_injective (k n : Nat) (hkn : k < n) (hrange : n < 2 ^ 64) :
    (1 + k) % 2 ^ 64 ≠ (1 + n) % 2 ^ 64 := by
  omega

/-- A challenge is accepted at most once. -/
theorem tracedStep_fresh (h : Fresh t) (hrange : issuedCount (tracedStep t call).log < 2 ^ 64) :
    Fresh (tracedStep t call) := by
  rcases call with ⟨now, op⟩
  cases op with
  | generateChallenge =>
      have hcount : issuedCount (tracedStep t (now, .generateChallenge)).log
          = issuedCount t.log + 1 := by
        simp [tracedStep, issuedCount]
      have hids : acceptedIds (tracedStep t (now, .generateChallenge)).log
          = acceptedIds t.log := by
        simp [tracedStep, acceptedIds]
      have hid : (t.system.challengeCounter + 1) % 2 ^ 64
          = (1 + (issuedCount t.log + 1)) % 2 ^ 64 := by
        rw [h.counter]
        omega
      constructor
      · rw [hcount]
        exact hid
      · intro id hmem
        rw [hids] at hmem
        rcases h.handedOut id hmem with ⟨k, hk, heq⟩
        exact ⟨k, by omega, heq⟩
      · intro challenge hchallenge
        have heq : t.system.nextChallenge now = challenge := Option.some.inj hchallenge
        rw [← heq, hids]
        -- An identifier accepted before belongs to a lower count, and the counter
        -- has not come round since.
        refine ⟨rfl, fun hmem => ?_⟩
        rcases h.handedOut _ hmem with ⟨k, hk, hsame⟩
        rw [hcount] at hrange
        have hdiffer := challengeId_injective k (issuedCount t.log + 1) (by omega) hrange
        exact hdiffer (by rw [← hsame, ← hid]; rfl)
      · rw [hids]
        exact h.nodup
  | validateResponse response =>
      simp only [tracedStep]
      cases hresult : (t.system.validateResponse now response).2 with
      | error err =>
          rw [t.system.validateResponse_of_error now response err hresult]
          exact ⟨h.counter, h.handedOut, h.active, h.nodup⟩
      | ok b =>
          rcases (t.system.validateResponse_eq_ok_iff now response b).mp hresult with
            ⟨-, challenge, hchallenge, hmatches, -⟩
          -- The accepted challenge was the newest and is used up with this response.
          rcases h.active challenge hchallenge with ⟨hnewest, hunused⟩
          rw [t.system.validateResponse_of_ok now response b hresult]
          have hids : acceptedIds (.accepted now response :: t.log)
              = challenge.challengeId :: acceptedIds t.log := by
            rw [← hmatches.1]
            rfl
          have hcount : issuedCount (.accepted now response :: t.log) = issuedCount t.log := by
            simp [issuedCount]
          constructor
          · dsimp only
            rw [hcount]
            exact h.counter
          · intro id hmem
            dsimp only at hmem ⊢
            rw [hids, List.mem_cons] at hmem
            rw [hcount]
            rcases hmem with rfl | hmem
            · exact ⟨issuedCount t.log, le_refl _, by rw [hnewest, h.counter]⟩
            · exact h.handedOut id hmem
          · intro challenge hnone
            exact absurd hnone (by simp)
          · dsimp only
            rw [hids, List.nodup_cons]
            exact ⟨hunused, h.nodup⟩
  | reset =>
      refine ⟨h.counter, h.handedOut, fun challenge hnone => ?_, h.nodup⟩
      exact absurd hnone (by simp [tracedStep, InterlockSystem.reset])
  | setRequired required =>
      cases required with
      | true => exact ⟨h.counter, h.handedOut, h.active, h.nodup⟩
      | false => exact ⟨h.counter, h.handedOut, h.active, h.nodup⟩

/-- A call issues one more challenge when it asks for one, and none else. -/
theorem tracedStep_issuedCount : issuedCount (tracedStep t call).log
      = issuedCount t.log + if call.2 = .generateChallenge then 1 else 0 := by
  rcases call with ⟨now, op⟩
  cases op with
  | validateResponse response =>
      simp only [tracedStep]
      cases (t.system.validateResponse now response).2 with
      | error err => simp [issuedCount]
      | ok b => simp [issuedCount]
  | _ => simp [tracedStep, issuedCount]

/-- The number of calls that ask for a challenge. -/
def generateCount (calls : List (Instant × InterlockOp)) : Nat :=
  calls.countP fun call => decide (call.2 = .generateChallenge)

theorem run_fresh (calls : List (Instant × InterlockOp)) (h : Fresh t)
    (hrange : issuedCount t.log + generateCount calls < 2 ^ 64) :
    Fresh (run tracedStep t calls) := by
  induction calls generalizing t with
  | nil => exact h
  | cons call rest ih =>
      have hcount := tracedStep_issuedCount t call
      -- The challenges still to be issued fit the range after this call too.
      have hsum : issuedCount (tracedStep t call).log + generateCount rest < 2 ^ 64 := by
        rw [generateCount, List.countP_cons] at hrange
        simp only [decide_eq_true_eq] at hrange
        rw [hcount, generateCount]
        omega
      rw [run_cons]
      refine ih _ (tracedStep_fresh t call h ?_) hsum
      omega

/-- A new interlock, before any call. -/
def Traced.start (required : Bool) : Traced :=
  { system := { required := required } }

theorem start_consistent (required : Bool) : Consistent (Traced.start required) := by
  constructor
  · intro last hlast
    exact absurd hlast (by simp [Traced.start])
  · rintro - last ⟨later, response, earlier, issued, challenge, hlog, -⟩
    exact absurd hlog (by simp [Traced.start])
  · intro challenge hnone
    exact absurd hnone (by simp [Traced.start])

theorem start_fresh (required : Bool) : Fresh (Traced.start required) := by
  refine ⟨rfl, fun id hmem => ?_, fun challenge hnone => ?_, List.nodup_nil⟩
  · exact absurd hmem (by simp [Traced.start, acceptedIds])
  · exact absurd hnone (by simp [Traced.start])

/-- Along every run of a new interlock with fewer than `2 ^ 64` challenges, a satisfied interlock
    was answered in time and no challenge is accepted twice, exactly when no call switches the
    requirement on while the flag is up without a stamp. -/
theorem interlock_sound_iff (required : Bool) (calls : List (Instant × InterlockOp))
    (hrange : generateCount calls < 2 ^ 64) :
    (Always tracedStep Sound (Traced.start required) calls ∧
        (acceptedIds (run tracedStep (Traced.start required) calls).log).Nodup) ↔
      StepsMeet tracedStep StampsSatisfaction (Traced.start required) calls := by
  have hstart : Sound (Traced.start required) := by
    rw [sound_iff_stamped _ (start_consistent required)]
    intro _ hsatisfied
    exact absurd hsatisfied (by simp [Traced.start])
  have hsound := always_iff_stepsMeet tracedStep Consistent Sound StampsSatisfaction
    tracedStep_consistent tracedStep_sound
    (fun t call hconsistent _ hguard => tracedStep_unsound t call hconsistent hguard)
    (Traced.start required) calls (start_consistent required) hstart
  have hfresh := run_fresh (Traced.start required) calls (start_fresh required)
    (by simpa [Traced.start, issuedCount] using hrange)
  rw [hsound, and_iff_left hfresh.nodup]

/-- A challenge answered in time, with the requirement off and on before it. -/
theorem interlock_sound_answered : Always tracedStep Sound (Traced.start true)
        [(0, .generateChallenge),
          (5, .validateResponse ⟨2, 2, [.thumbButton, .trigger], 2500⟩),
          (6, .setRequired false), (7, .setRequired true)] ∧
      (acceptedIds (run tracedStep (Traced.start true)
        [(0, .generateChallenge),
          (5, .validateResponse ⟨2, 2, [.thumbButton, .trigger], 2500⟩),
          (6, .setRequired false), (7, .setRequired true)]).log).Nodup := by
  refine (interlock_sound_iff true _ (by decide)).mpr ?_
  simp only [StepsMeet, StampsSatisfaction]
  decide

/-- Switching the requirement off and on again satisfies a new interlock with
    no challenge and no response. -/
theorem interlock_satisfied_unanswered : ¬ Always tracedStep Sound (Traced.start true)
        [(0, .setRequired false), (1, .setRequired true)] := by
  rintro ⟨-, -, hend⟩
  rcases hend 1 (by decide) (by decide) (by decide) with
    ⟨last, ⟨later, response, earlier, issued, challenge, hlog, -⟩, -⟩
  have hmem : InterlockEvent.accepted last response ∈ [.requiredSet true, .requiredSet false] := by
    rw [show [.requiredSet true, .requiredSet false]
      = later ++ .accepted last response :: earlier from hlog]
    simp
  simp at hmem

end OpenFlight.Ffb
