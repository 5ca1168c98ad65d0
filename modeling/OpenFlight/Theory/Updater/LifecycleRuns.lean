import OpenFlight.Core.Updater.StateMachine
import OpenFlight.Lib.CircularBuffer
import OpenFlight.Lib.Run

/-!
# Runs of the Update Lifecycle

What holds along every run of the update state machine, whatever events it is
fed, the rejected ones included.

The transitions are used through five lemmas, one for each state that a property is
about: where a transition into it can come from, and on which event. Everything
else follows from them by going through a run event by event, with the accepted
events written down on the way.

An offer of a version may arrive while another one is being installed. It is
rejected and changes nothing, so what is installed goes back to the last offer
that was accepted.

## Main definitions

* `Step`, `recorded`: The accepted events of a run, with the states around them.
* `Provenance`, `Recorded.Sound`: The invariants.

## Theorems

* `into_checking`, …, `into_complete`: Where a state is entered from.
* `lifecycle_protected`: All of it, for every run.
-/

namespace OpenFlight.Updater.Lifecycle

open UpdateStateMachine

section

variable (sim : Bool) (s : UpdateState) (e : UpdateEvent)

theorem into_checking (h : transition sim s e = some .checking) :
    (s = .idle ∧ e = .checkForUpdate ∧ sim = false) ∨ (s = .checking ∧ e = .simStopped) := by
  unfold transition at h
  split at h <;> grind

variable (v : String) (c : Channel)

theorem into_downloading (b t : Nat) (h : transition sim s e = some (.downloading v c b t)) :
    (s = .checking ∧ e = .updateAvailable v c t ∧ b = 0) ∨
      ∃ b₀ b₁, s = .downloading v c b₀ t ∧ e = .downloadProgress b₁ ∧ b = min (max b₁ b₀) t := by
  unfold transition at h
  split at h <;> grind

theorem into_verifying (h : transition sim s e = some (.verifying v c)) :
    (∃ b t, s = .downloading v c b t ∧ e = .downloadComplete) ∨
      (s = .verifying v c ∧ e = .simStopped) := by
  unfold transition at h
  split at h
  -- The bytes of the download are forgotten, so they are named here.
  case h_10 version channel b t =>
      cases h
      exact .inl ⟨b, t, rfl, rfl⟩
  all_goals grind

theorem into_applying (h : transition sim s e = some (.applying v c)) :
    (s = .verifying v c ∧ e = .verificationPassed ∧ sim = false) ∨
      (s = .applying v c ∧ (e = .simStarted ∨ e = .simStopped)) := by
  unfold transition at h
  split at h <;> grind

theorem into_complete (p : String) (h : transition sim s e = some (.complete v c p)) :
    s = .applying v c ∧ e = .applySuccess p := by
  unfold transition at h
  split at h <;> grind

end

/-- An accepted event, with the states around it and the flag that the guards saw. -/
structure Step where
  before : UpdateState
  event : UpdateEvent
  after : UpdateState
  simRunning : Bool

/-- A machine and the events it has accepted. -/
structure Recorded where
  machine : UpdateStateMachine
  steps : List Step

/-- An event, written down if it is accepted. -/
def Recorded.record (r : Recorded) (e : UpdateEvent) : Recorded :=
  match r.machine.handleEvent e with
  | (m, .ok next) => ⟨m, r.steps ++ [⟨r.machine.state, e, next, m.simRunning⟩]⟩
  | (m, .error _) => ⟨m, r.steps⟩

/-- The record of the run of a new machine. -/
def recorded (events : List UpdateEvent) : Recorded :=
  run Recorded.record ⟨new, []⟩ events

/-- The machine after an event, accepted or not. -/
def handle (m : UpdateStateMachine) (e : UpdateEvent) : UpdateStateMachine :=
  (m.handleEvent e).1

/-- The history after a transition. -/
def pushHistory (history : List (UpdateState × UpdateState)) (entry : UpdateState × UpdateState) :
    List (UpdateState × UpdateState) :=
  (if maxTransitionHistory ≤ history.length then history.drop 1 else history) ++ [entry]

/-- An event moves the machine, or is rejected and changes no more than the flag. -/
theorem handleEvent_cases (m : UpdateStateMachine) (e : UpdateEvent) :
    (∃ next, transition (flagAfter m.simRunning e) m.state e = some next ∧
      m.handleEvent e =
        (⟨next, flagAfter m.simRunning e, pushHistory m.transitionHistory (m.state, next)⟩,
          .ok next)) ∨
    (transition (flagAfter m.simRunning e) m.state e = none ∧ ∃ error, m.handleEvent e =
      (⟨m.state, flagAfter m.simRunning e, m.transitionHistory⟩, .error error)) := by
  unfold handleEvent nextState
  cases htransition : transition (flagAfter m.simRunning e) m.state e with
  | none =>
      refine .inr ⟨rfl, ⟨m.state.display, e⟩, ?_⟩
      simp only [htransition]
  | some next =>
      refine .inl ⟨next, rfl, ?_⟩
      simp only [htransition]
      rfl

theorem record_cases (r : Recorded) (e : UpdateEvent) :
    (∃ next, transition (flagAfter r.machine.simRunning e) r.machine.state e = some next ∧
      r.record e =
        ⟨⟨next, flagAfter r.machine.simRunning e,
            pushHistory r.machine.transitionHistory (r.machine.state, next)⟩,
          r.steps ++ [⟨r.machine.state, e, next, flagAfter r.machine.simRunning e⟩]⟩) ∨
    (transition (flagAfter r.machine.simRunning e) r.machine.state e = none ∧ r.record e =
      ⟨⟨r.machine.state, flagAfter r.machine.simRunning e, r.machine.transitionHistory⟩,
        r.steps⟩) := by
  unfold Recorded.record
  rcases handleEvent_cases r.machine e with
    ⟨next, htransition, hhandle⟩ | ⟨htransition, error, hhandle⟩
  · refine .inl ⟨next, htransition, ?_⟩
    rw [hhandle]
  · refine .inr ⟨htransition, ?_⟩
    rw [hhandle]

theorem record_machine (r : Recorded) (e : UpdateEvent) :
    (r.record e).machine = handle r.machine e := by
  unfold Recorded.record handle
  rcases handleEvent_cases r.machine e with ⟨next, -, hhandle⟩ | ⟨-, error, hhandle⟩
  · rw [hhandle]
  · rw [hhandle]

section

/-- The event offers a version, or resets the machine. -/
def Restarts : UpdateEvent → Prop
  | .updateAvailable _ _ _ => True
  | .reset => True
  | _ => False

/-- Events end with an offer of the version and what came after it: no other
    offer, no reset, and the given events in their order. -/
def Since (v : String) (c : Channel) (stages events : List UpdateEvent) : Prop :=
  ∃ earlier size later, events = earlier ++ .updateAvailable v c size :: later ∧
    (∀ e ∈ later, ¬ Restarts e) ∧ stages.Sublist later

/-- How the machine got to its state by the events it accepted. -/
def Provenance (events : List UpdateEvent) : UpdateState → Prop
  | .downloading v c _ _ => Since v c [] events
  | .verifying v c => Since v c [.downloadComplete] events
  | .applying v c => Since v c [.downloadComplete, .verificationPassed] events
  | .complete v c p =>
      Since v c [.downloadComplete, .verificationPassed, .applySuccess p] events
  | _ => True

variable (v : String) (c : Channel)

theorem since_offer (size : Nat) (events : List UpdateEvent) :
    Since v c [] (events ++ [.updateAvailable v c size]) :=
  ⟨events, size, [], rfl, by simp, List.Sublist.refl []⟩

/-- A later event that does not restart anything may be counted. -/
theorem since_append (stages events counted : List UpdateEvent) (e : UpdateEvent)
    (h : Since v c stages events) (he : ¬ Restarts e) (hcounted : counted.Sublist [e]) :
    Since v c (stages ++ counted) (events ++ [e]) := by
  rcases h with ⟨earlier, size, later, rfl, hlater, hstages⟩
  refine ⟨earlier, size, later ++ [e], by simp, ?_, hstages.append hcounted⟩
  intro e' he'
  rcases List.mem_append.mp he' with hold | hnew
  · exact hlater e' hold
  · rw [List.mem_singleton.mp hnew]
    exact he

section

variable (stages events : List UpdateEvent) (e : UpdateEvent) (h : Since v c stages events)
  (he : ¬ Restarts e)

include stages events e h he

theorem since_skip : Since v c stages (events ++ [e]) := by
  have happend := since_append v c stages events [] e h he (List.nil_sublist _)
  rw [List.append_nil] at happend
  exact happend

theorem since_count : Since v c (stages ++ [e]) (events ++ [e]) :=
  since_append v c stages events [e] e h he (List.Sublist.refl _)

end

/-- Every transition leads to a state that the events account for. -/
theorem provenance_step (sim : Bool) (s next : UpdateState) (e : UpdateEvent)
    (events : List UpdateEvent) (hs : Provenance events s)
    (h : transition sim s e = some next) : Provenance (events ++ [e]) next := by
  cases next with
  | downloading v c b t =>
      rcases into_downloading sim s e v c b t h with ⟨-, rfl, -⟩ | ⟨b₀, b₁, rfl, rfl, -⟩
      · exact since_offer v c t events
      · exact since_skip v c [] events _ hs (fun h => h)
  | verifying v c =>
      rcases into_verifying sim s e v c h with ⟨b, t, rfl, rfl⟩ | ⟨rfl, rfl⟩
      · exact since_count v c [] events _ hs (fun h => h)
      · exact since_skip v c _ events _ hs (fun h => h)
  | applying v c =>
      rcases into_applying sim s e v c h with ⟨rfl, rfl, -⟩ | ⟨rfl, rfl | rfl⟩
      · exact since_count v c _ events _ hs (fun h => h)
      · exact since_skip v c _ events _ hs (fun h => h)
      · exact since_skip v c _ events _ hs (fun h => h)
  | complete v c p =>
      rcases into_complete sim s e v c p h with ⟨rfl, rfl⟩
      exact since_count v c _ events _ hs (fun h => h)
  | idle => trivial
  | checking => trivial
  | rolledBack failedVersion failedChannel restoredVersion reason => trivial
  | blockedMidFlight => trivial
  | failed reason failedVersion failedChannel => trivial

end

section

/-- The states that a simulation must not meet. -/
def Interruptible : UpdateState → Prop
  | .checking => True
  | .downloading _ _ _ _ => True
  | .verifying _ _ => True
  | _ => False

/-- Where an application starts, no simulation runs. -/
def Step.Guarded (st : Step) : Prop :=
  ∀ v c, st.after = .applying v c → st.before ≠ st.after → st.simRunning = false

/-- The bytes of a download do not exceed its size. -/
def WithinTotal : UpdateState → Prop
  | .downloading _ _ b t => b ≤ t
  | _ => True

def transitions (steps : List Step) : List (UpdateState × UpdateState) :=
  steps.map fun st => (st.before, st.after)

/-- What holds of a recorded machine. -/
structure Recorded.Sound (r : Recorded) : Prop where
  shielded : r.machine.simRunning = true → ¬ Interruptible r.machine.state
  guarded : ∀ st ∈ r.steps, st.Guarded
  provenance : Provenance (r.steps.map Step.event) r.machine.state
  within : WithinTotal r.machine.state
  history : r.machine.transitionHistory = (transitions r.steps).rtake maxTransitionHistory
  chain : (transitions r.steps).IsChain fun a b => a.2 = b.1
  last : ∀ entry ∈ (transitions r.steps).getLast?, entry.2 = r.machine.state

variable (sim : Bool) (s : UpdateState)

/-- No transition leads into an interruptible state while a simulation runs, if
    none was in one before. -/
theorem not_interruptible_step (next : UpdateState) (e : UpdateEvent)
    (hs : sim = true → ¬ Interruptible s) (h : transition (flagAfter sim e) s e = some next)
    (hsim : flagAfter sim e = true) : ¬ Interruptible next := by
  cases next with
  | checking =>
      rcases into_checking _ s e h with ⟨-, -, hoff⟩ | ⟨-, rfl⟩
      · -- The guard of the check saw the flag that the machine has afterwards.
        rw [hoff] at hsim
        exact absurd hsim Bool.false_ne_true
      · exact absurd hsim Bool.false_ne_true
  | downloading v c b t =>
      rcases into_downloading _ s e v c b t h with ⟨rfl, rfl, -⟩ | ⟨b₀, b₁, rfl, rfl, -⟩
      · exact absurd trivial (hs hsim)
      · exact absurd trivial (hs hsim)
  | verifying v c =>
      rcases into_verifying _ s e v c h with ⟨b, t, rfl, rfl⟩ | ⟨rfl, rfl⟩
      · exact absurd trivial (hs hsim)
      · exact absurd hsim Bool.false_ne_true
  | idle => exact fun h => h
  | applying v c => exact fun h => h
  | complete v c p => exact fun h => h
  | rolledBack failedVersion failedChannel restoredVersion reason => exact fun h => h
  | blockedMidFlight => exact fun h => h
  | failed reason failedVersion failedChannel => exact fun h => h

/-- A rejected start of a simulation finds no interruptible state: all of them accept it. -/
theorem not_interruptible_rejected (e : UpdateEvent) (hs : sim = true → ¬ Interruptible s)
    (h : transition (flagAfter sim e) s e = none) (hsim : flagAfter sim e = true) :
    ¬ Interruptible s := by
  cases e with
  | simStarted =>
      cases s with
      | checking => exact nomatch h
      | downloading v c b t => exact nomatch h
      | verifying v c => exact nomatch h
      | _ => exact fun h => h
  | simStopped => exact absurd hsim Bool.false_ne_true
  -- Other events leave the flag as it was.
  | _ => exact hs hsim

theorem within_step (next : UpdateState) (e : UpdateEvent) (h : transition sim s e = some next) :
    WithinTotal next := by
  cases next with
  | downloading v c b t =>
      rcases into_downloading sim s e v c b t h with ⟨-, -, rfl⟩ | ⟨b₀, b₁, -, -, rfl⟩
      · exact Nat.zero_le t
      · exact Nat.min_le_right _ t
  | _ => trivial

theorem guarded_step (next : UpdateState) (e : UpdateEvent) (h : transition sim s e = some next) :
    Step.Guarded ⟨s, e, next, sim⟩ := by
  intro v c hafter hmoved
  have hafter' : next = .applying v c := hafter
  subst hafter'
  rcases into_applying sim s e v c h with ⟨-, -, hoff⟩ | ⟨hsame, -⟩
  · exact hoff
  · exact absurd hsame hmoved

theorem transitions_concat (steps : List Step) (st : Step) :
    transitions (steps ++ [st]) = transitions steps ++ [(st.before, st.after)] :=
  List.map_append

/-- The history keeps the newest transitions. -/
theorem pushHistory_rtake (all : List (UpdateState × UpdateState))
    (entry : UpdateState × UpdateState) :
    pushHistory (all.rtake maxTransitionHistory) entry =
      (all ++ [entry]).rtake maxTransitionHistory := by
  have hdrop := drop_rtake_succ all 999
  have hconcat := List.rtake_concat_succ all 999 entry
  rw [← hdrop] at hconcat
  exact hconcat.symm

/-- The invariants survive an event. -/
theorem sound_record (r : Recorded) (h : r.Sound) (e : UpdateEvent) : (r.record e).Sound := by
  rcases record_cases r e with ⟨next, htransition, hrecord⟩ | ⟨htransition, hrecord⟩
  · rw [hrecord]
    refine ⟨?_, ?_, ?_, within_step _ _ _ _ htransition, ?_, ?_, ?_⟩
    · exact not_interruptible_step _ _ _ e h.shielded htransition
    · intro st hst
      rcases List.mem_append.mp hst with hold | hnew
      · exact h.guarded st hold
      · rw [List.mem_singleton.mp hnew]
        exact guarded_step _ _ _ e htransition
    · rw [List.map_append]
      exact provenance_step _ _ _ e _ h.provenance htransition
    · rw [transitions_concat, ← pushHistory_rtake, ← h.history]
    · -- The new transition starts in the state that the last one led to.
      rw [transitions_concat, List.isChain_append]
      refine ⟨h.chain, List.isChain_singleton _, ?_⟩
      intro entry hentry entry' hentry'
      rw [List.head?_cons, Option.mem_some_iff] at hentry'
      rw [h.last entry hentry, ← hentry']
    · intro entry hentry
      rw [transitions_concat, List.getLast?_concat, Option.mem_some_iff] at hentry
      rw [← hentry]
  · -- A rejected event may have set the flag and has changed nothing else.
    rw [hrecord]
    refine ⟨?_, h.guarded, h.provenance, h.within, h.history, h.chain, h.last⟩
    exact not_interruptible_rejected _ _ e h.shielded htransition

theorem sound_recorded (events : List UpdateEvent) : (recorded events).Sound := by
  refine run_invariant Recorded.record Recorded.Sound (fun r e h => sound_record r h e) _ events ?_
  refine ⟨fun h => absurd h Bool.false_ne_true, ?_, trivial, trivial, rfl, List.isChain_nil, ?_⟩
  · intro st hst
    exact absurd hst List.not_mem_nil
  · intro entry hentry
    exact nomatch hentry

end

section

/-- The event says whether a simulation runs. -/
def isSim : UpdateEvent → Bool
  | .simStarted => true
  | .simStopped => true
  | _ => false

variable (events : List UpdateEvent)

theorem recorded_concat (e : UpdateEvent) : recorded (events ++ [e]) = (recorded events).record e :=
  run_append Recorded.record _ events [e]

theorem simRunning_record (r : Recorded) (e : UpdateEvent) :
    (r.record e).machine.simRunning = flagAfter r.machine.simRunning e := by
  rcases record_cases r e with ⟨next, -, hrecord⟩ | ⟨-, hrecord⟩
  · rw [hrecord]
  · rw [hrecord]

/-- The flag is what the last event about a simulation said. -/
theorem simRunning_iff : (recorded events).machine.simRunning = true ↔
      events.reverse.find? isSim = some .simStarted := by
  induction events using List.reverseRecOn with
  | nil => exact ⟨fun h => absurd h Bool.false_ne_true, fun h => nomatch h⟩
  | append_singleton events e ih =>
      rw [recorded_concat, simRunning_record, List.reverse_append, List.reverse_singleton,
        List.singleton_append]
      cases e with
      | simStarted => exact ⟨fun _ => rfl, fun _ => rfl⟩
      | simStopped =>
          refine ⟨fun h => absurd h Bool.false_ne_true, fun h => ?_⟩
          rw [List.find?_cons_of_pos rfl] at h
          exact nomatch h
      | _ =>
          rw [List.find?_cons_of_neg Bool.false_ne_true]
          exact ih

theorem recorded_machine : (recorded events).machine = run handle new events := by
  induction events using List.reverseRecOn with
  | nil => rfl
  | append_singleton events e ih =>
      rw [recorded_concat, record_machine, ih, run_append]
      rfl

def IsDownloading (s : UpdateState) : Prop :=
  ∃ v c b t, s = .downloading v c b t

section

variable (m : UpdateStateMachine) (v : String) (c : Channel) (b t : Nat)
  (hstate : m.state = .downloading v c b t) (hwithin : b ≤ t)

include m v c b t hstate hwithin

/-- A download that goes on is of the same version and size, with no fewer bytes. -/
theorem download_step (e : UpdateEvent) (hnext : IsDownloading (handle m e).state) :
    ∃ b', (handle m e).state = .downloading v c b' t ∧ b ≤ b' ∧ b' ≤ t := by
  unfold handle at hnext ⊢
  rcases handleEvent_cases m e with ⟨next, htransition, hhandle⟩ | ⟨-, error, hhandle⟩
  · rw [hhandle] at hnext ⊢
    rcases hnext with ⟨v', c', b', t', hnext⟩
    have hnext' : next = .downloading v' c' b' t' := hnext
    subst hnext'
    rw [hstate] at htransition
    -- A new download would start from a check, so this is progress of the old one.
    rcases into_downloading _ _ e v' c' b' t' htransition with ⟨hfrom, -, -⟩ |
      ⟨b₀, b₁, hfrom, -, hbytes⟩
    · exact absurd hfrom (by simp)
    · cases hfrom
      refine ⟨b', rfl, ?_, ?_⟩
      · rw [hbytes]
        exact Nat.le_min.mpr ⟨Nat.le_max_right _ _, hwithin⟩
      · rw [hbytes]
        exact Nat.min_le_right _ _
  · rw [hhandle]
    exact ⟨b, hstate, le_refl b, hwithin⟩

/-- Along one download its version and size stay and its bytes do not decrease. -/
theorem download_grows (events : List UpdateEvent)
    (h : Always handle (fun m => IsDownloading m.state) m events) :
    ∃ b', (run handle m events).state = .downloading v c b' t ∧ b ≤ b' ∧ b' ≤ t := by
  induction events generalizing m b with
  | nil => exact ⟨b, hstate, le_refl b, hwithin⟩
  | cons e rest ih =>
      rw [Always] at h
      rw [run_cons]
      have hnext : IsDownloading (handle m e).state :=
        (always_iff_states handle _ _ rest).mp h.2 [] rest rfl
      rcases download_step m v c b t hstate hwithin e hnext with ⟨b', hstate', hgrows, hwithin'⟩
      rcases ih (handle m e) b' hstate' hwithin' h.2 with ⟨b'', hstate'', hgrows', hwithin''⟩
      exact ⟨b'', hstate'', le_trans hgrows hgrows', hwithin''⟩

end

/-- What every run of the machine keeps. While a simulation runs nothing is checked for, downloaded
    or verified, and no application starts. The flag is what the last event about a simulation said.
    A completed update is the last one that was accepted, and was downloaded, verified and applied
    since. The bytes of a download only grow, up to its size. The history is the newest transitions,
    and each starts where the one before it ended. -/
theorem lifecycle_protected (events : List UpdateEvent) :
    ((recorded events).machine.simRunning = true →
      ¬ Interruptible (recorded events).machine.state) ∧
    (∀ st ∈ (recorded events).steps, st.Guarded) ∧
    ((recorded events).machine.simRunning = true ↔
      events.reverse.find? isSim = some .simStarted) ∧
    (∀ v c p, (recorded events).machine.state = .complete v c p →
      Since v c [.downloadComplete, .verificationPassed, .applySuccess p]
        ((recorded events).steps.map Step.event)) ∧
    (∀ pre during post, events = pre ++ during ++ post →
      Always handle (fun m => IsDownloading m.state) (recorded pre).machine during →
      ∃ v c b b' t, (recorded pre).machine.state = .downloading v c b t ∧
        (recorded (pre ++ during)).machine.state = .downloading v c b' t ∧ b ≤ b' ∧ b' ≤ t) ∧
    (recorded events).machine.transitionHistory =
      (transitions (recorded events).steps).rtake maxTransitionHistory ∧
    (recorded events).machine.transitionHistory.IsChain fun a b => a.2 = b.1 := by
  have hsound := sound_recorded events
  refine ⟨hsound.shielded, hsound.guarded, simRunning_iff events, ?_, ?_, hsound.history, ?_⟩
  · intro v c p hstate
    have hprovenance := hsound.provenance
    rw [hstate] at hprovenance
    exact hprovenance
  · intro pre during post _ halways
    rcases (always_iff_states handle _ _ during).mp halways [] during rfl with ⟨v, c, b, t, hstate⟩
    have hwithin := (sound_recorded pre).within
    rw [run_nil] at hstate
    rw [hstate] at hwithin
    rcases download_grows _ v c b t hstate hwithin during halways with ⟨b', hafter, hgrows, htotal⟩
    refine ⟨v, c, b, b', t, hstate, ?_, hgrows, htotal⟩
    rw [recorded_machine, run_append, ← recorded_machine]
    exact hafter
  · -- What is left of a chain at its end is a chain.
    rw [hsound.history]
    exact hsound.chain.drop _

/-- An update from the check to its completion. -/
def fullUpdate : List UpdateEvent :=
  [.checkForUpdate, .updateAvailable "2.0.0" .stable 4096, .downloadProgress 1024,
    .downloadComplete, .verificationPassed, .applySuccess "1.0.0"]

theorem lifecycle_protected_fullUpdate :
    (recorded fullUpdate).machine.state = .complete "2.0.0" .stable "1.0.0" ∧
    Since "2.0.0" .stable [.downloadComplete, .verificationPassed, .applySuccess "1.0.0"]
      ((recorded fullUpdate).steps.map Step.event) := by
  have hstate : (recorded fullUpdate).machine.state = .complete "2.0.0" .stable "1.0.0" := rfl
  exact ⟨hstate, (lifecycle_protected fullUpdate).2.2.2.1 _ _ _ hstate⟩

/-- The event offers a version. -/
def isOffer : UpdateEvent → Bool
  | .updateAvailable _ _ _ => true
  | _ => false

/-- Another version is offered while one is verified. -/
def offeredTwice : List UpdateEvent :=
  [.checkForUpdate, .updateAvailable "2.0.0" .stable 4096, .downloadComplete,
    .updateAvailable "3.0.0" .beta 8192, .verificationPassed, .applySuccess "1.0.0"]

/-- The second offer is the last one of the run, and the first is installed. -/
theorem complete_not_last_offer :
    ¬ ∀ v c p, (recorded offeredTwice).machine.state = .complete v c p →
      ∃ size, offeredTwice.reverse.find? isOffer = some (.updateAvailable v c size) := by
  intro h
  rcases h "2.0.0" .stable "1.0.0" rfl with ⟨size, hoffer⟩
  have hlast : offeredTwice.reverse.find? isOffer = some (.updateAvailable "3.0.0" .beta 8192) :=
    rfl
  rw [hlast, Option.some.injEq, UpdateEvent.updateAvailable.injEq] at hoffer
  exact absurd hoffer.2.1 (by decide)

end

end OpenFlight.Updater.Lifecycle
