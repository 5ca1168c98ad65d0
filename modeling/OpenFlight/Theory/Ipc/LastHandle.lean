import OpenFlight.Theory.Ipc.ChangedOnly

/-!
# The Last Handle of a Subscription

A subscription is meant to end with its last handle, and not before unless it is
cancelled.

A drop compares the reference count before it gives its own reference back. If two
drops read the count before either gives its reference back, both see three, and
neither clears the flag: the handles are gone, and the next broadcast delivers. A
snapshot fails the other way. Between the look at the flag and the new handle, the
last drop may clear the flag, or read the count and clear it later, and then there
is a handle of a subscription that has ended.

A step is raced if it is one of these two. Without raced steps, while the flag is set
there is an undropped handle or a drop that is about to clear it, and before a
cancellation not both. A raced step breaks this, and from there the drops that have
begun lead to a state that should not be.

## Main definitions

* `WellFormed`: What every run keeps.
* `EndsWithHandles`, `Settles`: The law, now and however the drops that have begun go on.

## Theorems

* `sound_step`, `not_sound_step`: What a step does to the law.
* `last_handle_iff`: Over all runs, the law holds exactly without raced steps.
-/

namespace OpenFlight.Ipc

section

/-- The references that the manager has to the flag: that of the record, also when it
    has been removed and not yet given back. -/
def managerRefs : Bool → ManagerPhase → Nat
  | true, _ => 1
  | false, .releasing => 1
  | false, _ => 0

/-- What the counts and the phases say about each other, however the steps come. -/
structure WellFormed (s : Subscription) : Prop where
  keyed : KeyedById s.manager
  counted : s.strongCount = s.handles.length + managerRefs s.recorded s.phase
  released : s.phase = .releasing → s.recorded = false
  present : s.active = true → s.recorded = true
  cleared : s.cancelled = true → s.active = false
  unsubscribing : s.phase = .unsubscribing → s.active = false
  snapshotting : s.phase = .snapshotting → s.recorded = true

theorem wellFormed_opened (manager : SubscriptionManager) (hkeyed : KeyedById manager)
    (topic : Topic) (filter : SubscriptionFilter) (now : Instant) :
    WellFormed (.opened manager topic filter now) := by
  have hrecorded : (Subscription.opened manager topic filter now).recorded = true := by
    have hlookup := lookup_subscribe manager manager.nextId topic filter now
    rw [if_pos rfl] at hlookup
    exact Option.isSome_iff_exists.mpr ⟨_, hlookup⟩
  refine ⟨hkeyed.subscribe topic filter now, ?_, nofun, fun _ => hrecorded, nofun, nofun, nofun⟩
  rw [hrecorded]
  rfl

variable {s : Subscription}

theorem loads_self (s : Subscription) (others : SubscriptionId → Bool) :
    s.loads others s.id = s.active := by
  unfold Subscription.loads
  rw [Function.update_self]

theorem recorded_gc (s : Subscription) (others : SubscriptionId → Bool) :
    ((s.manager.gc (s.loads others)).subscriptions.lookup s.id).isSome =
      (s.recorded && s.active) := by
  rw [lookup_gc, loads_self, Subscription.recorded]
  cases s.active with
  | true => simp
  | false => simp

theorem recorded_broadcast (order : Iteration SubscriptionId SubscriptionRecord)
    (s : Subscription) (others : SubscriptionId → Bool) (now : Instant)
    (message : BroadcastMessage) :
    ((s.manager.broadcast order (s.loads others) now message).1.subscriptions.lookup s.id).isSome =
      (s.recorded && s.active) := by
  rw [lookup_broadcast, loads_self, Subscription.recorded]
  cases s.active with
  | true => simp
  | false => simp

namespace WellFormed

section

variable (h : WellFormed s)

include h

/-- Handles and references that come and go together. -/
theorem balanced {handles : List HandlePhase} {strong : Nat}
    (hbalance : strong + s.handles.length = s.strongCount + handles.length) :
    WellFormed { s with handles := handles, strongCount := strong } where
  keyed := h.keyed
  counted := by
    have hcount := h.counted
    change strong = handles.length + managerRefs s.recorded s.phase
    omega
  released := h.released
  present := h.present
  cleared := h.cleared
  unsubscribing := h.unsubscribing
  snapshotting := h.snapshotting

/-- The flag is cleared. -/
theorem clear (cancelled : Bool) :
    WellFormed { s with active := false, cancelled := cancelled } where
  keyed := h.keyed
  counted := h.counted
  released := h.released
  present := nofun
  cleared := fun _ => rfl
  unsubscribing := fun _ => rfl
  snapshotting := h.snapshotting

/-- The manager goes on to another phase, with the references that it had. -/
theorem moved {manager : SubscriptionManager} {phase : ManagerPhase} {recorded : Bool}
    (hkeyed : KeyedById manager) (hrecorded : (manager.subscriptions.lookup s.id).isSome = recorded)
    (hrefs : managerRefs recorded phase = managerRefs s.recorded s.phase)
    (hreleased : phase = .releasing → recorded = false)
    (hpresent : s.active = true → recorded = true)
    (hunsubscribing : phase = .unsubscribing → s.active = false)
    (hsnapshotting : phase = .snapshotting → recorded = true) :
    WellFormed { s with manager := manager, phase := phase } := by
  subst hrecorded
  refine ⟨hkeyed, ?_, hreleased, hpresent, h.cleared, hunsubscribing, hsnapshotting⟩
  rw [h.counted, ← hrefs]
  rfl

/-- The collection of a record whose flag has been cleared. -/
theorem collected (hidle : s.phase = .idle) {manager : SubscriptionManager}
    (hkeyed : KeyedById manager)
    (hrecorded : (manager.subscriptions.lookup s.id).isSome = (s.recorded && s.active))
    {next : ManagerPhase} (hnext : next = .idle ∨ next = .snapshotting) :
    WellFormed { s with manager := manager, phase := s.phaseAfterGc next } := by
  unfold Subscription.phaseAfterGc
  by_cases hactive : s.active = true
  · have hrec := h.present hactive
    rw [hrec, hactive, Bool.true_and] at hrecorded
    rw [if_pos hrec, if_pos hactive]
    refine h.moved hkeyed hrecorded ?_ ?_ (fun _ => rfl) ?_ (fun _ => rfl)
    · rw [hrec]
      rfl
    · rcases hnext with rfl | rfl <;> exact nofun
    · rcases hnext with rfl | rfl <;> exact nofun
  · have hinactive : s.active = true → false = true := fun h => absurd h hactive
    rw [Bool.eq_false_of_not_eq_true hactive, Bool.and_false] at hrecorded
    rw [if_neg hactive]
    by_cases hrec : s.recorded = true
    · rw [if_pos hrec]
      refine h.moved hkeyed hrecorded ?_ (fun _ => rfl) hinactive nofun nofun
      rw [hrec]
      rfl
    · rw [if_neg hrec]
      refine h.moved hkeyed hrecorded ?_ (fun _ => rfl) hinactive nofun nofun
      rw [Bool.eq_false_of_not_eq_true hrec, hidle]

/-- The rest of `unsubscribe`. -/
theorem removed (hphase : s.phase = .unsubscribing) : WellFormed { s with
      manager := (s.manager.unsubscribe s.id).1
      phase := if (s.manager.unsubscribe s.id).2 then .releasing else .idle } := by
  have hinactive : s.active = true → false = true := by
    rw [h.unsubscribing hphase]
    exact id
  have hgone : ((s.manager.unsubscribe s.id).1.subscriptions.lookup s.id).isSome = false := by
    rw [lookup_unsubscribe, if_pos rfl]
    rfl
  have hkeyed := h.keyed.unsubscribe s.id
  by_cases hfound : (s.manager.unsubscribe s.id).2 = true
  · have hrec : s.recorded = true := hfound
    rw [if_pos hfound]
    refine h.moved hkeyed hgone ?_ (fun _ => rfl) hinactive nofun nofun
    rw [hrec]
    rfl
  · have hrec : ¬ s.recorded = true := hfound
    rw [if_neg hfound]
    refine h.moved hkeyed hgone ?_ (fun _ => rfl) hinactive nofun nofun
    rw [Bool.eq_false_of_not_eq_true hrec, hphase]
    rfl

/-- A snapshot makes a handle for the record. -/
theorem handedOut (hphase : s.phase = .snapshotting) : WellFormed { s with
      handles := .held :: s.handles
      strongCount := s.strongCount + 1
      phase := .idle } := by
  have hrecorded := h.snapshotting hphase
  have hidle : WellFormed { s with manager := s.manager, phase := .idle } := by
    refine h.moved h.keyed hrecorded ?_ nofun (fun _ => rfl) nofun nofun
    rw [hrecorded]
    rfl
  exact hidle.balanced (by rw [List.length_cons]; dsimp only; omega)

/-- The reference of a removed record is given back. -/
theorem givenBack (hphase : s.phase = .releasing) :
    WellFormed { s with strongCount := s.strongCount - 1, phase := .idle } where
  keyed := h.keyed
  counted := by
    have hcount := h.counted
    have hgone := h.released hphase
    have hrefs : managerRefs s.recorded s.phase = 1 := by rw [hgone, hphase]; rfl
    have hrefs' : managerRefs s.recorded .idle = 0 := by rw [hgone]; rfl
    change s.strongCount - 1 = s.handles.length + managerRefs s.recorded .idle
    omega
  released := nofun
  present := h.present
  cleared := h.cleared
  unsubscribing := nofun
  snapshotting := nofun

end

end WellFormed

/-- The counts and the phases. -/
theorem wellFormed_step (order : Iteration SubscriptionId SubscriptionRecord) (s : Subscription)
    (a : HandleStep) (h : WellFormed s) : WellFormed (s.step order a) := by
  cases a with
  | clone =>
      unfold Subscription.step Subscription.clone
      dsimp only
      split_ifs with hheld
      · exact h.balanced (by rw [List.length_cons]; omega)
      · exact h
  | readCount =>
      unfold Subscription.step Subscription.readCount
      dsimp only
      split_ifs with hheld
      · have hpos := List.length_pos_of_mem hheld
        exact h.balanced (by rw [List.length_cons, List.length_erase_of_mem hheld]; omega)
      · exact h
  | storeFlag strong =>
      unfold Subscription.step Subscription.storeFlag
      dsimp only
      split_ifs with hcounted hlast
      · have hpos := List.length_pos_of_mem hcounted
        exact (h.clear s.cancelled).balanced
          (by rw [List.length_cons, List.length_erase_of_mem hcounted]; dsimp only; omega)
      · have hpos := List.length_pos_of_mem hcounted
        exact h.balanced (by rw [List.length_cons, List.length_erase_of_mem hcounted]; omega)
      · exact h
  | release =>
      unfold Subscription.step Subscription.release
      dsimp only
      split_ifs with hsettled
      · have hpos := List.length_pos_of_mem hsettled
        have hcount := h.counted
        exact h.balanced (by rw [List.length_erase_of_mem hsettled]; omega)
      · exact h
  | cancel =>
      unfold Subscription.step Subscription.cancel
      dsimp only
      split_ifs with hheld
      · exact h.clear true
      · exact h
  | unsubscribe =>
      unfold Subscription.step Subscription.unsubscribe
      dsimp only
      split_ifs with hheld
      · refine (h.clear true).moved h.keyed rfl ?_ nofun nofun (fun _ => rfl) nofun
        change managerRefs s.recorded .unsubscribing = managerRefs s.recorded s.phase
        rw [hheld.1]
        cases s.recorded <;> rfl
      · exact h
  | removeRecord =>
      unfold Subscription.step Subscription.removeRecord
      dsimp only
      by_cases hphase : s.phase = .unsubscribing
      · rw [if_pos hphase]
        exact h.removed hphase
      · rw [if_neg hphase]
        exact h
  | broadcast others now message =>
      unfold Subscription.step Subscription.broadcast
      dsimp only
      split_ifs with hidle
      · exact h.collected hidle (h.keyed.broadcast order _ now message)
          (recorded_broadcast order s others now message) (.inl rfl)
      · exact h
  | activeCount others =>
      unfold Subscription.step Subscription.activeCount
      dsimp only
      split_ifs with hidle
      · exact h.collected hidle (h.keyed.gc _) (recorded_gc s others) (.inl rfl)
      · exact h
  | activeSubscriptions others =>
      unfold Subscription.step Subscription.activeSubscriptions
      dsimp only
      split_ifs with hidle
      · exact h.collected hidle (h.keyed.gc _) (recorded_gc s others) (.inr rfl)
      · exact h
  | snapshot =>
      unfold Subscription.step Subscription.snapshot
      dsimp only
      split_ifs with hphase
      · exact h.handedOut hphase
      · exact h
  | releaseRecord =>
      unfold Subscription.step Subscription.releaseRecord
      dsimp only
      split_ifs with hphase
      · exact h.givenBack hphase
      · exact h

end

section

/-- A drop has read the count of the last handle and is about to store the flag. -/
def Pending (s : Subscription) : Prop :=
  ∃ strong, strong ≤ 2 ∧ .counted strong ∈ s.handles

/-- The subscription ends with its handles, and not before unless it is cancelled. -/
structure EndsWithHandles (order : Iteration SubscriptionId SubscriptionRecord) (s : Subscription) :
    Prop where
  ends : s.handles = [] → s.active = false ∧ ∀ others now message,
    s.id ∉ (s.manager.broadcast order (s.loads others) now message).2
  stays : .held ∈ s.handles → s.cancelled = false → s.active = true

/-- A step of a drop that has begun. -/
def Finishes : HandleStep → Prop
  | .storeFlag _ => True
  | .release => True
  | _ => False

/-- The subscription is kept now, and however the drops that have begun go on. -/
def Settles (order : Iteration SubscriptionId SubscriptionRecord) (s : Subscription) : Prop :=
  ∀ steps, (∀ a ∈ steps, Finishes a) → EndsWithHandles order (run (Subscription.step order) s steps)

/-- A drop that leaves no handle undropped reads the count while no other drop is
    under way. A handle is made by a snapshot only while the flag is set and no drop is
    about to clear it. Both are asked for only before the subscription is cancelled. -/
def Unraced (s : Subscription) : HandleStep → Prop
  | .readCount => s.cancelled = false → .held ∈ s.handles →
      .held ∉ s.handles.erase .held → s.handles.length = 1
  | .snapshot => s.cancelled = false → s.phase = .snapshotting →
      s.active = true ∧ ¬ Pending s
  | _ => True

/-- While the flag is set, a handle is undropped or a drop is about to clear it, and
    before the subscription is cancelled not both. -/
structure Sound (s : Subscription) : Prop where
  ends : s.active = true → .held ∈ s.handles ∨ Pending s
  stays : s.cancelled = false → .held ∈ s.handles → s.active = true ∧ ¬ Pending s

variable {s : Subscription}

theorem sound_opened (manager : SubscriptionManager) (topic : Topic) (filter : SubscriptionFilter)
    (now : Instant) : Sound (.opened manager topic filter now) where
  ends := fun _ => .inl List.mem_cons_self
  stays := by
    refine fun _ _ => ⟨rfl, ?_⟩
    rintro ⟨strong, -, hmem⟩
    exact nomatch List.mem_singleton.mp hmem

theorem Sound.kept (hs : WellFormed s) (h : Sound s)
    (order : Iteration SubscriptionId SubscriptionRecord) : EndsWithHandles order s where
  ends := by
    intro hnone
    have hinactive : s.active = false := by
      by_contra hactive
      rcases h.ends (Bool.eq_true_of_not_eq_false hactive) with hheld | ⟨strong, -, hmem⟩
      · rw [hnone] at hheld
        exact absurd hheld List.not_mem_nil
      · rw [hnone] at hmem
        exact absurd hmem List.not_mem_nil
    refine ⟨hinactive, fun others now message hmem => ?_⟩
    have hflag := ((mem_broadcast_iff order _ _ _ now message hs.keyed).mp hmem).1
    rw [loads_self, hinactive] at hflag
    exact nomatch hflag
  stays := fun hheld hcancelled => (h.stays hcancelled hheld).1

/-- The flag, the undropped handles and the pending ones decide whether the
    subscription is sound. -/
theorem Sound.congr (h : Sound s) {t : Subscription} (hactive : t.active = s.active)
    (hcancelled : t.cancelled = s.cancelled) (hheld : .held ∈ t.handles ↔ .held ∈ s.handles)
    (hpending : Pending t ↔ Pending s) : Sound t := by
  refine ⟨fun hon => ?_, fun hnot hin => ?_⟩
  · rw [hheld, hpending]
    exact h.ends (hactive ▸ hon)
  · rw [hactive, hpending]
    exact h.stays (hcancelled ▸ hnot) (hheld.mp hin)

/-- Once the flag is cleared by a call, nothing is asked for. -/
theorem sound_cleared {t : Subscription} (hactive : t.active = false)
    (hcancelled : t.cancelled = true) : Sound t := by
  refine ⟨fun hon => ?_, fun hnot _ => ?_⟩
  · rw [hactive] at hon
    exact nomatch hon
  · rw [hcancelled] at hnot
    exact nomatch hnot

theorem sound_clone (h : Sound s) : Sound s.clone := by
  unfold Subscription.clone
  split_ifs with hheld
  · refine ⟨fun _ => .inl List.mem_cons_self, fun hnot _ => ?_⟩
    have hstays := h.stays hnot hheld
    refine ⟨hstays.1, ?_⟩
    rintro ⟨strong, hlast, hmem⟩
    rcases List.mem_cons.mp hmem with heq | hmem
    · exact nomatch heq
    · exact hstays.2 ⟨strong, hlast, hmem⟩
  · exact h

theorem sound_readCount (hs : WellFormed s) (h : Sound s) (hok : Unraced s .readCount) :
    Sound s.readCount := by
  unfold Subscription.readCount
  split_ifs with hheld
  · have hpos := List.length_pos_of_mem hheld
    have hlength := List.length_erase_of_mem hheld
    -- The flag is set only before a cancellation, and while the record is there.
    have hcount : s.active = true → s.strongCount = s.handles.length + 1 := by
      intro hon
      rw [hs.counted, hs.present hon]
      rfl
    refine ⟨fun hon => ?_, fun hnot hin => ?_⟩
    · have hnot : s.cancelled = false := by
        by_contra hcancelled
        have hoff := hs.cleared (Bool.eq_true_of_not_eq_false hcancelled)
        exact absurd (hoff.symm.trans hon) Bool.false_ne_true
      by_cases hother : .held ∈ s.handles.erase .held
      · exact .inl (List.mem_cons_of_mem _ hother)
      · -- The last handle that is dropped reads the count of its own drop.
        have halone := hok hnot hheld hother
        have htwo := hcount hon
        exact .inr ⟨s.strongCount, by omega, List.mem_cons_self⟩
    · have hother : .held ∈ s.handles.erase .held :=
        (List.mem_cons.mp hin).resolve_left nofun
      have hstays := h.stays hnot hheld
      have hcount := hcount hstays.1
      have hmore := List.length_pos_of_mem hother
      refine ⟨hstays.1, ?_⟩
      rintro ⟨strong, hlast, hmem⟩
      rcases List.mem_cons.mp hmem with heq | hmem
      · rw [HandlePhase.counted.injEq] at heq
        omega
      · exact hstays.2 ⟨strong, hlast, List.mem_of_mem_erase hmem⟩
  · exact h

theorem sound_storeFlag (h : Sound s) (strong : Nat) : Sound (s.storeFlag strong) := by
  unfold Subscription.storeFlag
  by_cases hcounted : .counted strong ∈ s.handles
  · rw [if_pos hcounted]
    have hheld : .held ∈ HandlePhase.settled :: s.handles.erase (.counted strong) ↔
        .held ∈ s.handles := by
      have hne : HandlePhase.held ≠ .counted strong := nofun
      rw [List.mem_cons, List.mem_erase_of_ne hne]
      exact or_iff_right nofun
    by_cases hlast : strong ≤ 2
    · rw [if_pos hlast]
      refine ⟨nofun, fun hnot hin => ?_⟩
      exact absurd ⟨strong, hlast, hcounted⟩ (h.stays hnot (hheld.mp hin)).2
    · rw [if_neg hlast]
      refine h.congr rfl rfl hheld (exists_congr fun n => and_congr_right fun hn => ?_)
      have hne : HandlePhase.counted n ≠ .counted strong := by
        rw [ne_eq, HandlePhase.counted.injEq]
        omega
      rw [List.mem_cons, List.mem_erase_of_ne hne]
      exact or_iff_right nofun
  · rw [if_neg hcounted]
    exact h

theorem sound_release (h : Sound s) : Sound s.release := by
  unfold Subscription.release
  split_ifs with hsettled
  · refine h.congr rfl rfl (List.mem_erase_of_ne nofun) (exists_congr fun n => ?_)
    exact and_congr_right fun _ => List.mem_erase_of_ne nofun
  · exact h

theorem sound_snapshot (h : Sound s) (hok : Unraced s .snapshot) : Sound s.snapshot := by
  unfold Subscription.snapshot
  split_ifs with hphase
  · refine ⟨fun _ => .inl List.mem_cons_self, fun hnot _ => ?_⟩
    have hfree := hok hnot hphase
    refine ⟨hfree.1, ?_⟩
    rintro ⟨strong, hlast, hmem⟩
    rcases List.mem_cons.mp hmem with heq | hmem
    · exact nomatch heq
    · exact hfree.2 ⟨strong, hlast, hmem⟩
  · exact h

variable (order : Iteration SubscriptionId SubscriptionRecord)

/-- A step that is not raced keeps the subscription sound. -/
theorem sound_step (hs : WellFormed s) (h : Sound s) (a : HandleStep) (hok : Unraced s a) :
    Sound (s.step order a) := by
  cases a with
  | clone => exact sound_clone h
  | readCount => exact sound_readCount hs h hok
  | storeFlag strong => exact sound_storeFlag h strong
  | release => exact sound_release h
  | cancel =>
      unfold Subscription.step Subscription.cancel
      dsimp only
      split_ifs
      · exact sound_cleared rfl rfl
      · exact h
  | unsubscribe =>
      unfold Subscription.step Subscription.unsubscribe
      dsimp only
      split_ifs
      · exact sound_cleared rfl rfl
      · exact h
  | removeRecord =>
      unfold Subscription.step Subscription.removeRecord
      dsimp only
      by_cases hphase : s.phase = .unsubscribing
      · rw [if_pos hphase]
        exact h.congr rfl rfl Iff.rfl Iff.rfl
      · rw [if_neg hphase]
        exact h
  | broadcast others now message =>
      unfold Subscription.step Subscription.broadcast
      dsimp only
      split_ifs
      · exact h.congr rfl rfl Iff.rfl Iff.rfl
      · exact h
  | activeCount others =>
      unfold Subscription.step Subscription.activeCount
      dsimp only
      split_ifs
      · exact h.congr rfl rfl Iff.rfl Iff.rfl
      · exact h
  | activeSubscriptions others =>
      unfold Subscription.step Subscription.activeSubscriptions
      dsimp only
      split_ifs
      · exact h.congr rfl rfl Iff.rfl Iff.rfl
      · exact h
  | snapshot => exact sound_snapshot h hok
  | releaseRecord =>
      unfold Subscription.step Subscription.releaseRecord
      dsimp only
      split_ifs
      · exact h.congr rfl rfl Iff.rfl Iff.rfl
      · exact h

/-- A raced step does not. -/
theorem not_sound_step (hs : WellFormed s) (h : Sound s) (a : HandleStep) (hraced : ¬ Unraced s a) :
    ¬ Sound (s.step order a) := by
  intro hnext
  cases a with
  | readCount =>
      refine hraced fun hnot hheld hlast => ?_
      have hstays := h.stays hnot hheld
      have hcount : s.strongCount = s.handles.length + 1 := by
        rw [hs.counted, hs.present hstays.1]
        rfl
      have hpos := List.length_pos_of_mem hheld
      have hstep : s.step order .readCount =
          { s with handles := .counted s.strongCount :: s.handles.erase .held } := if_pos hheld
      rw [hstep] at hnext
      -- No handle is left, so the drop must have read the last count.
      rcases hnext.ends hstays.1 with hin | ⟨strong, htwo, hmem⟩
      · exact absurd ((List.mem_cons.mp hin).resolve_left nofun) hlast
      · rcases List.mem_cons.mp hmem with heq | hmem
        · rw [HandlePhase.counted.injEq] at heq
          omega
        · exact absurd ⟨strong, htwo, List.mem_of_mem_erase hmem⟩ hstays.2
  | snapshot =>
      refine hraced fun hnot hphase => ?_
      have hstep : s.step order .snapshot =
          { s with
            handles := .held :: s.handles
            strongCount := s.strongCount + 1
            phase := .idle } := if_pos hphase
      rw [hstep] at hnext
      have hstays := hnext.stays hnot List.mem_cons_self
      refine ⟨hstays.1, ?_⟩
      rintro ⟨strong, htwo, hmem⟩
      exact hstays.2 ⟨strong, htwo, List.mem_cons_of_mem _ hmem⟩
  | _ => exact hraced trivial

theorem unraced_of_finishes {a : HandleStep} (h : Finishes a) : Unraced s a := by
  cases a with
  | readCount => exact h.elim
  | snapshot => exact h.elim
  | _ => trivial

/-- Drops that have begun, and none of which is about to clear the flag, leave it as it is. -/
theorem exists_finishing (n : Nat) (s : Subscription) (hlength : s.handles.length = n)
    (hheld : .held ∉ s.handles) (hquiet : ¬ Pending s) :
    ∃ steps, (∀ a ∈ steps, Finishes a) ∧
      (run (Subscription.step order) s steps).handles = [] ∧
      (run (Subscription.step order) s steps).active = s.active := by
  induction n generalizing s with
  | zero =>
      refine ⟨[], fun a ha => absurd ha List.not_mem_nil, ?_, rfl⟩
      exact List.eq_nil_of_length_eq_zero hlength
  | succ n ih =>
      cases hhandles : s.handles with
      | nil =>
          rw [hhandles] at hlength
          exact nomatch hlength
      | cons phase rest =>
          -- The first handle goes through the rest of its drop.
          let t : Subscription := { s with handles := rest, strongCount := s.strongCount - 1 }
          have hsub : ∀ x ∈ rest, x ∈ s.handles := fun x hx => hhandles ▸ List.mem_cons_of_mem _ hx
          have hrest := ih t (by rw [hhandles] at hlength; exact Nat.succ.inj hlength)
            (fun hin => hheld (hsub _ hin))
            (fun ⟨strong, htwo, hmem⟩ => hquiet ⟨strong, htwo, hsub _ hmem⟩)
          rcases hrest with ⟨steps, hsteps, hgone, hflag⟩
          cases phase with
          | held => exact absurd (hhandles ▸ List.mem_cons_self) hheld
          | settled =>
              have hrelease : s.step order .release = t := by
                unfold Subscription.step Subscription.release
                dsimp only
                rw [if_pos (hhandles ▸ List.mem_cons_self), hhandles, List.erase_cons_head]
              refine ⟨.release :: steps, List.forall_mem_cons.mpr ⟨trivial, hsteps⟩, ?_⟩
              rw [run_cons, hrelease]
              exact ⟨hgone, hflag⟩
          | counted strong =>
              have hmany : ¬ strong ≤ 2 := fun htwo =>
                hquiet ⟨strong, htwo, hhandles ▸ List.mem_cons_self⟩
              have hstore : s.step order (.storeFlag strong) =
                  { s with handles := .settled :: rest } := by
                unfold Subscription.step Subscription.storeFlag
                dsimp only
                rw [if_pos (hhandles ▸ List.mem_cons_self), hhandles, List.erase_cons_head,
                  if_neg hmany]
              have hrelease : ({ s with handles := .settled :: rest } : Subscription).step order
                  .release = t := by
                unfold Subscription.step Subscription.release
                dsimp only
                rw [if_pos List.mem_cons_self, List.erase_cons_head]
              refine ⟨.storeFlag strong :: .release :: steps, ?_, ?_⟩
              · exact List.forall_mem_cons.mpr
                  ⟨trivial, List.forall_mem_cons.mpr ⟨trivial, hsteps⟩⟩
              · rw [run_cons, run_cons, hstore, hrelease]
                exact ⟨hgone, hflag⟩

/-- What is sound now is kept however the drops go on, and the other way around. -/
theorem settles_iff (hs : WellFormed s) : Settles order s ↔ Sound s := by
  constructor
  · intro h
    refine ⟨fun hon => ?_, fun hnot hheld => ?_⟩
    · by_contra hnone
      rw [not_or] at hnone
      rcases exists_finishing order _ s rfl hnone.1 hnone.2 with ⟨steps, hsteps, hgone, hflag⟩
      have hoff := ((h steps hsteps).ends hgone).1
      rw [hflag, hon] at hoff
      exact nomatch hoff
    · refine ⟨(h [] fun a ha => absurd ha List.not_mem_nil).stays hheld hnot, ?_⟩
      rintro ⟨strong, htwo, hmem⟩
      -- The drop clears the flag while the handle is there.
      have hkept := h [.storeFlag strong] fun a ha => by
        rw [List.mem_singleton.mp ha]
        trivial
      have hne : HandlePhase.held ≠ .counted strong := nofun
      have hstep : run (Subscription.step order) s [.storeFlag strong] =
          { s with
            active := if strong ≤ 2 then false else s.active
            handles := .settled :: s.handles.erase (.counted strong) } := if_pos hmem
      rw [hstep, if_pos htwo] at hkept
      have hon := hkept.stays (List.mem_cons_of_mem _ ((List.mem_erase_of_ne hne).mpr hheld)) hnot
      exact nomatch hon
  · intro h steps hsteps
    have hinv := run_invariant_of_mem (Subscription.step order)
      (fun t => WellFormed t ∧ Sound t) steps
      (fun a ha t ht => ⟨wellFormed_step order t a ht.1,
        sound_step order ht.1 ht.2 a (unraced_of_finishes (hsteps a ha))⟩) s ⟨hs, h⟩
    exact hinv.2.kept hinv.1 order

end

/-- In every run, the subscription is kept in all states, and in all that the drops under
    way lead to, exactly if no step is raced. -/
theorem last_handle_iff (order : Iteration SubscriptionId SubscriptionRecord)
    (calls : List ManagerCall) (topic : Topic) (filter : SubscriptionFilter) (now : Instant)
    (steps : List HandleStep) :
    Always (Subscription.step order) (Settles order)
        (.opened (run (SubscriptionManager.after order) .new calls) topic filter now) steps ↔
      StepsMeet (Subscription.step order) Unraced
        (.opened (run (SubscriptionManager.after order) .new calls) topic filter now) steps := by
  have hopened := wellFormed_opened _ (keyedById_run order calls) topic filter now
  refine always_iff_stepsMeet (Subscription.step order) WellFormed (Settles order) Unraced
    (wellFormed_step order) ?_ ?_ _ steps hopened
    ((settles_iff order hopened).mpr (sound_opened _ topic filter now))
  · intro s a hs hsettles hok
    have hsound := (settles_iff order hs).mp hsettles
    exact (settles_iff order (wellFormed_step order s a hs)).mpr
      (sound_step order hs hsound a hok)
  · intro s a hs hsettles hraced hnext
    have hsound := (settles_iff order hs).mp hsettles
    exact not_sound_step order hs hsound a hraced
      ((settles_iff order (wellFormed_step order s a hs)).mp hnext)

/-- Two handles are dropped, and both drops read the count before either gives its
    reference back. -/
def bothRead : List HandleStep :=
  [.clone, .readCount, .readCount, .storeFlag 3, .storeFlag 3, .release, .release]

/-- All handles are gone, and the subscription is still active. -/
theorem last_handle_missed : ¬ ∃ order, EndsWithHandles order (run (Subscription.step order)
      (.opened .new .axisData .default 0) bothRead) := by
  rintro ⟨order, hkept⟩
  have hended : true = false := (hkept.ends rfl).1
  exact nomatch hended

end OpenFlight.Ipc
