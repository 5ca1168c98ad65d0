import OpenFlight.Core.Panels.Led
import OpenFlight.Lib.Run
import OpenFlight.Theory.Rounding

/-!
# Blink Rates

Which blink rates the controller survives.

The period of a blinking LED is the reciprocal of its rate, and turning it
into a duration panics when there is no such duration. Nothing between the
text of a rule and that conversion looks at the rate, and the parser takes
whatever reads as a number: zero, what is negative, what is not a number and
what is too close to zero are all rates that the next update panics on.
`SafeRate` says which rates are left: the infinities, whose reciprocal is
zero, and everything above `2 ^ -64`.

An update panics exactly when some LED has an unsafe rate (`Calm`). Calls with
safe actions keep every rate safe, and updates change no rate, so a run of
them goes on. One action with an unsafe rate on a new controller ends it.

## Main definitions

* `SafeRate`, `SafeAction`: The rates with a period, and the actions with such
  a rate.

## Theorems

* `blink_returns_iff`: The actions that no later update panics on.
* `blink_zero_panics`: A parsed action that one does.
-/

namespace OpenFlight.Panels

open Rules

/-- A rate whose period is a duration. -/
def SafeRate : F32 → Prop
  | .nan => False
  | .negInf => True
  | .posInf => True
  | .fin q => 1 / 2 ^ 64 < q

/-- A number, if it is one, is a single-precision value. -/
def IsSingle : F32 → Prop
  | .fin q => F32.Representable q
  | _ => True

theorem isSingle_ofRat (q : ℚ) : IsSingle (F32.ofRat q) := by
  cases h : F32.ofRat q with
  | fin r => exact F32.representable_of_ofRat q r h
  | _ => trivial

theorem isSingle_neg (x : F32) (h : IsSingle x) : IsSingle x.neg := by
  cases x with
  | fin q => exact F32.Representable.neg h
  | _ => trivial

theorem isSingle_parseF32 (s : Text) (x : F32) (h : parseF32 s = some x) : IsSingle x := by
  have hmagnitude : ∀ t y, parseMagnitude t = some y → IsSingle y := by
    intro t y hy
    unfold parseMagnitude at hy
    dsimp only at hy
    split_ifs at hy
    · rw [← Option.some.inj hy]
      trivial
    · rw [← Option.some.inj hy]
      trivial
    · rcases Option.map_eq_some_iff.mp hy with ⟨q, -, rfl⟩
      exact isSingle_ofRat q
  rcases Option.map_eq_some_iff.mp h with ⟨y, hy, rfl⟩
  have hsingle := hmagnitude _ y hy
  split
  · exact isSingle_neg y hsingle
  · exact hsingle

theorem fromSecsF32_ofRat_of_neg (q : ℚ) (hq : q < 0) (h : 2 ^ (-149 : ℤ) ≤ |q|) :
    fromSecsF32 (F32.ofRat q) = none := by
  have hneg := F32.roundedRat_neg q hq h
  rw [F32.ofRat_of_ne_zero q hq.ne]
  split_ifs
  · rfl
  · exact if_pos (.inl hneg)

theorem fromSecsF32_ofRat_of_large (q : ℚ) (h : 2 ^ (64 : ℤ) ≤ q) :
    fromSecsF32 (F32.ofRat q) = none := by
  have hlarge := F32.le_roundedRat q 64 (by norm_num) h
  have hq : q ≠ 0 := by
    intro hzero
    norm_num [hzero] at h
  rw [F32.ofRat_of_ne_zero q hq]
  split_ifs
  · rfl
  · rfl
  · exact if_pos (.inr (by exact_mod_cast hlarge))

theorem fromSecsF32_ofRat_of_small (q : ℚ) (hq : 0 < q)
    (h : q * (1 + 1 / 2 ^ 23) ≤ 2 ^ (64 : ℤ)) : (fromSecsF32 (F32.ofRat q)).isSome = true := by
  have hlt := F32.roundedRat_lt q 64 (by norm_num) hq h
  have hnonneg : 0 ≤ F32.roundedRat q := by
    refine mul_nonneg ?_ (F32.two_zpow_pos _).le
    exact_mod_cast F32.le_roundEven _ 0 (by simpa using div_nonneg hq.le (F32.two_zpow_pos _).le)
  have hfits : ¬ 2 ^ 128 ≤ |F32.roundedRat q| := by
    rw [abs_of_nonneg hnonneg, not_le]
    exact hlt.trans (by norm_num)
  have hrange : ¬ (F32.roundedRat q < 0 ∨ 2 ^ 64 ≤ F32.roundedRat q) := by
    rw [not_or, not_lt, not_le]
    exact ⟨hnonneg, by exact_mod_cast hlt⟩
  rw [F32.ofRat_of_ne_zero q hq.ne', if_neg hfits]
  simp only [fromSecsF32, if_neg hrange, Option.isSome_some]

/-- The period of a single-precision rate is a duration exactly when the rate is safe. -/
theorem fromSecsF32_recip_isSome (rate : F32) (hsingle : IsSingle rate) :
    (fromSecsF32 rate.recip).isSome = true ↔ SafeRate rate := by
  cases rate with
  | fin q =>
      change (fromSecsF32 (if q = 0 then .posInf else F32.ofRat (1 / q))).isSome = true ↔
        1 / 2 ^ 64 < q
      have hbound : |q| < 2 ^ 128 := hsingle.bounded
      rcases lt_trichotomy q 0 with hneg | hzero | hpos
      · -- A negative rate has a negative period.
        have hrecip : 2 ^ (-149 : ℤ) ≤ |1 / q| := by
          rw [abs_div, abs_one, le_div_iff₀ (abs_pos.mpr hneg.ne)]
          norm_num at hbound ⊢
          linarith
        rw [if_neg hneg.ne, fromSecsF32_ofRat_of_neg (1 / q) (one_div_neg.mpr hneg) hrecip]
        refine ⟨fun h => (by cases h), fun h => ?_⟩
        have hsmall : (0 : ℚ) < 1 / 2 ^ 64 := by norm_num
        linarith
      · -- A rate of zero has an infinite period.
        rw [hzero, if_pos rfl]
        refine ⟨fun h => (by cases h), fun h => ?_⟩
        norm_num at h
      · rw [if_neg hpos.ne']
        by_cases hlarge : 1 / 2 ^ 64 < q
        · -- The next rate above the bound is far enough for its period to be rounded below it.
          have hnext := F32.representable_succ q (-64) hsingle (by
            rw [zpow_neg]
            simpa using hlarge)
          refine ⟨fun _ => hlarge, fun _ => ?_⟩
          refine fromSecsF32_ofRat_of_small (1 / q) (one_div_pos.mpr hpos) ?_
          rw [one_div_mul_eq_div, div_le_iff₀ hpos]
          norm_num at hnext ⊢
          linarith
        · have hrecip : 2 ^ (64 : ℤ) ≤ 1 / q := by
            rw [le_div_iff₀ hpos]
            have := not_lt.mp hlarge
            norm_num at this ⊢
            linarith
          rw [fromSecsF32_ofRat_of_large (1 / q) hrecip]
          exact ⟨fun h => (by cases h), fun h => absurd h hlarge⟩
  | _ => simp [F32.recip, fromSecsF32, SafeRate]

section

/-- The period of the rate can be turned into a duration. -/
def HasPeriod (rate : F32) : Prop :=
  (fromSecsF32 rate.recip).isSome = true

/-- Every LED that blinks has a period. -/
def Calm (states : HashMap LedTarget LedState) : Prop :=
  ∀ target state rate, states.lookup target = some state → state.blinkRate = some rate →
    HasPeriod rate

theorem calm_empty : Calm ∅ := by
  intro target state rate hlookup
  simp at hlookup

theorem Calm.insert {states : HashMap LedTarget LedState} (h : Calm states) (target : LedTarget)
    (state : LedState) (hstate : ∀ rate, state.blinkRate = some rate → HasPeriod rate) :
    Calm (states.insert target state) := by
  intro other state' rate hlookup hrate
  by_cases hother : other = target
  · rw [hother, Finmap.lookup_insert, Option.some.injEq] at hlookup
    rw [← hlookup] at hrate
    exact hstate rate hrate
  · rw [Finmap.lookup_insert_of_ne _ hother] at hlookup
    exact h other state' rate hlookup hrate

variable (now : Instant)

theorem blinkState_isSome_iff (state : LedState) :
    (LedController.blinkState now state).isSome = true ↔
      ∀ rate, state.blinkRate = some rate → HasPeriod rate := by
  unfold LedController.blinkState HasPeriod
  cases state.blinkRate with
  | none => simp
  | some rate => simp

/-- Turning an LED over does not change its rate. -/
theorem blinkState_blinkRate (state state' : LedState) (due : Bool)
    (h : LedController.blinkState now state = some (state', due)) :
    state'.blinkRate = state.blinkRate := by
  unfold LedController.blinkState at h
  split at h
  · cases h
    rfl
  · rcases Option.map_eq_some_iff.mp h with ⟨period, -, heq⟩
    split_ifs at heq
    · cases heq
      rfl
    · cases heq
      rfl

/-- The first loop gets through exactly when every LED has a period, and leaves it so. -/
theorem collectUpdates_isSome_iff (entries : List (Sigma fun _ : LedTarget => LedState))
    (acc : HashMap LedTarget LedState × List (LedTarget × LedState)) :
    (LedController.collectUpdates now entries acc).isSome = true ↔
      ∀ e ∈ entries, ∀ rate, e.2.blinkRate = some rate → HasPeriod rate := by
  induction entries generalizing acc with
  | nil => simp [LedController.collectUpdates]
  | cons entry rest ih =>
      rcases entry with ⟨target, state⟩
      rw [List.forall_mem_cons, ← blinkState_isSome_iff now state]
      rw [LedController.collectUpdates]
      -- The first LED panics, or stays as it is, or is turned over.
      rcases LedController.blinkState now state with _ | ⟨state', due | due⟩
      · simp
      · simpa using ih acc
      · simpa using ih _

theorem calm_collectUpdates (entries : List (Sigma fun _ : LedTarget => LedState))
    (acc after : HashMap LedTarget LedState × List (LedTarget × LedState)) (h : Calm acc.1)
    (hafter : LedController.collectUpdates now entries acc = some after) : Calm after.1 := by
  induction entries generalizing acc with
  | nil =>
      rw [LedController.collectUpdates, Option.some.injEq] at hafter
      rw [← hafter]
      exact h
  | cons entry rest ih =>
      rcases entry with ⟨target, state⟩
      rw [LedController.collectUpdates] at hafter
      have hperiod := (blinkState_isSome_iff now state).mp
      rcases hblink : LedController.blinkState now state with _ | ⟨state', due | due⟩
      · simp [hblink] at hafter
      · rw [hblink] at hafter
        exact ih acc h hafter
      · rw [hblink] at hafter hperiod
        -- The entry that is put back blinks at the rate it had.
        refine ih _ (h.insert target state' fun rate hrate => ?_) hafter
        rw [blinkState_blinkRate now state state' true hblink] at hrate
        exact hperiod rfl rate hrate

end

section

variable {β ε : Type} (io : LedBackend β ε) (clk : Readings) (ctrl : LedController β)

theorem writeLedState_ledStates (target : LedTarget) (state : LedState) :
    (ctrl.writeLedState io clk target state).1.ledStates = ctrl.ledStates := by
  unfold LedController.writeLedState
  rcases io.write ctrl.backend target state with ⟨backend, e | ⟨⟩⟩
  · rfl
  · rfl

theorem writeUpdates_ledStates (now : Instant) (clk : Readings)
    (updates : List (LedTarget × LedState)) (ctrl : LedController β) :
    (ctrl.writeUpdates io now clk updates).1.ledStates = ctrl.ledStates := by
  induction updates generalizing clk ctrl with
  | nil => rfl
  | cons update rest ih =>
      rcases update with ⟨target, state⟩
      have hwrite := writeLedState_ledStates io clk ctrl target state
      rw [LedController.writeUpdates]
      split
      · rcases hresult : ctrl.writeLedState io clk target state with ⟨ctrl', e | ⟨⟩⟩
        · rw [hresult] at hwrite
          exact hwrite
        · rw [hresult] at hwrite
          exact (ih _ _).trans hwrite
      · exact ih clk ctrl

/-- An update returns exactly in a calm state. -/
theorem updateBlinkStates_isSome_iff (order : Iteration LedTarget LedState) (clk : Readings)
    (ctrl : LedController β) :
    (ctrl.updateBlinkStates io order clk).isSome = true ↔ Calm ctrl.ledStates := by
  unfold LedController.updateBlinkStates
  rw [Option.isSome_map, collectUpdates_isSome_iff]
  constructor
  · intro h target state rate hlookup
    exact h ⟨target, state⟩ ((order.mem_entries _ _ _).mpr hlookup) rate
  · intro h entry hentry rate
    exact h entry.1 entry.2 rate ((order.mem_entries _ _ _).mp hentry)

theorem calm_updateBlinkStates (order : Iteration LedTarget LedState) (clk : Readings)
    (ctrl : LedController β) (after : LedController β × Except ε Unit) (h : Calm ctrl.ledStates)
    (hafter : ctrl.updateBlinkStates io order clk = some after) : Calm after.1.ledStates := by
  unfold LedController.updateBlinkStates at hafter
  rcases Option.map_eq_some_iff.mp hafter with ⟨⟨states, updates⟩, hcollect, rfl⟩
  rw [writeUpdates_ledStates]
  exact calm_collectUpdates _ _ (ctrl.ledStates, []) _ h hcollect

/-- The rate an action sets has a period, if it sets one. -/
def SetsPeriod : Action → Prop
  | .ledBlink _ rateHz => HasPeriod rateHz
  | _ => True

theorem calm_changeLed (target : LedTarget) (modify : LedState → LedState) (fresh : LedState)
    (h : Calm ctrl.ledStates)
    (hmodify : ∀ state, (∀ rate, state.blinkRate = some rate → HasPeriod rate) →
      ∀ rate, (modify state).blinkRate = some rate → HasPeriod rate)
    (hfresh : ∀ rate, fresh.blinkRate = some rate → HasPeriod rate) :
    Calm (ctrl.changeLed io clk target modify fresh).1.ledStates := by
  unfold LedController.changeLed
  dsimp only
  rw [writeLedState_ledStates]
  refine h.insert target _ ?_
  cases hlookup : ctrl.ledStates.lookup target with
  | none => exact hfresh
  | some state => exact hmodify state fun rate => h target state rate hlookup

theorem calm_executeAction (action : Action) (now : Instant) (h : Calm ctrl.ledStates)
    (haction : SetsPeriod action) : Calm (ctrl.executeAction io clk action now).1.ledStates := by
  cases action with
  | ledOn target =>
      exact calm_changeLed io clk ctrl _ _ _ h (fun _ _ rate hrate => by cases hrate)
        (fun rate hrate => by cases hrate)
  | ledOff target =>
      exact calm_changeLed io clk ctrl _ _ _ h (fun _ _ rate hrate => by cases hrate)
        (fun rate hrate => by cases hrate)
  | ledBlink target rateHz =>
      refine calm_changeLed io clk ctrl _ _ _ h (fun _ _ rate hrate => ?_) (fun rate hrate => ?_)
      · rw [← Option.some.inj hrate]
        exact haction
      · rw [← Option.some.inj hrate]
        exact haction
  | ledBrightness target brightness =>
      exact calm_changeLed io clk ctrl _ _ _ h (fun _ hstate => hstate)
        (fun rate hrate => by cases hrate)

theorem calm_executeLoop (now : Instant) (clk : Readings) (actions : List Action)
    (ctrl : LedController β) (h : Calm ctrl.ledStates)
    (hactions : ∀ action ∈ actions, SetsPeriod action) :
    Calm (ctrl.executeLoop io now clk actions).1.ledStates := by
  induction actions generalizing clk ctrl with
  | nil => exact h
  | cons action rest ih =>
      rw [List.forall_mem_cons] at hactions
      have haction := calm_executeAction io clk ctrl action now h hactions.1
      rw [LedController.executeLoop]
      split
      · exact ih clk ctrl h hactions.2
      · rcases hresult : ctrl.executeAction io clk action now with ⟨ctrl', e | ⟨⟩⟩
        · rw [hresult] at haction
          exact haction
        · rw [hresult] at haction
          exact ih _ _ haction hactions.2

/-- Every rate that the call sets has a period. -/
def SetsPeriods : PanelCall → Prop
  | .executeActions actions => ∀ action ∈ actions, SetsPeriod action
  | .updateBlinkStates _ => True

/-- A call in a calm state that sets good rates returns, to a calm state. -/
theorem calm_panelStep (call : Readings × PanelCall) (ctrl : LedController β)
    (h : Calm ctrl.ledStates) (hcall : SetsPeriods call.2) :
    ∃ ctrl', panelStep io (some ctrl) call = some ctrl' ∧ Calm ctrl'.ledStates := by
  rcases call with ⟨clk, actions | order⟩
  · exact ⟨_, rfl, calm_executeLoop io (clk 0) (clk.skip 1) actions ctrl h hcall⟩
  · rcases Option.isSome_iff_exists.mp ((updateBlinkStates_isSome_iff io order clk ctrl).mpr h)
      with ⟨after, hafter⟩
    refine ⟨after.1, ?_, calm_updateBlinkStates io order clk ctrl after h hafter⟩
    simp only [panelStep, hafter, Option.map_some]

/-- A run of such calls goes on to its end. -/
theorem calm_run (calls : List (Readings × PanelCall)) (ctrl : LedController β)
    (h : Calm ctrl.ledStates) (hcalls : ∀ call ∈ calls, SetsPeriods call.2) :
    ∃ ctrl', run (panelStep io) (some ctrl) calls = some ctrl' ∧ Calm ctrl'.ledStates := by
  induction calls generalizing ctrl with
  | nil => exact ⟨ctrl, rfl, h⟩
  | cons call rest ih =>
      rw [List.forall_mem_cons] at hcalls
      rcases calm_panelStep io call ctrl h hcalls.1 with ⟨ctrl', hstep, hcalm⟩
      rw [run_cons, hstep]
      exact ih ctrl' hcalm hcalls.2

/-- On a controller that has written nothing, a blink action sets the rate even
    when its write fails. -/
theorem executeActions_blink (target : Text) (rateHz : F32) (h : ctrl.lastWrite = ∅) : ∃ state,
      (ctrl.executeActions io clk [.ledBlink target rateHz]).1.ledStates.lookup
        (actionToTarget (.ledBlink target rateHz)) = some state ∧
      state.blinkRate = some rateHz := by
  have hfree : ctrl.rateLimited (actionToTarget (.ledBlink target rateHz)) (clk 0) = false := by
    unfold LedController.rateLimited
    rw [h, Finmap.lookup_empty]
  -- The loop is one action, and the bookkeeping after it touches no state.
  have hloop : (ctrl.executeActions io clk [.ledBlink target rateHz]).1.ledStates
      = (ctrl.executeAction io (clk.skip 1) (.ledBlink target rateHz) (clk 0)).1.ledStates := by
    rw [LedController.executeActions, LedController.executeLoop, hfree]
    rcases ctrl.executeAction io (clk.skip 1) (.ledBlink target rateHz) (clk 0)
      with ⟨ctrl', e | ⟨⟩⟩
    · rfl
    · rfl
  rw [hloop]
  simp only [LedController.executeAction, LedController.changeLed, writeLedState_ledStates,
    actionToTarget, Finmap.lookup_insert]
  cases ctrl.ledStates.lookup (if target = indexerName then .indexer else .panel target) with
  | none => exact ⟨_, rfl, rfl⟩
  | some state => exact ⟨_, rfl, rfl⟩

/-- A rate without a period ends the run at the first update. -/
theorem run_blink_eq_none (clk clk' : Readings) (order : Iteration LedTarget LedState)
    (target : Text) (rateHz : F32) (h : ctrl.lastWrite = ∅) (hrate : ¬ HasPeriod rateHz) :
    run (panelStep io) (some ctrl)
        [(clk, .executeActions [.ledBlink target rateHz]), (clk', .updateBlinkStates order)]
      = none := by
  rcases executeActions_blink io clk ctrl target rateHz h with ⟨state, hlookup, hblink⟩
  have hpanics : ¬ Calm (ctrl.executeActions io clk [.ledBlink target rateHz]).1.ledStates :=
    fun hcalm => hrate (hcalm _ state rateHz hlookup hblink)
  rw [← updateBlinkStates_isSome_iff io order clk', Bool.not_eq_true, Option.isSome_eq_false_iff,
    Option.isNone_iff_eq_none] at hpanics
  simp only [run_cons, run_nil, panelStep, hpanics, Option.map_none]

end

/-- The rate of a blink action is single precision, and so it is where the text
    of a rule comes from. -/
theorem isSingle_parseArgument (what : String) (s : Text) (result : Except RulesError F32)
    (rate : F32) (h : parseArgument what s = some result) (hrate : result = .ok rate) :
    IsSingle rate := by
  rcases Option.map_eq_some_iff.mp h with ⟨parts, -, heq⟩
  rw [hrate] at heq
  split at heq
  · rename_i value hvalue
    rw [← Except.ok.inj heq]
    exact isSingle_parseF32 _ _ hvalue
  · cases heq

theorem parsePanelSuffix_rate (target suffix other : Text) (rate : F32)
    (h : parsePanelSuffix target suffix = some (.ok (.ledBlink other rate))) : IsSingle rate := by
  unfold parsePanelSuffix at h
  split_ifs at h
  · cases h
  · cases h
  · split at h
    · rename_i result hresult
      rcases Option.bind_eq_some_iff.mp hresult with ⟨parts, -, hargument⟩
      rw [Option.some.injEq] at h
      cases result with
      | error e => cases h
      | ok rate' =>
          cases h
          exact isSingle_parseArgument _ _ _ _ hargument rfl
    · -- A brightness is no blink action.
      rcases Option.map_eq_some_iff.mp h with ⟨result, -, heq⟩
      cases result with
      | error e => cases heq
      | ok value => cases heq

theorem parseIndexer_rate (s other : Text) (rate : F32)
    (h : parseIndexer s = some (.ok (.ledBlink other rate))) : IsSingle rate := by
  unfold parseIndexer at h
  split_ifs at h
  · cases h
  · cases h
  · rcases Option.map_eq_some_iff.mp h with ⟨result, hresult, heq⟩
    rcases Option.bind_eq_some_iff.mp hresult with ⟨parts, -, hargument⟩
    cases result with
    | error e => cases heq
    | ok rate' =>
        cases heq
        exact isSingle_parseArgument _ _ _ _ hargument rfl

/-- The rate of a parsed blink action is a single-precision number. -/
theorem parseAction_rate (s target : Text) (rate : F32)
    (h : parseAction s = .ok (.ledBlink target rate)) : IsSingle rate := by
  unfold parseAction at h
  dsimp only at h
  split at h
  · rename_i result hpanel
    rw [h] at hpanel
    unfold parsePanel at hpanel
    rcases Option.bind_eq_some_iff.mp hpanel with ⟨parts, -, hpanel⟩
    rcases Option.bind_eq_some_iff.mp hpanel with ⟨parts', -, hsuffix⟩
    exact parsePanelSuffix_rate _ _ _ _ hsuffix
  · split at h
    · rename_i result hindexer
      rw [h] at hindexer
      exact parseIndexer_rate _ _ _ hindexer
    · cases h

/-- The action sets no rate, or a safe one. -/
def SafeAction : Action → Prop
  | .ledBlink _ rateHz => SafeRate rateHz
  | _ => True

theorem setsPeriod_iff (s : Text) (action : Action) (h : parseAction s = .ok action) :
    SetsPeriod action ↔ SafeAction action := by
  cases action with
  | ledBlink target rate => exact fromSecsF32_recip_isSome rate (parseAction_rate s target rate h)
  | _ => exact Iff.rfl

/-- A call all of whose actions come from rules and are safe. -/
def SafeCall : PanelCall → Prop
  | .executeActions actions =>
      ∀ action ∈ actions, (∃ s, parseAction s = .ok action) ∧ SafeAction action
  | .updateBlinkStates _ => True

theorem setsPeriods_of_safeCall (call : PanelCall) (h : SafeCall call) : SetsPeriods call := by
  cases call with
  | executeActions actions =>
      intro action haction
      rcases h action haction with ⟨⟨s, hparse⟩, hsafe⟩
      exact (setsPeriod_iff s action hparse).mpr hsafe
  | updateBlinkStates order => trivial

/-- For an action that a rule can have: whatever safe calls came before it, and
    whatever the device does, every update after it returns, exactly when the
    action sets no rate, an infinite one or one above `2 ^ -64`. -/
theorem blink_returns_iff {β ε : Type} (io : LedBackend β ε) (device : β) (s : Text)
    (action : Action) (h : parseAction s = .ok action) :
    (∀ (interval : Duration) (before : List (Readings × PanelCall)) (clk : Readings)
        (updates : List (Readings × Iteration LedTarget LedState)),
        (∀ call ∈ before, SafeCall call.2) →
        run (panelStep io) (some ((LedController.withBackend device).setMinInterval interval))
            (before ++ (clk, .executeActions [action]) ::
              updates.map fun update => (update.1, .updateBlinkStates update.2))
          ≠ none) ↔
      SafeAction action := by
  constructor
  · intro hreturns
    by_contra hunsafe
    cases action with
    | ledBlink target rate =>
        -- On a new controller the first update meets the rate.
        refine hreturns 0 [] (fun _ => 0) [(fun _ => 0, default)] (by simp) ?_
        exact run_blink_eq_none io _ _ _ default target rate rfl
          fun hperiod => hunsafe ((setsPeriod_iff s _ h).mp hperiod)
    | _ => exact hunsafe trivial
  · intro hsafe interval before clk updates hbefore hnone
    rcases calm_run io (before ++ (clk, .executeActions [action]) ::
        updates.map fun update => (update.1, .updateBlinkStates update.2))
      ((LedController.withBackend device).setMinInterval interval) calm_empty (by
        intro call hcall
        rcases List.mem_append.mp hcall with hcall | hcall
        · exact setsPeriods_of_safeCall _ (hbefore call hcall)
        · rcases List.mem_cons.mp hcall with rfl | hcall
          · intro a ha
            rw [List.mem_singleton.mp ha]
            exact (setsPeriod_iff s action h).mpr hsafe
          · rcases List.mem_map.mp hcall with ⟨update, -, rfl⟩
            trivial) with ⟨ctrl, hrun, -⟩
    rw [hrun] at hnone
    cases hnone

/-- Two blinks a second are safe. -/
theorem blink_twice_returns :
    run (panelStep (noopLedBackend Unit)) (some ((LedController.withBackend ()).setMinInterval 0))
        [(fun _ => 0, .executeActions [.ledBlink "GEAR".toList (.fin 2)]),
          (fun _ => fromSecs 1, .updateBlinkStates default)]
      ≠ none :=
  (blink_returns_iff (noopLedBackend Unit) () "led.panel('GEAR').blink(rate_hz=2)".toList
    (.ledBlink "GEAR".toList (.fin 2)) (by decide +kernel)).mpr (by norm_num [SafeAction, SafeRate])
    0 [] (fun _ => 0) [(fun _ => fromSecs 1, default)] (by simp)

/-- A rate of zero is parsed, and the first update after it panics. -/
theorem blink_zero_panics : parseAction "led.panel('GEAR').blink(rate_hz=0)".toList
        = .ok (.ledBlink "GEAR".toList (.fin 0)) ∧
      run (panelStep (noopLedBackend Unit))
          (some (LedController.withBackend ()))
          [(fun _ => 0, .executeActions [.ledBlink "GEAR".toList (.fin 0)]),
            (fun _ => fromSecs 1, .updateBlinkStates default)]
        = none := by
  refine ⟨by decide +kernel, ?_⟩
  refine run_blink_eq_none _ _ _ _ default _ _ rfl fun hperiod => ?_
  simp [HasPeriod, F32.recip, fromSecsF32] at hperiod

end OpenFlight.Panels
