import OpenFlight.Core.Hid.GhostFilter
import OpenFlight.Lib.Debounce
import Mathlib.Data.Fintype.Card

/-!
# What the Ghost Input Filter Computes

The thirty-two buttons share one word of raw states and one loop, but a turn of
the loop changes what is kept for its own button alone. So each button is a
debouncer of its own, and its bit of the debounced state is the value of its run
that lasted most recently.

The second stage goes by the masks. A state contains a combination if all bits of
a mask of two or more are set in it, and the output of the filter is the latest
debounced state that contains none.

The clock need not advance from call to call.

## Main definitions

* `samplesOf`: The raw samples of one button.
* `ContainsImpossible`: A state with all bits of a mask of two or more.

## Theorems

* `ghost_filter`: Both stages, over all calls.
-/

namespace OpenFlight.Hid

theorem maskOf_eq_twoPow (i : Fin maxTrackedButtons) :
    ButtonDebouncer.maskOf i = BitVec.twoPow 32 i.val := rfl

theorem getLsbD_maskOf (i j : Fin maxTrackedButtons) :
    (ButtonDebouncer.maskOf i).getLsbD j.val = decide (i = j) := by
  have hi : i.val < 32 := i.isLt
  rw [maskOf_eq_twoPow, BitVec.getLsbD_twoPow, decide_eq_true hi, Bool.true_and]
  exact decide_eq_decide.mpr Fin.ext_iff.symm

/-- A button is tested with its mask. -/
theorem and_maskOf_ne_zero_iff (state : Buttons) (i : Fin maxTrackedButtons) :
    state &&& ButtonDebouncer.maskOf i ≠ 0 ↔ state.getLsbD i.val = true := by
  have hself := getLsbD_maskOf i i
  rw [decide_eq_true rfl] at hself
  constructor
  · intro hne
    by_contra hoff
    rw [maskOf_eq_twoPow, BitVec.and_twoPow, if_neg hoff] at hne
    exact hne rfl
  · intro hon hzero
    have hbit : (state &&& ButtonDebouncer.maskOf i).getLsbD i.val = true := by
      rw [BitVec.getLsbD_and, hon, hself, Bool.true_and]
    rw [hzero] at hbit
    exact absurd hbit (by simp)

namespace ButtonDebouncer

/-- What is kept for one button. -/
def bitView (self : ButtonDebouncer) (i : Fin maxTrackedButtons) : Debouncer where
  last := self.lastState.getLsbD i.val
  since := self.lastChange i
  out := self.outputState.getLsbD i.val

section

variable (now : Instant) (raw changed : Buttons) (self : ButtonDebouncer)
  (i j : Fin maxTrackedButtons)

/-- Setting or clearing the bit of a button. -/
theorem getLsbD_accepted : (if raw &&& maskOf j ≠ 0 then self.outputState ||| maskOf j
      else self.outputState &&& ~~~maskOf j).getLsbD i.val =
      if j = i then raw.getLsbD i.val else self.outputState.getLsbD i.val := by
  have hi : i.val < 32 := i.isLt
  by_cases hon : raw.getLsbD j.val = true
  · rw [if_pos ((and_maskOf_ne_zero_iff raw j).mpr hon), BitVec.getLsbD_or, getLsbD_maskOf]
    by_cases hsame : j = i
    · subst hsame
      rw [if_pos rfl, decide_eq_true rfl, Bool.or_true, hon]
    · rw [if_neg hsame, decide_eq_false hsame, Bool.or_false]
  · rw [if_neg fun h => hon ((and_maskOf_ne_zero_iff raw j).mp h), BitVec.getLsbD_and,
      BitVec.getLsbD_not, getLsbD_maskOf, decide_eq_true hi, Bool.true_and]
    by_cases hsame : j = i
    · subst hsame
      rw [if_pos rfl, decide_eq_true rfl, Bool.not_true, Bool.and_false]
      exact (Bool.eq_false_of_not_eq_true hon).symm
    · rw [if_neg hsame, decide_eq_false hsame, Bool.not_false, Bool.and_true]

@[simp]
theorem noteChange_threshold : (noteChange now changed self j).threshold = self.threshold := by
  unfold noteChange
  split_ifs <;> rfl

@[simp]
theorem noteChange_lastState : (noteChange now changed self j).lastState = self.lastState := by
  unfold noteChange
  split_ifs <;> rfl

@[simp]
theorem noteChange_outputState :
    (noteChange now changed self j).outputState = self.outputState := by
  unfold noteChange
  split_ifs <;> rfl

theorem noteChange_lastChange_self : (noteChange now changed self i).lastChange i =
      if changed.getLsbD i.val then some now else self.lastChange i := by
  unfold noteChange
  have hbit := and_maskOf_ne_zero_iff changed i
  by_cases hon : changed &&& maskOf i ≠ 0
  · rw [if_pos hon, if_pos (hbit.mp hon)]
    exact Function.update_self i (some now) self.lastChange
  · rw [if_neg hon, if_neg fun hset => hon (hbit.mpr hset)]

theorem noteChange_lastChange_of_ne (hne : j ≠ i) :
    (noteChange now changed self j).lastChange i = self.lastChange i := by
  unfold noteChange
  split_ifs with hon
  · exact Function.update_of_ne (Ne.symm hne) (some now) self.lastChange
  · rfl

@[simp]
theorem acceptSteady_threshold : (acceptSteady now raw self j).threshold = self.threshold := by
  unfold acceptSteady
  split
  · rfl
  · split_ifs <;> rfl

@[simp]
theorem acceptSteady_lastState : (acceptSteady now raw self j).lastState = self.lastState := by
  unfold acceptSteady
  split
  · rfl
  · split_ifs <;> rfl

@[simp]
theorem acceptSteady_lastChange : (acceptSteady now raw self j).lastChange = self.lastChange := by
  unfold acceptSteady
  split
  · rfl
  · split_ifs <;> rfl

/-- A turn accepts the sample of its own button if the last change is long enough ago. -/
theorem acceptSteady_outputState_self : (acceptSteady now raw self i).outputState.getLsbD i.val =
      if (self.lastChange i).any fun change => self.threshold ≤ durationSince now change then
        raw.getLsbD i.val
      else self.outputState.getLsbD i.val := by
  have hturn := getLsbD_accepted raw self i i
  rw [if_pos rfl] at hturn
  unfold acceptSteady
  cases self.lastChange i with
  | none => rfl
  | some change =>
      rw [Option.any_some]
      by_cases hlong : self.threshold ≤ durationSince now change
      · rw [if_pos (decide_eq_true hlong)]
        dsimp only
        rw [if_pos hlong]
        exact hturn
      · rw [if_neg fun h => hlong (of_decide_eq_true h)]
        dsimp only
        rw [if_neg hlong]

theorem acceptSteady_outputState_of_ne (hne : j ≠ i) :
    (acceptSteady now raw self j).outputState.getLsbD i.val =
      self.outputState.getLsbD i.val := by
  have hturn := getLsbD_accepted raw self i j
  rw [if_neg hne] at hturn
  unfold acceptSteady
  cases self.lastChange j with
  | none => rfl
  | some change =>
      dsimp only
      by_cases hlong : self.threshold ≤ durationSince now change
      · rw [if_pos hlong]
        exact hturn
      · rw [if_neg hlong]

/-- The threshold and what is kept for a button. -/
def seen (self : ButtonDebouncer) : Duration × Debouncer :=
  (self.threshold, self.bitView i)

/-- What a turn does to the button it is for. -/
def seenTurn (seen : Duration × Debouncer) : Duration × Debouncer :=
  let since := if changed.getLsbD i.val then some now else seen.2.since
  (seen.1,
    { last := seen.2.last
      since := since
      out :=
        if since.any fun change => seen.1 ≤ durationSince now change then raw.getLsbD i.val
        else seen.2.out })

theorem seen_filterButton_self :
    seen i (filterButton now raw changed self i) = seenTurn now raw changed i (seen i self) := by
  unfold seen seenTurn bitView filterButton
  rw [acceptSteady_outputState_self, acceptSteady_threshold, acceptSteady_lastState,
    acceptSteady_lastChange, noteChange_lastChange_self, noteChange_threshold,
    noteChange_lastState, noteChange_outputState]

theorem seen_filterButton_of_ne (hne : j ≠ i) :
    seen i (filterButton now raw changed self j) = seen i self := by
  simp only [seen, bitView, filterButton, acceptSteady_threshold, acceptSteady_lastState,
    acceptSteady_lastChange, acceptSteady_outputState_of_ne _ _ _ _ _ hne, noteChange_threshold,
    noteChange_lastState, noteChange_outputState, noteChange_lastChange_of_ne _ _ _ _ _ hne]

/-- The loop as a run of turns, one for each button. -/
theorem seen_loop :
    seen i ((List.finRange maxTrackedButtons).foldl (filterButton now raw changed) self) =
      seenTurn now raw changed i (seen i self) :=
  run_seen_once (filterButton now raw changed) (seen i) (seenTurn now raw changed i) i
    (fun s => seen_filterButton_self now raw changed s i)
    (fun s j hne => seen_filterButton_of_ne now raw changed s i j hne)
    (List.finRange maxTrackedButtons) (List.nodup_finRange _) (List.mem_finRange i) self

end

section

variable (now : Instant) (raw : Buttons) (self : ButtonDebouncer)

include now raw self

theorem filter_threshold : (self.filter now raw).1.threshold = self.threshold :=
  congrArg Prod.fst (seen_loop now raw (raw ^^^ self.lastState) self ⟨0, by decide⟩)

/-- A button has changed if its bit differs from the one that is kept. -/
theorem sinceAfter_bitView (i : Fin maxTrackedButtons) :
    (self.bitView i).sinceAfter (now, raw.getLsbD i.val) =
      if (raw ^^^ self.lastState).getLsbD i.val then some now else self.lastChange i := by
  unfold Debouncer.sinceAfter bitView
  rw [BitVec.getLsbD_xor]
  by_cases hsame : raw.getLsbD i.val = self.lastState.getLsbD i.val
  · rw [if_neg (not_not_intro hsame), hsame, Bool.xor_self, if_neg Bool.false_ne_true]
  · rw [if_pos hsame, if_pos (bne_iff_ne.mpr hsame)]

/-- A call is a step of the debouncer of each button. -/
theorem bitView_filter (i : Fin maxTrackedButtons) : (self.filter now raw).1.bitView i =
      (self.bitView i).step self.threshold (now, raw.getLsbD i.val) := by
  have hloop := congrArg Prod.snd (seen_loop now raw (raw ^^^ self.lastState) self i)
  have hview : (self.filter now raw).1.bitView i =
      { (seen i ((List.finRange maxTrackedButtons).foldl
          (filterButton now raw (raw ^^^ self.lastState)) self)).2 with
        last := raw.getLsbD i.val } := rfl
  rw [hview, hloop, Debouncer.step, sinceAfter_bitView]
  rfl

end

end ButtonDebouncer

/-- All bits of one of the masks are set, and it has two or more. -/
def ContainsImpossible (masks : List Buttons) (state : Buttons) : Prop :=
  ∃ mask ∈ masks, (∃ i j : Fin maxTrackedButtons, i ≠ j ∧ mask.getLsbD i.val = true ∧
    mask.getLsbD j.val = true) ∧
    ∀ i : Fin maxTrackedButtons, mask.getLsbD i.val = true → state.getLsbD i.val = true

instance (masks : List Buttons) (state : Buttons) : Decidable (ContainsImpossible masks state) :=
  inferInstanceAs (Decidable (∃ mask ∈ masks, _))

theorem not_containsImpossible_zero (masks : List Buttons) : ¬ ContainsImpossible masks 0 := by
  rintro ⟨mask, -, ⟨i, -, -, hi, -⟩, hall⟩
  exact absurd (hall i hi) (by simp)

/-- The latest of some states without a combination, or the state with no button. -/
theorem not_containsImpossible_latest (masks states : List Buttons) :
    ¬ ContainsImpossible masks ((states.filter fun state =>
      ¬ ContainsImpossible masks state).getLastD 0) := by
  have hmem := List.getLastD_mem_cons (l := states.filter fun state =>
    ¬ ContainsImpossible masks state) (a := 0)
  rcases List.mem_cons.mp hmem with hnone | hlatest
  · rw [hnone]
    exact not_containsImpossible_zero masks
  · exact of_decide_eq_true (List.mem_filter.mp hlatest).2

theorem and_eq_self_iff (state mask : Buttons) : state &&& mask = mask ↔
      ∀ i : Fin maxTrackedButtons, mask.getLsbD i.val = true → state.getLsbD i.val = true := by
  constructor
  · intro heq i hi
    rw [← heq, BitVec.getLsbD_and, Bool.and_eq_true] at hi
    exact hi.1
  · intro hall
    ext i hi
    rw [← BitVec.getLsbD_eq_getElem, ← BitVec.getLsbD_eq_getElem, BitVec.getLsbD_and]
    cases hmask : mask.getLsbD i with
    | false => rw [Bool.and_false]
    | true => rw [hall ⟨i, hi⟩ hmask, Bool.true_and]

namespace ImpossibleStateDetector

theorem one_lt_countOnes_iff (mask : Buttons) :
    1 < countOnes mask ↔ ∃ i j : Fin maxTrackedButtons, i ≠ j ∧ mask.getLsbD i.val = true ∧
      mask.getLsbD j.val = true := by
  have hnodup := (List.nodup_finRange 32).filter fun i => mask.getLsbD i.val
  rw [countOnes, List.countP_eq_length_filter, ← List.toFinset_card_of_nodup hnodup,
    Finset.one_lt_card_iff]
  simp only [List.mem_toFinset, List.mem_filter, List.mem_finRange, true_and]
  exact exists_congr fun i => exists_congr fun j => and_rotate.symm

/-- The test of the second stage. -/
theorem isImpossible_iff (self : ImpossibleStateDetector) (state : Buttons) :
    self.isImpossible state = true ↔ ContainsImpossible self.impossibleMasks state := by
  unfold isImpossible ContainsImpossible
  rw [List.any_eq_true]
  refine exists_congr fun mask => and_congr_right fun _ => ?_
  rw [Bool.and_eq_true, beq_iff_eq, decide_eq_true_eq, and_eq_self_iff, one_lt_countOnes_iff,
    and_comm]

end ImpossibleStateDetector

section

variable (config : GhostFilterConfig) (calls : List (Instant × Buttons))

/-- A call of the filter, and the debounced state in it. -/
def debouncedCall (self : GhostInputFilter) (call : Instant × Buttons) :
    GhostInputFilter × Buttons :=
  ((self.filter call.1 call.2).1, (self.debouncer.filter call.1 call.2).2)

/-- The filter after some calls. -/
def afterCalls : GhostInputFilter :=
  run (fun self call => (self.filter call.1 call.2).1) (.withConfig config) calls

/-- The debounced state of each call. -/
def debouncedStates : List Buttons :=
  responses debouncedCall (.withConfig config) calls

/-- The raw samples of one button. -/
def samplesOf (i : Fin maxTrackedButtons) : List Sample :=
  calls.map fun call => (call.1, call.2.getLsbD i.val)

/-- What the filter knows of the calls so far. -/
structure Follows (ghost : GhostInputFilter) : Prop where
  threshold : ghost.debouncer.threshold = config.debounceThreshold
  masks : ghost.impossibleDetector.impossibleMasks = config.impossibleMasks
  button : ∀ i, ghost.debouncer.bitView i =
    run (Debouncer.step config.debounceThreshold) .initial (samplesOf calls i)
  latest : ghost.impossibleDetector.lastValidState =
    ((debouncedStates config calls).filter fun state =>
      ¬ ContainsImpossible config.impossibleMasks state).getLastD 0

theorem follows_nil : Follows config [] (.withConfig config) where
  threshold := rfl
  masks := rfl
  button := fun i => by
    unfold samplesOf
    simp [ButtonDebouncer.bitView, GhostInputFilter.withConfig, ButtonDebouncer.new,
      Debouncer.initial]
  latest := rfl

theorem debouncedStates_snoc (call : Instant × Buttons) :
    debouncedStates config (calls ++ [call]) = debouncedStates config calls ++
      [((afterCalls config calls).debouncer.filter call.1 call.2).2] :=
  responses_append debouncedCall (.withConfig config) calls [call]

theorem samplesOf_snoc (i : Fin maxTrackedButtons) (call : Instant × Buttons) :
    samplesOf (calls ++ [call]) i = samplesOf calls i ++ [(call.1, call.2.getLsbD i.val)] :=
  List.map_append

theorem afterCalls_snoc (call : Instant × Buttons) : afterCalls config (calls ++ [call]) =
      ((afterCalls config calls).filter call.1 call.2).1 :=
  run_append _ _ calls [call]

variable {config calls}

/-- The output of a call is the state that the second stage keeps. -/
theorem filter_snd (self : GhostInputFilter) (call : Instant × Buttons) :
    (self.filter call.1 call.2).2 =
      (self.filter call.1 call.2).1.impossibleDetector.lastValidState := by
  unfold GhostInputFilter.filter ImpossibleStateDetector.filter
  dsimp only
  split_ifs <;> rfl

/-- The second stage keeps the latest state without a combination. -/
theorem latest_snoc (states : List Buttons) (detector : ImpossibleStateDetector)
    (hlatest : detector.lastValidState = (states.filter fun state =>
      ¬ ContainsImpossible detector.impossibleMasks state).getLastD 0) (state : Buttons) :
    (detector.filter state).1.lastValidState = ((states ++ [state]).filter fun state =>
      ¬ ContainsImpossible detector.impossibleMasks state).getLastD 0 := by
  have htest := detector.isImpossible_iff state
  unfold ImpossibleStateDetector.filter
  rw [List.filter_append]
  by_cases himpossible : detector.isImpossible state = true
  · have hcontains := htest.mp himpossible
    rw [if_pos himpossible, List.filter_cons_of_neg (by simpa using hcontains), List.filter_nil,
      List.append_nil]
    exact hlatest
  · have hcontains := mt htest.mpr himpossible
    rw [if_neg himpossible, List.filter_cons_of_pos (by simpa using hcontains), List.filter_nil,
      List.getLastD_concat]

theorem detector_filter_masks (detector : ImpossibleStateDetector) (state : Buttons) :
    (detector.filter state).1.impossibleMasks = detector.impossibleMasks := by
  unfold ImpossibleStateDetector.filter
  split_ifs <;> rfl

theorem follows_afterCalls : Follows config calls (afterCalls config calls) := by
  induction calls using List.reverseRecOn with
  | nil => exact follows_nil config
  | append_singleton calls call ih =>
      rw [afterCalls_snoc]
      refine ⟨?_, ?_, fun i => ?_, ?_⟩
      · exact ((afterCalls config calls).debouncer.filter_threshold call.1 call.2).trans
          ih.threshold
      · exact (detector_filter_masks _ _).trans ih.masks
      · rw [samplesOf_snoc, run_append, ← ih.button i, ← ih.threshold]
        exact ButtonDebouncer.bitView_filter call.1 call.2 _ i
      · have hlatest := ih.latest
        rw [← ih.masks] at hlatest ⊢
        rw [debouncedStates_snoc]
        exact latest_snoc (debouncedStates config calls) _ hlatest _

/-- Each debounced bit is that of the run of the button that lasted most recently. The output
    contains no combination, and it is the latest debounced state that contains none. -/
theorem ghost_filter (config : GhostFilterConfig) (calls : List (Instant × Buttons))
    (call : Instant × Buttons) :
    (∀ i : Fin maxTrackedButtons,
      Debounced config.debounceThreshold (samplesOf (calls ++ [call]) i)
        (((afterCalls config calls).debouncer.filter call.1 call.2).2.getLsbD i.val)) ∧
    ¬ ContainsImpossible config.impossibleMasks
      ((afterCalls config calls).filter call.1 call.2).2 ∧
    ((afterCalls config calls).filter call.1 call.2).2 =
      ((debouncedStates config (calls ++ [call])).filter fun state =>
        ¬ ContainsImpossible config.impossibleMasks state).getLastD 0 := by
  have hfollows : Follows config (calls ++ [call]) (afterCalls config (calls ++ [call])) :=
    follows_afterCalls
  rw [afterCalls_snoc] at hfollows
  have houtput := (filter_snd (afterCalls config calls) call).trans hfollows.latest
  refine ⟨fun i => ?_, ?_, houtput⟩
  · have hbit := congrArg Debouncer.out (hfollows.button i)
    have hdebounced := debounced_run config.debounceThreshold (samplesOf (calls ++ [call]) i)
    rw [← hbit] at hdebounced
    exact hdebounced
  · rw [houtput]
    exact not_containsImpossible_latest config.impossibleMasks _

end

end OpenFlight.Hid
