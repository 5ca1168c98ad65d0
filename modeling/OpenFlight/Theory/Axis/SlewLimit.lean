import Mathlib.Algebra.Order.Group.MinMax
import Mathlib.Tactic.Linarith
import OpenFlight.Core.Axis.Nodes
import OpenFlight.Lib.Run

/-!
# The Slew Limits

Which outputs of the slew limiter keep within its two rates.

The limiter takes the attack rate where the value asked for lies on the same
side of zero as the way to it, and the decay rate otherwise. That is the rate
of the movement as long as the output does not have to cross zero: with a
value asked for on the other side, the way to zero is taken at the attack
rate too. This shows when the output stays on its side of zero and the attack
rate is above the decay rate.

The constructors make no rates below zero, but the fields are open. A negative
rate moves the output away from the value asked for, and `MovesWithin` also says
which of these moves are within the limits.

A state whose last time is zero counts as new, and the frame that meets it is
let through as it is. So a frame after one at time zero is only within the
limits when the two values already are.

## Main definitions

* `FramesLimited`: What the rates of a node ask of two frames.
* `MovesWithin`, `WithinLimits`: The condition on a state and a frame.

## Theorems

* `slew_limits_iff`: The same, along every run.
* `slew_hurries_to_zero`: A run that does not.
-/

namespace OpenFlight.Axis

/-- A value is followed by one farther from zero within the first limit, and by
    one that is nearer, on the same side, within the second. -/
def Limited (attack decay a b : ℚ) : Prop :=
  (|a| < |b| → |b - a| ≤ attack) ∧ (|b| < |a| → 0 < a * b → |b - a| ≤ decay)

instance (attack decay a b : ℚ) : Decidable (Limited attack decay a b) :=
  inferInstanceAs (Decidable (_ ∧ _))

/-- The rate that `init_state` compiles for moving away from zero. -/
def SlewNode.attack (node : SlewNode) : ℚ :=
  node.attackRate.getD node.rateLimit

/-- The rates of the node as limits for the time from one frame to the next. -/
def FramesLimited (node : SlewNode) (first second : AxisFrame) : Prop :=
  let dtS := seconds (second.tsMonoNs - first.tsMonoNs)
  Limited (node.attack * dtS) (node.rateLimit * dtS) first.out second.out

/-- The value asked for lies across zero from the last output. -/
def Across (a x : ℚ) : Prop :=
  (a < 0 ∧ 0 ≤ x) ∨ (0 < a ∧ x < 0)

/-- When a move from the last output `a` toward `x` is within the limits. -/
structure MovesWithin (attack decay a x : ℚ) : Prop where
  /-- On the way to zero the attack limit is within the decay limit. -/
  toward : Across a x → 0 < attack → attack < |a| → attack ≤ decay
  /-- A step back at a negative attack rate goes toward zero, within the decay
      limit, or across it to where the output is no farther from zero. -/
  back : signum (x - a) = signum x → attack < 0 →
    0 < signum x * a ∧ -attack ≤ 2 * |a| ∧ (-attack < |a| → -attack ≤ decay)
  /-- A step back at a negative decay rate goes away from zero. -/
  away : signum (x - a) ≠ signum x → decay < 0 → -decay ≤ attack

/-- After a frame at time zero, the two values asked for are within the limits
    as they are; after any other, the move is. -/
def WithinLimits (node : SlewNode) (state : SlewCompiledState) (frame : AxisFrame) : Prop :=
  let dtS := seconds (frame.tsMonoNs - state.lastTimeNs)
  if state.lastTimeNs = 0 then
    Limited (node.attack * dtS) (node.rateLimit * dtS) state.lastOutput frame.out
  else MovesWithin (node.attack * dtS) (node.rateLimit * dtS) state.lastOutput frame.out

/-- One frame, with the frame that comes out. -/
def slewFrame (node : SlewNode) (state : SlewCompiledState) (frame : AxisFrame) :
    SlewCompiledState × AxisFrame :=
  (node.stepSoa frame state).swap

instance (node : SlewNode) (first second : AxisFrame) :
    Decidable (FramesLimited node first second) :=
  inferInstanceAs (Decidable (Limited _ _ _ _))

/-- The state has the rates of the node. -/
structure SlewCompiledState.Of (node : SlewNode) (state : SlewCompiledState) : Prop where
  rateLimit_eq : state.rateLimit = node.rateLimit
  attackRate_eq : state.attackRate = node.attack

section

variable (attack decay a b x : ℚ)

theorem limited_neg : Limited attack decay (-a) (-b) ↔ Limited attack decay a b := by
  unfold Limited
  rw [abs_neg, abs_neg, neg_mul_neg, neg_sub_neg, abs_sub_comm]

/-- A move away from zero within the attack limit. -/
theorem limited_away (ha : 0 ≤ a) (hab : a ≤ b) (hb : b - a ≤ attack) :
    Limited attack decay a b := by
  have hle : |a| ≤ |b| := abs_le_abs_of_nonneg ha hab
  refine ⟨fun _ => ?_, fun hlt => absurd hlt (not_lt_of_ge hle)⟩
  rw [abs_of_nonneg (sub_nonneg.mpr hab)]
  exact hb

/-- Toward zero and beyond it, a move at the attack rate breaks the decay limit
    exactly when it ends before zero. -/
theorem limited_across_iff (ha : a < 0) (hx : 0 ≤ x) (hattack : 0 ≤ attack) :
    Limited attack decay a (min x (a + attack)) ↔
      (0 < attack → attack < -a → attack ≤ decay) := by
  have hle : a ≤ min x (a + attack) := le_min (by linarith) (by linarith)
  unfold Limited
  rw [abs_of_nonneg (sub_nonneg.mpr hle), abs_of_neg ha]
  rcases lt_or_ge attack (-a) with hshort | hfar
  · -- The move ends before zero, the whole attack limit away.
    rw [min_eq_right (by linarith), abs_of_neg (by linarith), add_sub_cancel_left]
    constructor
    · intro h hpos _
      exact h.2 (by linarith) (mul_pos_of_neg_of_neg ha (by linarith))
    · intro h
      refine ⟨fun _ => le_rfl, fun hnear _ => ?_⟩
      have hpos : 0 < attack := by linarith
      exact h hpos hshort
  · have hzero : 0 ≤ min x (a + attack) := le_min hx (by linarith)
    refine iff_of_true ⟨fun _ => ?_, fun _ hpos => ?_⟩ fun _ h => absurd h (not_lt_of_ge hfar)
    · linarith [min_le_right x (a + attack)]
    · exact absurd hpos (not_lt_of_ge (mul_nonpos_of_nonpos_of_nonneg ha.le hzero))

/-- A step down at a negative attack rate. -/
theorem limited_back_iff (hattack : attack < 0) : Limited attack decay a (a + attack) ↔
      0 < a ∧ -attack ≤ 2 * a ∧ (-attack < a → -attack ≤ decay) := by
  unfold Limited
  rw [add_sub_cancel_left, abs_of_neg hattack]
  rcases lt_or_ge 0 a with ha | ha
  · -- It ends no farther from zero unless it is more than twice as long.
    have hfarther : |a| < |a + attack| ↔ 2 * a < -attack := by
      rw [abs_of_pos ha, lt_abs]
      constructor
      · rintro (h | h) <;> linarith
      · exact fun h => Or.inr (by linarith)
    rw [hfarther]
    constructor
    · rintro ⟨hmore, hless⟩
      refine ⟨ha, not_lt.mp fun h => ?_, fun hshort => hless ?_ ?_⟩
      · linarith [hmore h]
      · rw [abs_of_pos ha, abs_of_pos (by linarith)]
        linarith
      · exact mul_pos ha (by linarith)
    · rintro ⟨-, hmore, hless⟩
      refine ⟨fun h => absurd hmore (not_le_of_gt h), fun _ hside => hless ?_⟩
      linarith [(mul_pos_iff_of_pos_left ha).mp hside]
  · have hfarther : |a| < |a + attack| := by
      rw [abs_of_nonpos ha, abs_of_neg (by linarith)]
      linarith
    refine iff_of_false (fun h => ?_) fun h => absurd h.1 (not_lt_of_ge ha)
    linarith [h.1 hfarther]

/-- A move up at the attack rate, to a value that is not negative. -/
theorem limited_attack_iff (hup : a ≤ x) (hx : 0 ≤ x) :
    Limited attack decay a (min x (a + attack)) ↔
      (a < 0 → 0 < attack → attack < -a → attack ≤ decay) ∧
        (attack < 0 → 0 < a ∧ -attack ≤ 2 * a ∧ (-attack < a → -attack ≤ decay)) := by
  rcases lt_or_ge attack 0 with hneg | hpos
  · rw [min_eq_right (by linarith), limited_back_iff attack decay a hneg]
    exact ⟨fun h => ⟨fun _ hpos => absurd hpos (not_lt_of_gt hneg), fun _ => h⟩,
      fun h => h.2 hneg⟩
  · rw [and_iff_left fun hneg => absurd hneg (not_lt_of_ge hpos)]
    rcases lt_or_ge a 0 with ha | ha
    · rw [limited_across_iff attack decay a x ha hx hpos]
      exact ⟨fun h _ => h, fun h => h ha⟩
    · have hmoved : min x (a + attack) - a ≤ attack := by
        linarith [min_le_right x (a + attack)]
      exact iff_of_true (limited_away attack decay a _ ha (le_min hup (by linarith)) hmoved)
        fun h => absurd h (not_lt_of_ge ha)

/-- A move up at the decay rate, to a value that is not positive. -/
theorem limited_decay_iff (hup : a ≤ x) (hx : x ≤ 0) :
    Limited attack decay a (min x (a + decay)) ↔ (decay < 0 → -decay ≤ attack) := by
  have hle : min x (a + decay) ≤ 0 := (min_le_left x _).trans hx
  unfold Limited
  rw [abs_of_nonpos (hup.trans hx), abs_of_nonpos hle]
  rcases lt_or_ge decay 0 with hneg | hpos
  · -- The way back from zero, where the attack limit counts.
    rw [min_eq_right (by linarith), add_sub_cancel_left, abs_of_neg hneg]
    constructor
    · exact fun h _ => h.1 (by linarith)
    · exact fun h => ⟨fun _ => h hneg, fun hnear => by linarith⟩
  · have hmoved : a ≤ min x (a + decay) := le_min hup (by linarith)
    rw [abs_of_nonneg (sub_nonneg.mpr hmoved)]
    refine iff_of_true ⟨fun hfar => by linarith, fun _ _ => ?_⟩
      fun hneg => absurd hneg (not_lt_of_ge hpos)
    linarith [min_le_right x (a + decay)]

/-- The end of a move of at most `most` from `a` toward `x`. -/
def movedTo (most a x : ℚ) : ℚ :=
  if |x - a| > most then a + signum (x - a) * most else x

theorem movedTo_up (most : ℚ) (hx : a ≤ x) : movedTo most a x = min x (a + most) := by
  unfold movedTo signum
  rw [abs_of_nonneg (sub_nonneg.mpr hx), if_neg (not_lt_of_ge (sub_nonneg.mpr hx)), one_mul]
  split_ifs with hfar
  · rw [min_eq_right (by linarith)]
  · rw [min_eq_left (by linarith)]

/-- The mirror image of a move up. -/
theorem movedTo_down (most : ℚ) (hx : x < a) : movedTo most a x = -min (-x) (-a + most) := by
  unfold movedTo signum
  rw [abs_of_neg (sub_neg.mpr hx), if_pos (sub_neg.mpr hx)]
  split_ifs with hfar
  · rw [min_eq_right (by linarith), neg_add, neg_neg, neg_one_mul]
  · rw [min_eq_left (by linarith), neg_neg]

theorem limited_up_iff (hup : a ≤ x) : Limited attack decay a
        (movedTo (if signum (x - a) = signum x then attack else decay) a x) ↔
      MovesWithin attack decay a x := by
  have hway : signum (x - a) = 1 := if_neg (not_lt_of_ge (sub_nonneg.mpr hup))
  rw [movedTo_up a x _ hup]
  rcases lt_or_ge x 0 with hx | hx
  · -- Both are below zero.
    have hne : signum (x - a) ≠ signum x := by
      rw [hway, signum, if_pos hx]
      norm_num
    rw [if_neg hne, limited_decay_iff attack decay a x hup hx.le]
    refine ⟨fun h => ⟨fun hacross => ?_, fun heq => absurd heq hne, fun _ => h⟩,
      fun h => h.away hne⟩
    rcases hacross with ⟨-, hpos⟩ | ⟨hpos, -⟩
    · exact absurd hx (not_lt_of_ge hpos)
    · exact absurd hpos (not_lt_of_ge (hup.trans hx.le))
  · have hsign : signum x = 1 := if_neg (not_lt_of_ge hx)
    rw [if_pos (hway.trans hsign.symm), limited_attack_iff attack decay a x hup hx]
    constructor
    · rintro ⟨htoward, hback⟩
      refine ⟨fun hacross hpos hshort => ?_, fun _ hneg => ?_, fun hne => ?_⟩
      · rcases hacross with ⟨ha, -⟩ | ⟨-, hlt⟩
        · exact htoward ha hpos (abs_of_neg ha ▸ hshort)
        · exact absurd hlt (not_lt_of_ge hx)
      · rcases hback hneg with ⟨ha, hrest⟩
        rw [hsign, one_mul, abs_of_pos ha]
        exact ⟨ha, hrest⟩
      · exact absurd (hway.trans hsign.symm) hne
    · intro h
      refine ⟨fun ha hpos hshort => ?_, fun hneg => ?_⟩
      · exact h.toward (Or.inl ⟨ha, hx⟩) hpos (by rwa [abs_of_neg ha])
      · have hback := h.back (hway.trans hsign.symm) hneg
        rw [hsign, one_mul] at hback
        rwa [abs_of_pos hback.1] at hback

theorem limited_down_iff (hdown : x < a) : Limited attack decay a
        (movedTo (if signum (x - a) = signum x then attack else decay) a x) ↔
      MovesWithin attack decay a x := by
  have hway : signum (x - a) = -1 := if_pos (sub_neg.mpr hdown)
  have hmirror : -a ≤ -x := neg_le_neg hdown.le
  -- A move down is a move up with all signs changed.
  rw [movedTo_down a x _ hdown, ← limited_neg, neg_neg]
  rcases lt_or_ge x 0 with hx | hx
  · have hsign : signum x = -1 := if_pos hx
    rw [if_pos (hway.trans hsign.symm),
      limited_attack_iff attack decay (-a) (-x) hmirror (neg_nonneg.mpr hx.le), neg_lt_zero,
      neg_neg]
    constructor
    · rintro ⟨htoward, hback⟩
      refine ⟨fun hacross hpos hshort => ?_, fun _ hneg => ?_, fun hne => ?_⟩
      · rcases hacross with ⟨-, hle⟩ | ⟨ha, -⟩
        · exact absurd hx (not_lt_of_ge hle)
        · exact htoward ha hpos (abs_of_pos ha ▸ hshort)
      · rcases hback hneg with ⟨ha, hrest⟩
        rw [hsign, neg_one_mul, abs_of_neg (neg_pos.mp ha)]
        exact ⟨ha, hrest⟩
      · exact absurd (hway.trans hsign.symm) hne
    · intro h
      refine ⟨fun ha hpos hshort => ?_, fun hneg => ?_⟩
      · exact h.toward (Or.inr ⟨ha, hx⟩) hpos (by rwa [abs_of_pos ha])
      · have hback := h.back (hway.trans hsign.symm) hneg
        rw [hsign, neg_one_mul] at hback
        rwa [abs_of_neg (neg_pos.mp hback.1)] at hback
  · -- Both are above zero, or the value asked for is zero.
    have hne : signum (x - a) ≠ signum x := by
      rw [hway, signum, if_neg (not_lt_of_ge hx)]
      norm_num
    rw [if_neg hne, limited_decay_iff attack decay (-a) (-x) hmirror (neg_nonpos.mpr hx)]
    refine ⟨fun h => ⟨fun hacross => ?_, fun heq => absurd heq hne, fun _ => h⟩,
      fun h => h.away hne⟩
    rcases hacross with ⟨hneg, -⟩ | ⟨-, hneg⟩
    · exact absurd hneg (not_lt_of_ge (hx.trans hdown.le))
    · exact absurd hneg (not_lt_of_ge hx)

/-- The limiter takes the attack rate where the way to the value and the value
    have the same sign. -/
theorem limited_movedTo_iff : Limited attack decay a
        (movedTo (if signum (x - a) = signum x then attack else decay) a x) ↔
      MovesWithin attack decay a x :=
  (le_or_gt a x).elim (limited_up_iff attack decay a x) (limited_down_iff attack decay a x)

end

section

variable (node : SlewNode) (frame : AxisFrame) (state : SlewCompiledState)

@[simp]
theorem slew_stepSoa_tsMonoNs : (node.stepSoa frame state).1.tsMonoNs = frame.tsMonoNs := by
  unfold SlewNode.stepSoa
  split_ifs <;> rfl

/-- The state after a frame has what came out and when. -/
theorem slew_stepSoa_state : (node.stepSoa frame state).2 = { state with
        lastOutput := (node.stepSoa frame state).1.out
        lastTimeNs := frame.tsMonoNs } := by
  unfold SlewNode.stepSoa
  split_ifs <;> rfl

theorem slew_of_stepSoa (h : state.Of node) : (node.stepSoa frame state).2.Of node := by
  rw [slew_stepSoa_state]
  exact ⟨h.rateLimit_eq, h.attackRate_eq⟩

/-- The output of a state that is not new, as a move from the last output. -/
theorem slew_stepSoa_out (h : state.Of node) (hts : state.lastTimeNs ≤ frame.tsMonoNs)
    (hold : state.lastTimeNs ≠ 0) :
    (node.stepSoa frame state).1.out =
      movedTo
        (if signum (frame.out - state.lastOutput) = signum frame.out
          then node.attack * seconds (frame.tsMonoNs - state.lastTimeNs)
          else node.rateLimit * seconds (frame.tsMonoNs - state.lastTimeNs))
        state.lastOutput frame.out := by
  -- Where no time has passed, the difference that the limiter leaves out is zero.
  have hdt : (if frame.tsMonoNs > state.lastTimeNs
      then seconds (frame.tsMonoNs - state.lastTimeNs) else 0)
        = seconds (frame.tsMonoNs - state.lastTimeNs) := by
    split_ifs with hlater
    · rfl
    · rw [UInt64.le_antisymm hts (UInt64.not_lt.mp hlater), UInt64.sub_self]
      exact (zero_div 1000000000).symm
  unfold SlewNode.stepSoa movedTo
  simp only [if_neg hold, hdt, h.rateLimit_eq, h.attackRate_eq, ite_mul]

/-- One output keeps the limits exactly under `WithinLimits`. -/
theorem limited_stepSoa_iff (h : state.Of node) (hts : state.lastTimeNs ≤ frame.tsMonoNs) :
    Limited (node.attack * seconds (frame.tsMonoNs - state.lastTimeNs))
        (node.rateLimit * seconds (frame.tsMonoNs - state.lastTimeNs))
        state.lastOutput (node.stepSoa frame state).1.out ↔
      WithinLimits node state frame := by
  dsimp only [WithinLimits]
  split_ifs with hnew
  · unfold SlewNode.stepSoa
    rw [if_pos hnew]
  · rw [slew_stepSoa_out node frame state h hts hnew]
    exact limited_movedTo_iff _ _ _ _

end

/-- A run from a state that the last frame has led to. -/
theorem isChain_responses_iff (node : SlewNode) (frames : List AxisFrame)
    (last : AxisFrame) (state : SlewCompiledState) (h : state.Of node)
    (hout : state.lastOutput = last.out) (htime : state.lastTimeNs = last.tsMonoNs)
    (hts : (last :: frames).Pairwise (fun f g => f.tsMonoNs ≤ g.tsMonoNs)) :
    (last :: responses (slewFrame node) state frames).IsChain (FramesLimited node) ↔
      StepsMeet (fun s f => (slewFrame node s f).1) (WithinLimits node) state frames := by
  induction frames generalizing last state with
  | nil => exact iff_of_true (List.IsChain.singleton last) trivial
  | cons frame rest ih =>
      have hle : last.tsMonoNs ≤ frame.tsMonoNs := List.rel_of_pairwise_cons hts List.mem_cons_self
      rw [responses, StepsMeet, List.isChain_cons_cons]
      refine and_congr ?_ (ih (slewFrame node state frame).2 (slewFrame node state frame).1
        (slew_of_stepSoa node frame state h) ?_ ?_ ?_)
      · unfold FramesLimited slewFrame
        rw [Prod.snd_swap, slew_stepSoa_tsMonoNs, ← hout, ← htime]
        exact limited_stepSoa_iff node frame state h (htime ▸ hle)
      · exact congrArg SlewCompiledState.lastOutput (slew_stepSoa_state node frame state)
      · exact (congrArg SlewCompiledState.lastTimeNs (slew_stepSoa_state node frame state)).trans
          (slew_stepSoa_tsMonoNs node frame state).symm
      · -- The frame that comes out has the time of the one that went in.
        rw [List.pairwise_cons] at hts
        have hrest := List.pairwise_cons.mp hts.2
        refine List.pairwise_cons.mpr ⟨fun g hg => ?_, hrest.2⟩
        exact (slew_stepSoa_tsMonoNs node frame state).trans_le (hrest.1 g hg)

/-- In every run over frames whose times never go back, each two outputs in a row are within the
    limits exactly when every frame but the first meets `WithinLimits`. -/
theorem slew_limits_iff (node : SlewNode) (first : AxisFrame) (frames : List AxisFrame)
    (hts : (first :: frames).Pairwise (fun f g => f.tsMonoNs ≤ g.tsMonoNs)) :
    (responses (slewFrame node) node.initState (first :: frames)).IsChain (FramesLimited node) ↔
      StepsMeet (fun s f => (slewFrame node s f).1) (WithinLimits node)
        (slewFrame node node.initState first).1 frames :=
  isChain_responses_iff node frames first _ ⟨rfl, rfl⟩ rfl rfl hts

theorem slew_limits_iff_ramp : (responses (slewFrame (.new 1)) (SlewNode.new 1).initState
        [.new 0 1, .new 1 500000001]).IsChain (FramesLimited (.new 1)) ↔
      StepsMeet (fun s f => (slewFrame (.new 1) s f).1) (WithinLimits (.new 1))
        (slewFrame (.new 1) (SlewNode.new 1).initState (.new 0 1)).1 [.new 1 500000001] :=
  slew_limits_iff (.new 1) (.new 0 1) [.new 1 500000001] (by decide)

/-- With an attack rate of 10 and a decay rate of 1, an output of -0.5 is at -0.25
    within 25 ms when the value asked for is 1. -/
theorem slew_hurries_to_zero :
    ¬ (responses (slewFrame (.asymmetric 10 1)) (SlewNode.asymmetric 10 1).initState
        [.new (-1 / 2) 1, .new 1 25000001]).IsChain (FramesLimited (.asymmetric 10 1)) := by
  decide +kernel

-- After a frame at time zero, the next one is let through as it is.
example :
    ¬ (responses (slewFrame (.new 1)) (SlewNode.new 1).initState
        [.new 0 0, .new 1 1]).IsChain (FramesLimited (.new 1)) := by
  decide +kernel

end OpenFlight.Axis
