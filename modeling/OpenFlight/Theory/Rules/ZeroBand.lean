import OpenFlight.Theory.Panels.BlinkRates
import OpenFlight.Theory.Rules.RuleIndependence
import OpenFlight.Theory.Rules.StackDiscipline

/-!
# Hysteresis Bands of Width Zero

What a hysteresis default does when its band is zero.

A schema with defaults compiles to the same code as without them, except that
the comparisons of the variables that have a default become hysteresis
instructions (`Twin`). Such an instruction carries no operator. With a band of
zero both of its thresholds are the threshold, so the trigger state of earlier
evaluations makes no difference: it tests whether the value is greater, whatever
the operator of the rule was.

So the two programs keep in step for as long as the comparisons that are
executed have the result that `>` has. This holds for programs of every length
and does not depend on where their jumps lead. It takes that the values on the
stack are single-precision numbers, for which adding zero changes nothing.

## Main definitions

* `TwinOp`, `Twin`: Instructions that correspond, and compilers that have
  emitted such.
* `evaluateBoth`: Both evaluators are called.

## Theorems

* `zeroBand_neutral`: When a band of zero makes no difference.
* `zeroBand_greaterEqual`: A rule for which it makes one.
-/

namespace OpenFlight.Rules

open Panels

namespace Condition

mutual

/-- The numbers that the condition compares with are single-precision numbers. -/
def SingleValues : Condition → Prop
  | .boolean _ _ => True
  | .compare _ _ value => IsSingle value
  | .and conditions => AllSingleValues conditions
  | .or conditions => AllSingleValues conditions

def AllSingleValues : List Condition → Prop
  | [] => True
  | c :: rest => SingleValues c ∧ AllSingleValues rest

end

theorem allSingleValues_iff (conditions : List Condition) :
    AllSingleValues conditions ↔ ∀ c ∈ conditions, c.SingleValues := by
  induction conditions with
  | nil => simp [AllSingleValues]
  | cons c rest ih => rw [AllSingleValues, ih, List.forall_mem_cons]

end Condition

theorem singleValues_parseFuel (fuel : Nat) (s : Text) (c : Condition)
    (h : parseFuel fuel s = .ok c) : c.SingleValues := by
  induction fuel generalizing s c with
  | zero => exact absurd h (by simp [parseFuel])
  | succ fuel ih =>
      -- The parts of a connective are parsed with less fuel.
      have hparts : ∀ (f : List Condition → Condition) (sep : Text),
          (∀ conditions, (f conditions).SingleValues ↔ Condition.AllSingleValues conditions) →
          ((splitAll sep (trim s)).mapM fun part => parseFuel fuel (trim part)).map f = .ok c →
          c.SingleValues := by
        intro f sep hf hc
        rcases map_mapM_eq_ok _ _ _ _ hc with ⟨conditions, rfl, -, hmem⟩
        rw [hf, Condition.allSingleValues_iff]
        intro d hd
        rcases hmem d hd with ⟨part, -, hparse⟩
        exact ih _ d hparse
      simp only [parseFuel] at h
      split_ifs at h with hempty hor hand
      · exact hparts Condition.or orWord (fun _ => Iff.rfl) h
      · exact hparts Condition.and andWord (fun _ => Iff.rfl) h
      · exact parseLeaf_of _ c h Condition.SingleValues
          (fun _ _ value text hvalue => isSingle_parseF32 text value hvalue) fun _ _ => trivial

section

/-- An instruction that is neither a constant nor a hysteresis instruction. -/
def BytecodeOp.IsPlain : BytecodeOp → Prop
  | .loadConst _ => False
  | .hysteresis _ => False
  | _ => True

/-- Instructions with and without hysteresis. -/
inductive TwinOp : BytecodeOp → BytecodeOp → Prop
  | const (value : F32) (h : IsSingle value) : TwinOp (.loadConst value) (.loadConst value)
  | plain (op : BytecodeOp) (h : op.IsPlain) : TwinOp op op
  | banded (index : Nat) (operator : CompareOp) : TwinOp (.hysteresis index) (.compare operator)

/-- Two compilers have emitted the same, up to hysteresis; the second one knows
    no hysteresis keys. -/
structure Twin (st st' : BytecodeCompiler) : Prop where
  code : List.Forall₂ TwinOp st.instructions st'.instructions
  variableMap : st.variableMap = st'.variableMap
  nextVariable : st.nextVarIndex = st'.nextVarIndex
  actions : st.actions = st'.actions
  nextAction : st.nextActionIndex = st'.nextActionIndex
  noKeys : st'.hysteresisMap = ∅

variable {st st' : BytecodeCompiler}

section

variable (h : Twin st st')

include h

theorem Twin.length : st.instructions.length = st'.instructions.length :=
  h.code.length_eq

theorem Twin.emit {op op' : BytecodeOp} (hop : TwinOp op op') : Twin (st.emit op) (st'.emit op') :=
  { h with code := List.rel_append h.code (.cons hop .nil) }

theorem Twin.addAction (action : Action) : Twin (st.addAction action) (st'.addAction action) :=
  { h with
    actions := congrArg (· ++ [action]) h.actions
    nextAction := congrArg (fun index => toU16 (index + 1)) h.nextAction }

theorem Twin.variableIndex (name : Text) : st.variableIndex name = st'.variableIndex name := by
  rw [BytecodeCompiler.variableIndex, BytecodeCompiler.variableIndex, h.variableMap,
    h.nextVariable]

theorem Twin.addVariable (name : Text) : Twin (st.addVariable name) (st'.addVariable name) := by
  unfold BytecodeCompiler.addVariable
  rw [h.variableMap]
  cases st'.variableMap.lookup name with
  | some index => exact h
  | none =>
      refine { h with variableMap := ?_, nextVariable := ?_ }
      · rw [h.nextVariable]
      · rw [h.nextVariable]

end

theorem forall₂_set {α β : Type*} {R : α → β → Prop} {l : List α} {l' : List β} {a : α} {b : β}
    (h : List.Forall₂ R l l') (i : Nat) (hab : R a b) :
    List.Forall₂ R (l.set i a) (l'.set i b) := by
  induction h generalizing i with
  | nil => exact .nil
  | cons hhead htail ih =>
      cases i with
      | zero => exact .cons hab htail
      | succ i => exact .cons hhead (ih i)

theorem Twin.patchJumpFalse (h : Twin st st') (index addr : Nat) :
    Twin (st.patchJumpFalse index addr) (st'.patchJumpFalse index addr) := by
  unfold BytecodeCompiler.patchJumpFalse
  rcases getElem?_of_forall₂ h.code index with ⟨hnone, hnone'⟩ | ⟨op, op', hop, hop', htwin⟩
  · rw [hnone, hnone']
    exact h
  · rw [hop, hop']
    -- A jump stands on both sides or on none.
    cases htwin with
    | const value hvalue => exact h
    | banded i operator => exact h
    | plain op hplain =>
        cases op with
        | jumpFalse target =>
            exact { h with code := forall₂_set h.code index (.plain _ trivial) }
        | _ => exact h

theorem Twin.operands (h : Twin st st') (name : Text) {value : F32} (hvalue : IsSingle value) :
    Twin (((st.addVariable name).emit (.loadVar (st.variableIndex name))).emit (.loadConst value))
      (((st'.addVariable name).emit (.loadVar (st'.variableIndex name))).emit
        (.loadConst value)) := by
  rw [h.variableIndex name]
  exact ((h.addVariable name).emit (.plain (.loadVar _) trivial)).emit (.const value hvalue)

/-- A jump at the same place is patched to lead past the code. -/
theorem Twin.guard (h : Twin st st') {start start' : Nat} (hstart : start = start') :
    Twin (st.patchJumpFalse start (toU16 st.instructions.length))
      (st'.patchJumpFalse start' (toU16 st'.instructions.length)) := by
  rw [hstart, h.length]
  exact h.patchJumpFalse start' _

theorem isSingle_zero : IsSingle (.fin 0) :=
  F32.representable_zero

theorem isSingle_one : IsSingle (.fin 1) :=
  ⟨⟨1, 0, by norm_num, by norm_num, by norm_num⟩, by norm_num⟩

mutual

theorem twin_compileCondition (c : Condition) (st st' : BytecodeCompiler) (hvalues : c.SingleValues)
    (h : Twin st st') : Twin (st.compileCondition c) (st'.compileCondition c) := by
  cases c with
  | boolean var negate =>
      have hcompared := (h.operands var isSingle_zero).emit (.plain (.compare .notEqual) trivial)
      cases negate with
      | false => exact hcompared
      | true => exact hcompared.emit (.plain .not trivial)
  | compare var operator value =>
      rw [BytecodeCompiler.compileCondition, BytecodeCompiler.compileCondition]
      have hoperands := h.operands var hvalues
      unfold BytecodeCompiler.compileCompare
      simp only []
      -- The second compiler has no key to find and always emits a comparison.
      rw [hoperands.noKeys, AList.lookup_empty]
      split
      · exact hoperands.emit (.banded _ operator)
      · exact hoperands.emit (.plain (.compare operator) trivial)
  | and conditions => exact twin_compileAnd conditions st st' hvalues h
  | or conditions => exact twin_compileOr conditions st st' hvalues h

theorem twin_compileAnd (conditions : List Condition) (st st' : BytecodeCompiler)
    (hvalues : Condition.AllSingleValues conditions) (h : Twin st st') :
    Twin (st.compileAnd conditions) (st'.compileAnd conditions) := by
  cases conditions with
  | nil => exact h.emit (.const _ isSingle_one)
  | cons c rest =>
      exact twin_compileAndRest rest _ _ hvalues.2 (twin_compileCondition c _ _ hvalues.1 h)

theorem twin_compileAndRest (conditions : List Condition) (st st' : BytecodeCompiler)
    (hvalues : Condition.AllSingleValues conditions) (h : Twin st st') :
    Twin (st.compileAndRest conditions) (st'.compileAndRest conditions) := by
  cases conditions with
  | nil => exact h
  | cons c rest =>
      have hbody := (twin_compileCondition c _ _ hvalues.1
        (h.emit (.plain (.jumpFalse 0) trivial))).emit (.plain .and trivial)
      exact twin_compileAndRest rest _ _ hvalues.2 (hbody.guard h.length)

theorem twin_compileOr (conditions : List Condition) (st st' : BytecodeCompiler)
    (hvalues : Condition.AllSingleValues conditions) (h : Twin st st') :
    Twin (st.compileOr conditions) (st'.compileOr conditions) := by
  cases conditions with
  | nil => exact h.emit (.const _ isSingle_zero)
  | cons c rest =>
      exact twin_compileOrRest rest _ _ hvalues.2 (twin_compileCondition c _ _ hvalues.1 h)

theorem twin_compileOrRest (conditions : List Condition) (st st' : BytecodeCompiler)
    (hvalues : Condition.AllSingleValues conditions) (h : Twin st st') :
    Twin (st.compileOrRest conditions) (st'.compileOrRest conditions) := by
  cases conditions with
  | nil => exact h
  | cons c rest =>
      exact twin_compileOrRest rest _ _ hvalues.2
        ((twin_compileCondition c _ _ hvalues.1 h).emit (.plain .or trivial))

end

theorem twin_compileParsed (condition : Condition) (action : Action) (h : Twin st st')
    (hvalues : condition.SingleValues) :
    Twin (st.compileParsed condition action) (st'.compileParsed condition action) := by
  have hcondition := twin_compileCondition condition st st' hvalues h
  have hjump : TwinOp (.jumpFalse 0) (.jumpFalse 0) := .plain _ trivial
  -- The action has the same number on both sides.
  have hindex := (hcondition.emit hjump).nextAction
  have hfire : ∀ index, TwinOp (.action index) (.action index) := fun _ => .plain _ trivial
  have hbody := ((hcondition.emit hjump).addAction action).emit
    (hfire ((st.compileCondition condition).emit (.jumpFalse 0)).nextActionIndex)
  rw [BytecodeCompiler.compileParsed, BytecodeCompiler.compileParsed, ← hindex]
  exact hbody.guard hcondition.length

/-- The code with defaults and without. -/
theorem twin_compileRules (rules : List ParsedRule) (h : Twin st st')
    (hvalues : ∀ rule ∈ rules, rule.1.SingleValues) :
    Twin (compileRules st rules) (compileRules st' rules) := by
  induction rules generalizing st st' with
  | nil => exact h
  | cons rule rest ih =>
      rw [List.forall_mem_cons] at hvalues
      exact ih (twin_compileParsed rule.1 rule.2 h hvalues.1) hvalues.2

/-- The same rules without defaults. -/
def RulesSchema.withoutDefaults (schema : RulesSchema) : RulesSchema :=
  { schema with defaults := none }

/-- The code of a schema with its defaults and without. -/
theorem twin_compile (schema : RulesSchema) (banded plain : CompiledRules)
    (hbanded : schema.compile = .ok banded)
    (hplain : schema.withoutDefaults.compile = .ok plain) :
    List.Forall₂ TwinOp banded.bytecode.instructions plain.bytecode.instructions ∧
      banded.bytecode.variableMap = plain.bytecode.variableMap ∧
      banded.bytecode.actions = plain.bytecode.actions := by
  rcases compile_ok schema banded hbanded with ⟨parsed, hparsed, hcode, -⟩
  rcases compile_ok _ plain hplain with ⟨parsed', hparsed', hcode', -⟩
  have hsame : parsed' = parsed := Except.ok.inj (hparsed'.symm.trans hparsed)
  rw [hsame] at hcode'
  have hfresh := fresh_initialCompiler schema
  have hstart : Twin schema.initialCompiler schema.withoutDefaults.initialCompiler :=
    { code := by rw [hfresh.instructions]; exact .nil
      variableMap := hfresh.variableMap
      nextVariable := hfresh.nextVariable
      actions := hfresh.actions
      nextAction := hfresh.nextAction
      noKeys := rfl }
  have hvalues : ∀ rule ∈ parsed, rule.1.SingleValues := by
    intro rule hrule
    rcases map_mapM_eq_ok parseRule id schema.rules parsed (by rw [hparsed]; rfl) with
      ⟨rules, heq, -, hmem⟩
    rw [heq] at hrule
    rcases hmem rule hrule with ⟨source, -, hsource⟩
    exact singleValues_parseFuel _ _ _ (parseRule_ok source rule hsource).1
  have htwin := twin_compileRules parsed hstart hvalues
  rw [hcode, hcode']
  exact ⟨htwin.code, htwin.variableMap, htwin.actions⟩

end

/-- With a band of zero both thresholds are the threshold itself. -/
theorem sub_zero_of_isSingle (x : F32) (h : IsSingle x) : x.sub (.fin 0) = x := by
  cases x with
  | fin q =>
      have hzero : (F32.fin q).sub (.fin 0) = F32.ofRat (q - 0) := rfl
      rw [hzero, sub_zero]
      exact F32.ofRat_of_representable q h
  | _ => rfl

/-- A band of zero tests whether the value is greater, triggered or not. -/
theorem hysteresisTriggered_zero (state : HysteresisState) (current threshold : F32)
    (hband : state.band = .fin 0) (hthreshold : IsSingle threshold) :
    hysteresisTriggered state current threshold =
      compareValues current threshold .greater := by
  -- The state only chooses between two thresholds that are the same.
  have hhalf : state.band.half = .fin 0 := by
    rw [hband]
    simp [F32.half, F32.ofRat]
  have hadd : threshold.add (.fin 0) = threshold := by
    have hneg : threshold.add (.fin 0) = threshold.sub (.fin (-0)) := rfl
    rw [hneg, neg_zero]
    exact sub_zero_of_isSingle threshold hthreshold
  unfold hysteresisTriggered
  rw [hhalf, hadd, sub_zero_of_isSingle threshold hthreshold, ite_self]
  rfl

/-- All bands are zero. -/
def ZeroBands (states : List HysteresisState) : Prop :=
  ∀ state ∈ states, state.band = .fin 0

/-- A band of zero tests whether the value is greater. -/
theorem applyHysteresis_zero (states : List HysteresisState) (index : Nat)
    (current threshold : F32) (hzero : ZeroBands states) (hthreshold : IsSingle threshold) :
    ZeroBands (applyHysteresis states index current threshold).1 ∧
      (applyHysteresis states index current threshold).2 =
        compareValues current threshold .greater := by
  unfold applyHysteresis
  cases hstate : states[index]? with
  -- Without a state the evaluator compares with `>` as well.
  | none => exact ⟨hzero, rfl⟩
  | some state =>
      have hband := hzero state (List.mem_of_getElem? hstate)
      refine ⟨fun s hs => ?_, hysteresisTriggered_zero state current threshold hband hthreshold⟩
      rcases List.mem_or_eq_of_mem_set hs with hold | hnew
      · exact hzero s hold
      · rw [hnew]
        exact hband

/-- The machines on a program with bands of zero and on the one without. -/
structure Together (vm vm' : Vm) : Prop where
  pc : vm.pc = vm'.pc
  stack : vm.stack = vm'.stack
  buffer : vm.actionsBuffer = vm'.actionsBuffer
  single : ∀ value ∈ vm'.stack, IsSingle value
  bands : ZeroBands vm.hysteresisState

/-- Where the program with bands has a hysteresis instruction, the other one
    compares its operands with the result of `>`. -/
def OperatorKept (banded plain : BytecodeProgram) (vm : Vm) : Prop :=
  ∀ index operator a b rest, banded.instructions[vm.pc]? = some (.hysteresis index) →
    plain.instructions[vm.pc]? = some (.compare operator) → vm.stack = b :: a :: rest →
    compareValues a b operator = compareValues a b .greater

theorem isSingle_ofBool (b : Bool) : IsSingle (ofBool b) := by
  cases b with
  | false => exact isSingle_zero
  | true => exact isSingle_one

section

variable (banded plain : BytecodeProgram) (cache : List F32)

include banded plain cache

/-- A plain instruction does the same on both sides, and pushes only what is a
    single-precision number. -/
theorem together_plain (vm vm' : Vm) (op : BytecodeOp) (hop : op.IsPlain)
    (hactions : banded.actions = plain.actions) (hcache : ∀ value ∈ cache, IsSingle value)
    (h : Together vm vm') :
    Together (vmExecute banded cache vm op) (vmExecute plain cache vm' op) := by
  rcases vm with ⟨pc, stack, hyst, buffer⟩
  rcases vm' with ⟨pc', stack', hyst', buffer'⟩
  rcases h with ⟨rfl, rfl, rfl, hsingle, hbands⟩
  -- Two operands make room for one truth value.
  have hcombined : ∀ b a rest (result : Bool), stack = b :: a :: rest →
      Together ⟨pc + 1, ofBool result :: rest, hyst, buffer⟩
        ⟨pc + 1, ofBool result :: rest, hyst', buffer⟩ := by
    rintro b a rest result rfl
    rw [List.forall_mem_cons, List.forall_mem_cons] at hsingle
    exact ⟨rfl, rfl, rfl, List.forall_mem_cons.mpr ⟨isSingle_ofBool _, hsingle.2.2⟩, hbands⟩
  cases op with
  | loadConst value => exact absurd hop (by simp [BytecodeOp.IsPlain])
  | hysteresis index => exact absurd hop (by simp [BytecodeOp.IsPlain])
  | loadVar index =>
      refine ⟨rfl, rfl, rfl, List.forall_mem_cons.mpr ⟨?_, hsingle⟩, hbands⟩
      -- A variable that is not in the cache reads as zero.
      cases hvalue : cache[index]? with
      | none => exact isSingle_zero
      | some value => exact hcache value (List.mem_of_getElem? hvalue)
  | jump addr => exact ⟨rfl, rfl, rfl, hsingle, hbands⟩
  | nop => exact ⟨rfl, rfl, rfl, hsingle, hbands⟩
  | action index =>
      simp only [vmExecute, hactions]
      split
      · exact ⟨rfl, rfl, rfl, hsingle, hbands⟩
      · exact ⟨rfl, rfl, rfl, hsingle, hbands⟩
  | not =>
      rcases stack with _ | ⟨value, rest⟩
      · exact ⟨rfl, rfl, rfl, hsingle, hbands⟩
      · rw [List.forall_mem_cons] at hsingle
        exact ⟨rfl, rfl, rfl, List.forall_mem_cons.mpr ⟨isSingle_ofBool _, hsingle.2⟩, hbands⟩
  | jumpFalse addr =>
      rcases stack with _ | ⟨condition, rest⟩
      · exact ⟨rfl, rfl, rfl, hsingle, hbands⟩
      · rw [List.forall_mem_cons] at hsingle
        simp only [vmExecute]
        split
        · exact ⟨rfl, rfl, rfl, hsingle.2, hbands⟩
        · exact ⟨rfl, rfl, rfl, hsingle.2, hbands⟩
  | _ =>
      rcases stack with _ | ⟨b, _ | ⟨a, rest⟩⟩
      · exact ⟨rfl, rfl, rfl, hsingle, hbands⟩
      · exact ⟨rfl, rfl, rfl, hsingle, hbands⟩
      · exact hcombined b a rest _ rfl

/-- A hysteresis instruction and a comparison that has the result of `>`. -/
theorem together_banded (vm vm' : Vm) (index : Nat) (operator : CompareOp) (h : Together vm vm')
    (hkept : ∀ a b rest, vm'.stack = b :: a :: rest →
      compareValues a b operator = compareValues a b .greater) :
    Together (vmExecute banded cache vm (.hysteresis index))
      (vmExecute plain cache vm' (.compare operator)) := by
  rcases vm with ⟨pc, stack, hyst, buffer⟩
  rcases vm' with ⟨pc', stack', hyst', buffer'⟩
  rcases h with ⟨rfl, rfl, rfl, hsingle, hbands⟩
  rcases stack with _ | ⟨b, _ | ⟨a, rest⟩⟩
  · exact ⟨rfl, rfl, rfl, hsingle, hbands⟩
  · exact ⟨rfl, rfl, rfl, hsingle, hbands⟩
  · rw [List.forall_mem_cons, List.forall_mem_cons] at hsingle
    have happlied := applyHysteresis_zero hyst index a b hbands hsingle.1
    refine ⟨rfl, ?_, rfl, List.forall_mem_cons.mpr ⟨isSingle_ofBool _, hsingle.2.2⟩, happlied.1⟩
    change ofBool _ :: rest = ofBool _ :: rest
    rw [happlied.2, hkept a b rest rfl]

/-- The machines keep in step. -/
theorem together_vmStep (hcode : List.Forall₂ TwinOp banded.instructions plain.instructions)
    (hactions : banded.actions = plain.actions) (hcache : ∀ value ∈ cache, IsSingle value)
    (vm vm' : Vm) (h : Together vm vm') (hkept : OperatorKept banded plain vm') :
    (vmStep banded cache vm = none ∧ vmStep plain cache vm' = none) ∨
      ∃ next next', vmStep banded cache vm = some next ∧ vmStep plain cache vm' = some next' ∧
        Together next next' := by
  rw [vmStep, vmStep, h.pc]
  rcases getElem?_of_forall₂ hcode vm'.pc with ⟨hnone, hnone'⟩ | ⟨op, op', hop, hop', htwin⟩
  · rw [hnone, hnone']
    exact .inl ⟨rfl, rfl⟩
  · rw [hop, hop']
    refine .inr ⟨_, _, rfl, rfl, ?_⟩
    cases htwin with
    | const value hvalue =>
        exact ⟨congrArg (· + 1) h.pc, congrArg (value :: ·) h.stack, h.buffer,
          List.forall_mem_cons.mpr ⟨hvalue, h.single⟩, h.bands⟩
    | plain op hplain => exact together_plain banded plain cache vm vm' op hplain hactions hcache h
    | banded index operator =>
        exact together_banded banded plain cache vm vm' index operator h
          fun a b rest hstack => hkept index operator a b rest hop hop' hstack

end

/-- The telemetry holds finite single-precision numbers. -/
def FiniteTelemetry (telemetry : Telemetry) : Prop :=
  ∀ name value, telemetry name = some value → ∃ q, value = .fin q ∧ F32.Representable q

/-- The evaluators for a program with bands of zero and for the one without. -/
structure InStep (p : RulesEvaluator × RulesEvaluator) : Prop where
  stack : p.1.stack = p.2.stack
  cache : p.1.variableCache = p.2.variableCache
  buffer : p.1.actionsBuffer = p.2.actionsBuffer
  lastEval : p.1.lastEval = p.2.lastEval
  interval : p.1.minEvalInterval = p.2.minEvalInterval
  single : ∀ value ∈ p.2.stack, IsSingle value
  cached : ∀ value ∈ p.2.variableCache, IsSingle value
  bands : ZeroBands p.1.hysteresisState

/-- Both evaluators are called at the same time with the same telemetry. -/
def evaluateBoth (fuel : Nat) (banded plain : CompiledRules) (p : RulesEvaluator × RulesEvaluator)
    (call : Instant × Telemetry) : RulesEvaluator × RulesEvaluator :=
  (p.1.evaluate fuel call.1 banded call.2, p.2.evaluate fuel call.1 plain call.2)

/-- Wherever the evaluation without defaults comes by, the comparisons of banded variables have the
    result of `>`. A call that comes too early evaluates nothing. -/
def OperatorsKept (fuel : Nat) (banded plain : CompiledRules)
    (p : RulesEvaluator × RulesEvaluator) (call : Instant × Telemetry) : Prop :=
  durationSince call.1 p.2.lastEval < p.2.minEvalInterval ∨
    ∀ n < fuel, OperatorKept banded.bytecode plain.bytecode (during p.2 plain call.2 n)

theorem single_updateVariableCache (program : BytecodeProgram) (telemetry : Telemetry)
    (cache : List F32) (hfinite : FiniteTelemetry telemetry)
    (hcache : ∀ value ∈ cache, IsSingle value) :
    ∀ value ∈ RulesEvaluator.updateVariableCache cache program telemetry, IsSingle value := by
  have hread : ∀ name, IsSingle ((telemetry name).getD (.fin 0)) := by
    intro name
    cases hvalue : telemetry name with
    | none => exact isSingle_zero
    | some value =>
        rcases hfinite name value hvalue with ⟨q, rfl, hq⟩
        exact hq
  unfold RulesEvaluator.updateVariableCache
  generalize program.variableMap.entries = entries
  induction entries generalizing cache with
  | nil => exact hcache
  | cons e rest ih =>
      refine ih _ fun value hvalue => ?_
      rcases List.mem_or_eq_of_mem_set hvalue with hold | rfl
      · exact hcache value hold
      · exact hread e.1

theorem inStep_evaluateBoth (schema : RulesSchema) (banded plain : CompiledRules)
    (hbanded : schema.compile = .ok banded)
    (hplain : schema.withoutDefaults.compile = .ok plain) (fuel : Nat)
    (p : RulesEvaluator × RulesEvaluator) (call : Instant × Telemetry)
    (hfinite : FiniteTelemetry call.2) (h : InStep p)
    (hkept : OperatorsKept fuel banded plain p call) :
    InStep (evaluateBoth fuel banded plain p call) := by
  rcases twin_compile schema banded plain hbanded hplain with ⟨hcode, hvariables, hactions⟩
  unfold evaluateBoth RulesEvaluator.evaluate
  rw [h.lastEval, h.interval]
  by_cases hearly : durationSince call.1 p.2.lastEval < p.2.minEvalInterval
  · -- Neither side evaluates a call that comes too early.
    rw [if_pos hearly, if_pos hearly]
    exact h
  · have hcache := single_updateVariableCache plain.bytecode call.2 p.2.variableCache hfinite
      h.cached
    have hsame : RulesEvaluator.updateVariableCache p.1.variableCache banded.bytecode call.2 =
        RulesEvaluator.updateVariableCache p.2.variableCache plain.bytecode call.2 := by
      rw [RulesEvaluator.updateVariableCache, RulesEvaluator.updateVariableCache, hvariables,
        h.cache]
    have hstart : Together { stack := p.1.stack, hysteresisState := p.1.hysteresisState }
        { stack := p.2.stack, hysteresisState := p.2.hysteresisState } :=
      ⟨rfl, h.stack, rfl, h.single, h.bands⟩
    -- The machines take the same turns, as long as the operators have the result of `>`.
    have hend := exec_lockstep Together (OperatorKept banded.bytecode plain.bytecode)
      (together_vmStep banded.bytecode plain.bytecode _ hcode hactions hcache) fuel _ _ hstart
      (hkept.resolve_left hearly)
    rw [if_neg hearly, if_neg hearly]
    simp only [hsame]
    exact
      { stack := hend.stack
        cache := rfl
        buffer := hend.buffer
        lastEval := rfl
        interval := rfl
        single := hend.single
        cached := hcache
        bands := hend.bands }

/-- The bands of the program are the values of the defaults. -/
theorem bands_compile (schema : RulesSchema) (compiled : CompiledRules)
    (hcompile : schema.compile = .ok compiled) :
    ∀ band ∈ compiled.bytecode.hysteresisBands, ∃ e ∈ schema.hysteresisDefaults.entries,
      band = e.2 := by
  have hfold : ∀ (entries : List (Σ _ : Text, F32)) (st : BytecodeCompiler) (band : F32),
      band ∈ (entries.foldl (fun st e => st.addHysteresisKey e.1 e.2) st).hysteresisBands →
        band ∈ st.hysteresisBands ∨ ∃ e ∈ entries, band = e.2 := by
    intro entries
    induction entries with
    | nil => exact fun st band hband => .inl hband
    | cons e rest ih =>
        intro st band hband
        rcases ih _ band hband with hadded | ⟨later, hlater, heq⟩
        · dsimp only [BytecodeCompiler.addHysteresisKey] at hadded
          split at hadded
          · exact .inl hadded
          · rcases List.mem_append.mp hadded with hold | hnew
            · exact .inl hold
            · exact .inr ⟨e, List.mem_cons_self, List.mem_singleton.mp hnew⟩
        · exact .inr ⟨later, List.mem_cons_of_mem e hlater, heq⟩
  rcases compile_ok schema compiled hcompile with ⟨parsed, -, hcode, -⟩
  intro band hband
  -- Compiling rules adds no bands to those of the defaults.
  have hgrows := grows_compileRules schema.initialCompiler parsed (fresh_initialCompiler schema)
  rw [hcode] at hband
  have hinitial : band ∈ schema.initialCompiler.hysteresisBands := by
    rw [← hgrows.bands]
    exact hband
  rcases hfold _ {} band hinitial with hnone | hdefault
  · exact absurd hnone List.not_mem_nil
  · exact hdefault

/-- Along every run in which the comparisons of variables with a default have
    the result of `>` whenever they are executed, defaults of zero make no
    difference to the actions of any evaluation. -/
theorem zeroBand_neutral (schema : RulesSchema)
    (hzero : ∀ e ∈ schema.hysteresisDefaults.entries, e.2 = .fin 0) (banded plain : CompiledRules)
    (hbanded : schema.compile = .ok banded)
    (hplain : schema.withoutDefaults.compile = .ok plain) (fuel : Nat)
    (start : RulesEvaluator) (calls : List (Instant × Telemetry))
    (hfinite : ∀ call ∈ calls, FiniteTelemetry call.2)
    (hkept : StepsMeet (evaluateBoth fuel banded plain) (OperatorsKept fuel banded plain)
      (start.initializeForProgram banded.bytecode, start.initializeForProgram plain.bytecode)
      calls) :
    Always (evaluateBoth fuel banded plain) (fun p => p.1.actionsBuffer = p.2.actionsBuffer)
      (start.initializeForProgram banded.bytecode, start.initializeForProgram plain.bytecode)
      calls := by
  have hvariables := (twin_compile schema banded plain hbanded hplain).2.1
  have hstart : InStep (start.initializeForProgram banded.bytecode,
      start.initializeForProgram plain.bytecode) :=
    { stack := rfl
      cache := by
        unfold RulesEvaluator.initializeForProgram
        rw [hvariables]
      buffer := rfl
      lastEval := rfl
      interval := rfl
      single := fun value hvalue => absurd hvalue List.not_mem_nil
      cached := fun value hvalue => by
        rw [List.eq_of_mem_replicate hvalue]
        exact isSingle_zero
      bands := fun state hstate => by
        rcases List.mem_map.mp hstate with ⟨band, hband, rfl⟩
        rcases bands_compile schema banded hbanded band hband with ⟨e, he, rfl⟩
        exact hzero e he }
  refine always_of_stepsMeet _ InStep _ _ (fun p call hp hcall => ?_) (fun p hp => hp.buffer) _
    calls hstart (stepsMeet_and_mem _ _ (fun call => FiniteTelemetry call.2) calls hfinite _ hkept)
  exact inStep_evaluateBoth schema banded plain hbanded hplain fuel p call hcall.2 hp hcall.1

/-- A rule on the angle of attack, with a band of zero for it. -/
def zeroBandSchema (condition : String) : RulesSchema :=
  { schema := "flight.ledmap/1".toList
    rules := [{ when := condition.toList, action := "led.indexer.on()".toList }]
    defaults := some { hysteresis := some (AList.singleton "aoa".toList (.fin 0)) } }

/-- Every variable reads as the same small number. -/
theorem finiteTelemetry_small (n : Nat) (hn : n ≤ 2 ^ 24) :
    FiniteTelemetry fun _ => some (.fin n) := by
  intro name value heq
  have hsmall : (n : ℤ) ≤ 2 ^ 24 := by exact_mod_cast hn
  refine ⟨n, (Option.some.inj heq).symm, ⟨n, 0, by norm_num, ?_, by simp⟩, ?_⟩
  · rw [abs_of_nonneg (Int.natCast_nonneg n)]
    exact hsmall
  · have hbound : (n : ℚ) ≤ 2 ^ 24 := by exact_mod_cast hn
    rw [abs_of_nonneg (Nat.cast_nonneg n)]
    exact lt_of_le_of_lt hbound (by norm_num)

/-- Both evaluators before the first call. -/
def zeroBandStart (banded plain : CompiledRules) : RulesEvaluator × RulesEvaluator :=
  ((RulesEvaluator.new 20000000).initializeForProgram banded.bytecode,
    (RulesEvaluator.new 20000000).initializeForProgram plain.bytecode)

/-- Above the threshold the rule fires with the default as without. -/
theorem zeroBand_above : ∃ banded plain, (zeroBandSchema "aoa >= 5").compile = .ok banded ∧
      (zeroBandSchema "aoa >= 5").withoutDefaults.compile = .ok plain ∧
      Always (evaluateBoth 5 banded plain) (fun p => p.1.actionsBuffer = p.2.actionsBuffer)
        (zeroBandStart banded plain) [(20000000, fun _ => some (.fin 7))] := by
  have hcode : ((zeroBandSchema "aoa >= 5").compile.toOption.map fun banded =>
      banded.bytecode.instructions) =
        some [.loadVar 0, .loadConst (.fin 5), .hysteresis 0, .jumpFalse 5, .action 0] := by
    decide +kernel
  have hstates : ((zeroBandSchema "aoa >= 5").withoutDefaults.compile.toOption.map fun plain =>
      (plain.bytecode.instructions[2]?, (List.range 5).all fun n =>
        let vm := during (zeroBandStart plain plain).2 plain (fun _ => some (.fin 7)) n
        decide (vm.pc = n ∧ (n = 2 → vm.stack = [.fin 5, .fin 7])))) =
        some (some (.compare .greaterEqual), true) := by
    decide +kernel
  rcases exists_ok_of_map hcode with ⟨banded, hbanded, hcode⟩
  rcases exists_ok_of_map hstates with ⟨plain, hplain, hstates⟩
  rw [Prod.mk.injEq] at hstates
  rcases hstates with ⟨hcompare, hstates⟩
  refine ⟨banded, plain, hbanded, hplain,
    zeroBand_neutral (zeroBandSchema "aoa >= 5") ?_ banded plain hbanded hplain 5
      (RulesEvaluator.new 20000000) _ ?_ ⟨.inr fun n hn => ?_, trivial⟩⟩
  · decide +kernel
  · intro call hcall
    rw [List.mem_singleton.mp hcall]
    exact finiteTelemetry_small 7 (by decide)
  · -- Only the third instruction is a comparison of the angle of attack.
    have hstate := List.all_eq_true.mp hstates n (List.mem_range.mpr hn)
    rw [decide_eq_true_eq] at hstate
    change OperatorKept banded.bytecode plain.bytecode
      (during (zeroBandStart plain plain).2 plain (fun _ => some (.fin 7)) n)
    generalize during (zeroBandStart plain plain).2 plain (fun _ => some (.fin 7)) n = vm
      at hstate ⊢
    rcases hstate with ⟨hpc, hstack⟩
    intro index operator a b rest hhyst hcomp hoperands
    rw [hpc] at hhyst hcomp
    rw [hcode] at hhyst
    -- The machine is at instruction `n` after `n` turns.
    have hthird : n = 2 := by
      rcases n with _ | _ | _ | _ | _ | n <;> simp at hhyst ⊢
    rw [hthird, hcompare, Option.some.injEq, BytecodeOp.compare.injEq] at hcomp
    rw [hstack hthird] at hoperands
    rw [← hcomp, ← (List.cons.inj hoperands).1, ← (List.cons.inj (List.cons.inj hoperands).2).1]
    decide

/-- At the threshold itself the rule fires without the default only. -/
theorem zeroBand_greaterEqual :
    (∀ e ∈ (zeroBandSchema "aoa >= 5").hysteresisDefaults.entries, e.2 = .fin 0) ∧
    FiniteTelemetry (fun _ => some (.fin 5)) ∧
    ∃ banded plain, (zeroBandSchema "aoa >= 5").compile = .ok banded ∧
      (zeroBandSchema "aoa >= 5").withoutDefaults.compile = .ok plain ∧
      ¬ Always (evaluateBoth 5 banded plain) (fun p => p.1.actionsBuffer = p.2.actionsBuffer)
        (zeroBandStart banded plain) [(20000000, fun _ => some (.fin 5))] := by
  have hbanded : ((zeroBandSchema "aoa >= 5").compile.toOption.map fun banded =>
      ((zeroBandSchema "aoa >= 5").withoutDefaults.compile.toOption.map fun plain =>
        ((evaluateBoth 5 banded plain (zeroBandStart banded plain)
            (20000000, fun _ => some (.fin 5))).1.actionsBuffer,
          (evaluateBoth 5 banded plain (zeroBandStart banded plain)
            (20000000, fun _ => some (.fin 5))).2.actionsBuffer)))
        = some (some ([], [.ledOn "indexer".toList])) := by
    decide +kernel
  rcases exists_ok_of_map hbanded with ⟨banded, hbanded, hplain⟩
  rcases exists_ok_of_map hplain with ⟨plain, hplain, hbuffers⟩
  rw [Prod.mk.injEq] at hbuffers
  refine ⟨by decide +kernel, finiteTelemetry_small 5 (by decide), banded, plain, hbanded, hplain,
    fun halways => ?_⟩
  have hlast := (always_iff_states _ _ _ _).mp halways [_] [] rfl
  rw [run_cons, run_nil, hbuffers.1, hbuffers.2] at hlast
  exact absurd hlast (by simp)

end OpenFlight.Rules
