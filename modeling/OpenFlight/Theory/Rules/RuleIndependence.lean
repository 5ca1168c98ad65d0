import OpenFlight.Theory.Rules.CompilerCorrect
import OpenFlight.Lib.Run

/-!
# Rules that Share No Hysteresis State

A rule of a schema fires when it would if it were the only rule of the schema,
as long as no other rule uses its hysteresis states.

The rules of a schema run one after the other on one machine, and what one
leaves behind the next one finds: the stack, and the hysteresis states, of which
there is one for each variable with a band and not one for each rule. The stack
is no danger, since the code of a rule leaves it empty. A hysteresis state is
read and written by the comparisons of its variable only. So the code of a rule
is local to the states of its own variables, `Local`: what it does depends on
them alone, and it leaves the others as they are. Two rules that compare the same
variable do meet in its state.

A rule fires when its action is executed, which is seen in the trace of the
machine. `actionsBuffer_watched` says that what the evaluator returns is the
actions that were executed.

## Main definitions

* `Condition.slots`, `Rule.slots`: The hysteresis states of a rule.
* `Watched`, `firings`: The evaluator, and when a rule fires.

## Theorems

* `firings_alone`: A rule fires as it would alone.
-/

namespace OpenFlight.Rules

open Panels

section

/-- What a comparison reads of a hysteresis state. -/
def reading (state : HysteresisState) : F32 × Bool :=
  (state.band, state.lastTriggered)

/-- The states in the slots read the same. -/
def Agree (slots : List Nat) (hyst hyst' : List HysteresisState) : Prop :=
  ∀ i ∈ slots, (hyst[i]?).map reading = (hyst'[i]?).map reading

theorem agree_refl (slots : List Nat) (hyst : List HysteresisState) : Agree slots hyst hyst :=
  fun _ _ => rfl

/-- The effect uses the hysteresis states in the slots only, and executes no action. -/
structure Local (slots : List Nat) (effect : Memory → Memory) : Prop where
  agree : ∀ m m' : Memory, m.stack = m'.stack → Agree slots m.hyst m'.hyst →
    (effect m).stack = (effect m').stack ∧ Agree slots (effect m).hyst (effect m').hyst
  frame : ∀ m : Memory, ∀ i, i ∉ slots → (effect m).hyst[i]? = m.hyst[i]?
  quiet : ∀ m : Memory, (effect m).fired = m.fired

variable {slots : List Nat} {effect effect' : Memory → Memory}

theorem local_comp (h : Local slots effect) (h' : Local slots effect') :
    Local slots fun m => effect' (effect m) := by
  refine ⟨fun m m' hstack hagree => ?_, fun m i hi => ?_, fun m => ?_⟩
  · rcases h.agree m m' hstack hagree with ⟨hstack', hagree'⟩
    exact h'.agree _ _ hstack' hagree'
  · rw [h'.frame _ i hi, h.frame m i hi]
  · rw [h'.quiet, h.quiet]

/-- An effect on the stack alone. -/
theorem local_of_stack (f : List F32 → List F32)
    (h : ∀ m, effect m = { m with stack := f m.stack }) : Local slots effect := by
  refine ⟨fun m m' hstack hagree => ?_, fun m i _ => ?_, fun m => ?_⟩
  · rw [h, h, hstack]
    exact ⟨rfl, hagree⟩
  · rw [h]
  · rw [h]

theorem local_push (value : F32) : Local slots fun m => m.push value :=
  local_of_stack (fun stack => value :: stack) fun _ => rfl

theorem local_combine (op : F32 → F32 → F32) : Local slots (Memory.combine op) := by
  refine local_of_stack (fun stack => (Memory.combine op { stack := stack }).stack) fun m => ?_
  rcases m with ⟨_ | ⟨b, _ | ⟨a, rest⟩⟩, hyst, fired⟩
  · rfl
  · rfl
  · rfl

theorem local_conjoin : Local slots Memory.conjoin :=
  local_combine _

theorem local_disjoin : Local slots Memory.disjoin :=
  local_combine _

theorem passes_congr {m m' : Memory} (h : m.stack = m'.stack) : m.passes = m'.passes := by
  unfold Memory.passes
  rw [h]

theorem local_guard (h : Local slots effect) : Local slots (Memory.guard effect) := by
  have hpop : Local slots Memory.pop := local_of_stack List.tail fun _ => rfl
  have hbody := local_comp hpop h
  refine ⟨fun m m' hstack hagree => ?_, fun m i hi => ?_, fun m => ?_⟩
  · unfold Memory.guard
    rw [passes_congr hstack]
    split
    · exact hbody.agree m m' hstack hagree
    · exact hpop.agree m m' hstack hagree
  · unfold Memory.guard
    split
    · exact hbody.frame m i hi
    · exact hpop.frame m i hi
  · unfold Memory.guard
    split
    · exact hbody.quiet m
    · exact hpop.quiet m

/-- A comparison by a hysteresis state goes by what it reads there. -/
theorem applyHysteresis_agree {hyst hyst' : List HysteresisState} (index : Nat)
    (hindex : index ∈ slots) (h : Agree slots hyst hyst') (current threshold : F32) :
    (applyHysteresis hyst index current threshold).2 =
      (applyHysteresis hyst' index current threshold).2 ∧
    Agree slots (applyHysteresis hyst index current threshold).1
      (applyHysteresis hyst' index current threshold).1 := by
  have hat := h index hindex
  unfold applyHysteresis
  cases hstate : hyst[index]? with
  | none =>
      rw [hstate, Option.map_none, eq_comm, Option.map_eq_none_iff] at hat
      simp only [hat]
      exact ⟨trivial, h⟩
  | some state =>
      rw [hstate, Option.map_some, eq_comm, Option.map_eq_some_iff] at hat
      rcases hat with ⟨state', hstate', hreading⟩
      rw [reading, reading, Prod.mk.injEq] at hreading
      have htriggered : hysteresisTriggered state current threshold =
          hysteresisTriggered state' current threshold := by
        unfold hysteresisTriggered
        rw [hreading.1, hreading.2]
      simp only [hstate', htriggered, true_and]
      intro i hi
      by_cases heq : index = i
      · subst heq
        have hlt : index < hyst.length := (List.getElem?_eq_some_iff.mp hstate).1
        have hlt' : index < hyst'.length := (List.getElem?_eq_some_iff.mp hstate').1
        rw [List.getElem?_set_self hlt, List.getElem?_set_self hlt', Option.map_some,
          Option.map_some, reading, reading, hreading.1]
      · rw [List.getElem?_set_ne heq, List.getElem?_set_ne heq]
        exact h i hi

theorem applyHysteresis_frame (hyst : List HysteresisState) (index i : Nat) (hi : i ≠ index)
    (current threshold : F32) :
    (applyHysteresis hyst index current threshold).1[i]? = hyst[i]? := by
  unfold applyHysteresis
  cases hyst[index]? with
  | none => rfl
  | some state => exact List.getElem?_set_ne (Ne.symm hi)

end

namespace Condition

/-- The hysteresis state that a leaf uses. -/
def slot (keys : AList fun _ : Text => Nat) : Condition → Option Nat
  | .compare var _ _ => keys.lookup var
  | _ => none

/-- The hysteresis states that a flat condition uses. -/
def slots (keys : AList fun _ : Text => Nat) (c : Condition) : List Nat :=
  c.clauses.flatten.filterMap (slot keys)

end Condition

section

variable (telemetry : Telemetry) (keys : AList fun _ : Text => Nat) (slots : List Nat)

/-- The slot of a leaf, if it has one, is among the slots. -/
def Condition.Within (c : Condition) : Prop :=
  ∀ i, c.slot keys = some i → i ∈ slots

theorem local_leaf (c : Condition) (h : c.IsLeaf) (hwithin : c.Within keys slots) :
    Local slots (c.perform telemetry keys) := by
  cases c with
  | and conditions => exact absurd h (by simp [Condition.IsLeaf])
  | or conditions => exact absurd h (by simp [Condition.IsLeaf])
  | boolean var negate =>
      exact local_of_stack
        (fun stack => ofBool (Condition.eval telemetry (.boolean var negate)) :: stack) fun _ => rfl
  | compare var operator value =>
      change Local slots (Memory.compare telemetry keys var operator value)
      unfold Memory.compare
      cases hkey : keys.lookup var with
      | none => exact local_push _
      | some index =>
          have hindex : index ∈ slots := hwithin index hkey
          refine ⟨fun m m' hstack hagree => ?_, fun m i hi => ?_, fun m => rfl⟩
          · have happly := applyHysteresis_agree index hindex hagree (valueOf telemetry var) value
            simp only [happly.1, hstack, true_and]
            exact happly.2
          · have hne : i ≠ index := by
              rintro rfl
              exact hi hindex
            exact applyHysteresis_frame m.hyst index i hne _ _

/-- The conjuncts after the first. -/
theorem local_andRest (conditions : List Condition) (hleaves : ∀ c ∈ conditions, c.IsLeaf)
    (hwithin : ∀ c ∈ conditions, c.Within keys slots) :
    Local slots (Condition.performAndRest telemetry keys conditions) := by
  induction conditions with
  | nil => exact local_of_stack id fun _ => rfl
  | cons c rest ih =>
      have hc := local_leaf telemetry keys slots c (hleaves c List.mem_cons_self)
        (hwithin c List.mem_cons_self)
      have hrest := ih (fun d hd => hleaves d (List.mem_cons_of_mem c hd))
        (fun d hd => hwithin d (List.mem_cons_of_mem c hd))
      have hboth := local_comp (local_guard (local_comp hc local_conjoin)) hrest
      exact hboth

theorem local_clause (c : Condition) (h : c.IsClause)
    (hwithin : ∀ l ∈ c.literals, l.Within keys slots) :
    Local slots (c.perform telemetry keys) := by
  rcases h.leaf_or_and with hleaf | ⟨first, second, rest, rfl, hfirst, hrest⟩
  · rw [literals_leaf c hleaf] at hwithin
    exact local_leaf telemetry keys slots c hleaf (hwithin c List.mem_cons_self)
  · have hlocal := local_leaf telemetry keys slots first hfirst
      (hwithin first List.mem_cons_self)
    have hothers := local_andRest telemetry keys slots (second :: rest)
      (List.forall_mem_cons.mpr hrest) fun d hd => hwithin d (List.mem_cons_of_mem first hd)
    have hboth := local_comp hlocal hothers
    exact hboth

/-- The clauses after the first. -/
theorem local_orRest (conditions : List Condition) (hclauses : ∀ c ∈ conditions, c.IsClause)
    (hwithin : ∀ c ∈ conditions, ∀ l ∈ c.literals, l.Within keys slots) :
    Local slots (Condition.performOrRest telemetry keys conditions) := by
  induction conditions with
  | nil => exact local_of_stack id fun _ => rfl
  | cons c rest ih =>
      have hc := local_clause telemetry keys slots c (hclauses c List.mem_cons_self)
        (hwithin c List.mem_cons_self)
      have hrest := ih (fun d hd => hclauses d (List.mem_cons_of_mem c hd))
        (fun d hd => hwithin d (List.mem_cons_of_mem c hd))
      have hboth := local_comp (local_comp hc local_disjoin) hrest
      exact hboth

/-- The code of a flat condition uses the hysteresis states of its comparisons. -/
theorem local_perform (c : Condition) (h : c.IsFlat) :
    Local (c.slots keys) (c.perform telemetry keys) := by
  have hwithin : ∀ clause ∈ c.clauses, ∀ l ∈ clause, l.Within keys (c.slots keys) := by
    intro clause hclause l hl i hi
    exact List.mem_filterMap.mpr ⟨l, List.mem_flatten.mpr ⟨clause, hclause, hl⟩, hi⟩
  generalize c.slots keys = slots at hwithin ⊢
  cases c with
  | or conditions =>
      rcases h with ⟨htwo, hclauses⟩
      rcases conditions with _ | ⟨first, rest⟩
      · exact absurd htwo (by simp)
      · have hall : ∀ d ∈ first :: rest, ∀ l ∈ d.literals, l.Within keys slots := by
          intro d hd
          exact hwithin d.literals (List.mem_map.mpr ⟨d, hd, rfl⟩)
        have hfirst := local_clause telemetry keys slots first (hclauses first List.mem_cons_self)
          (hall first List.mem_cons_self)
        have hrest := local_orRest telemetry keys slots rest
          (fun d hd => hclauses d (List.mem_cons_of_mem first hd))
          (fun d hd => hall d (List.mem_cons_of_mem first hd))
        have hboth := local_comp hfirst hrest
        exact hboth
  | _ => exact local_clause telemetry keys slots _ h (hwithin _ List.mem_cons_self)

end

section

variable (telemetry : Telemetry) (keys : AList fun _ : Text => Nat) (c : Condition)

theorem length_leaf (h : c.IsLeaf) (m : Memory) :
    (c.perform telemetry keys m).stack.length = m.stack.length + 1 := by
  cases c with
  | and conditions => exact absurd h (by simp [Condition.IsLeaf])
  | or conditions => exact absurd h (by simp [Condition.IsLeaf])
  | boolean var negate =>
      rw [Condition.perform]
      rfl
  | compare var operator value =>
      rw [Condition.perform]
      unfold Memory.compare
      cases keys.lookup var with
      | none => rfl
      | some index => rfl

theorem length_combine (op : F32 → F32 → F32) (m : Memory) (h : m.stack.length ≤ 2) :
    (m.combine op).stack.length ≤ 1 := by
  rcases m with ⟨_ | ⟨b, _ | ⟨a, rest⟩⟩, hyst, fired⟩
  · exact Nat.zero_le _
  · exact Nat.le_refl _
  · simpa [Memory.combine] using h

/-- A conjunct after the first leaves at most one value, also above one that was there before. -/
theorem length_conjunct (h : c.IsLeaf) (m : Memory) (hm : m.stack.length ≤ 2) :
    (Memory.guard (fun m => (c.perform telemetry keys m).conjoin) m).stack.length ≤ 1 := by
  have hpop : m.pop.stack.length ≤ 1 := by
    simp only [Memory.pop, List.length_tail]
    omega
  unfold Memory.guard
  split
  · refine length_combine _ _ ?_
    rw [length_leaf telemetry keys c h]
    omega
  · exact hpop

theorem length_andRest (conditions : List Condition) (hleaves : ∀ c ∈ conditions, c.IsLeaf)
    (m : Memory) (hm : m.stack.length ≤ 1) :
    (Condition.performAndRest telemetry keys conditions m).stack.length ≤ 1 := by
  induction conditions generalizing m with
  | nil =>
      rw [Condition.performAndRest]
      exact hm
  | cons c rest ih =>
      rw [Condition.performAndRest]
      refine ih (fun d hd => hleaves d (List.mem_cons_of_mem c hd)) _ ?_
      exact length_conjunct telemetry keys c (hleaves c List.mem_cons_self) m
        (Nat.le_succ_of_le hm)

/-- A clause on an empty stack leaves at most one value, and so does a clause
    above a value with the `Or` after it. -/
theorem length_clause (h : c.IsClause) (m : Memory) :
    (m.stack = [] → (c.perform telemetry keys m).stack.length ≤ 1) ∧
    (m.stack.length ≤ 1 → (c.perform telemetry keys m).disjoin.stack.length ≤ 1) := by
  rcases h.leaf_or_and with hleaf | ⟨first, second, rest, rfl, hfirst, hsecond, hrest⟩
  · have hlength := length_leaf telemetry keys c hleaf m
    refine ⟨fun hm => ?_, fun hm => length_combine _ _ (by omega)⟩
    rw [hlength, hm]
    exact Nat.le_refl _
  · have hlength := length_leaf telemetry keys first hfirst m
    have hand : m.stack.length ≤ 1 →
        (Condition.perform telemetry keys (.and (first :: second :: rest)) m).stack.length
          ≤ 1 := by
      intro hm
      rw [Condition.perform, Condition.performAnd, Condition.performAndRest]
      refine length_andRest telemetry keys rest hrest _ ?_
      exact length_conjunct telemetry keys second hsecond _ (by omega)
    refine ⟨fun hm => hand (by simp [hm]), fun hm => ?_⟩
    exact length_combine _ _ (Nat.le_succ_of_le (hand hm))

theorem length_orRest (conditions : List Condition) (hclauses : ∀ c ∈ conditions, c.IsClause)
    (m : Memory) (hm : m.stack.length ≤ 1) :
    (Condition.performOrRest telemetry keys conditions m).stack.length ≤ 1 := by
  induction conditions generalizing m with
  | nil =>
      rw [Condition.performOrRest]
      exact hm
  | cons c rest ih =>
      rw [Condition.performOrRest]
      refine ih (fun d hd => hclauses d (List.mem_cons_of_mem c hd)) _ ?_
      exact (length_clause telemetry keys c (hclauses c List.mem_cons_self) m).2 hm

theorem length_perform (h : c.IsFlat) (m : Memory) (hm : m.stack = []) :
    (c.perform telemetry keys m).stack.length ≤ 1 := by
  cases c with
  | boolean var negate => exact (length_clause telemetry keys (.boolean var negate) h m).1 hm
  | compare var operator value =>
      exact (length_clause telemetry keys (.compare var operator value) h m).1 hm
  | and conditions => exact (length_clause telemetry keys (.and conditions) h m).1 hm
  | or conditions =>
      rcases h with ⟨htwo, hclauses⟩
      rcases conditions with _ | ⟨first, rest⟩
      · exact absurd htwo (by simp)
      · rw [Condition.perform, Condition.performOr]
        refine length_orRest telemetry keys rest
          (fun d hd => hclauses d (List.mem_cons_of_mem first hd)) _ ?_
        exact (length_clause telemetry keys first (hclauses first List.mem_cons_self) m).1 hm

/-- The code of a rule starts and ends with an empty stack. -/
theorem stack_performRule (index : Nat) (c : Condition) (h : c.IsFlat) (m : Memory)
    (hm : m.stack = []) : (performRule telemetry keys index c m).stack = [] := by
  have hlength := length_perform telemetry keys c h m hm
  have hpop : (c.perform telemetry keys m).pop.stack = [] := by
    rw [← List.length_eq_zero_iff, Memory.pop, List.length_tail]
    omega
  unfold performRule Memory.guard
  split
  · exact hpop
  · exact hpop

end

section

variable (telemetry : Telemetry) (keys : AList fun _ : Text => Nat)

theorem hyst_performRule (index : Nat) (c : Condition) (m : Memory) :
    (performRule telemetry keys index c m).hyst = (c.perform telemetry keys m).hyst := by
  unfold performRule Memory.guard
  split
  · rfl
  · rfl

theorem fired_performRule (index : Nat) (c : Condition) (h : c.IsFlat) (m : Memory) :
    (performRule telemetry keys index c m).fired =
      m.fired ++ if (c.perform telemetry keys m).passes then [index] else [] := by
  have hquiet := (local_perform telemetry keys c h).quiet m
  unfold performRule Memory.guard
  split
  · exact congrArg (· ++ [index]) hquiet
  · rw [List.append_nil]
    exact hquiet

theorem performRules_append (first second : List ParsedRule) (n : Nat) (m : Memory) :
    performRules telemetry keys n (first ++ second) m =
      performRules telemetry keys (n + first.length) second
        (performRules telemetry keys n first m) := by
  induction first generalizing n m with
  | nil => rfl
  | cons rule rest ih =>
      rw [List.cons_append, performRules, ih, performRules, List.length_cons,
        show n + 1 + rest.length = n + (rest.length + 1) by omega]

/-- Rules with other slots leave the stack empty and the slots alone, and execute
    actions of their own. -/
theorem performRules_frame (slots : List Nat) (rules : List ParsedRule)
    (hflat : ∀ rule ∈ rules, rule.1.IsFlat)
    (hother : ∀ rule ∈ rules, ∀ i ∈ rule.1.slots keys, i ∉ slots) (n : Nat) (m : Memory)
    (hm : m.stack = []) :
    (performRules telemetry keys n rules m).stack = [] ∧
    (∀ i ∈ slots, (performRules telemetry keys n rules m).hyst[i]? = m.hyst[i]?) ∧
    ∃ later, (performRules telemetry keys n rules m).fired = m.fired ++ later ∧
      ∀ index ∈ later, ∃ k, n ≤ k ∧ k < n + rules.length ∧ index = toU16 k := by
  induction rules generalizing n m with
  | nil => exact ⟨hm, fun _ _ => rfl, [], (List.append_nil _).symm, by simp⟩
  | cons rule rest ih =>
      have hrule := hflat rule List.mem_cons_self
      rcases ih (fun r hr => hflat r (List.mem_cons_of_mem rule hr))
        (fun r hr => hother r (List.mem_cons_of_mem rule hr)) (n + 1) _
        (stack_performRule telemetry keys (toU16 n) rule.1 hrule m hm)
        with ⟨hstack, hframe, later, hfired, hlater⟩
      rw [performRules]
      refine ⟨hstack, fun i hi => ?_, (if (rule.1.perform telemetry keys m).passes then [toU16 n]
        else []) ++ later, ?_, fun index hindex => ?_⟩
      · rw [hframe i hi, hyst_performRule]
        refine (local_perform telemetry keys rule.1 hrule).frame m i fun hslot => ?_
        exact hother rule List.mem_cons_self i hslot hi
      · rw [hfired, fired_performRule telemetry keys _ _ hrule, List.append_assoc]
      · rw [List.length_cons]
        rcases List.mem_append.mp hindex with hown | hrest
        · split at hown
          · exact ⟨n, Nat.le_refl n, by omega, List.mem_singleton.mp hown⟩
          · exact absurd hown List.not_mem_nil
        · rcases hlater index hrest with ⟨k, hle, hlt, heq⟩
          exact ⟨k, by omega, by omega, heq⟩

end

/-- An evaluator, and the indices of the actions that its last evaluation executed. -/
structure Watched where
  evaluator : RulesEvaluator
  fired : List Nat := []

/-- `evaluate`. When it is called too early it returns what it returned last. -/
def Watched.evaluate (w : Watched) (fuel : Nat) (rules : CompiledRules)
    (call : Instant × Telemetry) : Watched where
  evaluator := w.evaluator.evaluate fuel call.1 rules call.2
  fired :=
    if durationSince call.1 w.evaluator.lastEval < w.evaluator.minEvalInterval then w.fired
    else
      trace
        (vmStep rules.bytecode (RulesEvaluator.updateVariableCache w.evaluator.variableCache
          rules.bytecode call.2))
        (firedAction rules.bytecode) fuel
        { stack := w.evaluator.stack, hysteresisState := w.evaluator.hysteresisState }

/-- Whether the action with an index fires, call by call. -/
def firings (fuel : Nat) (rules : CompiledRules) (index : Nat) :
    Watched → List (Instant × Telemetry) → List Bool
  | _, [] => []
  | w, call :: rest =>
      decide (index ∈ (w.evaluate fuel rules call).fired) ::
        firings fuel rules index (w.evaluate fuel rules call) rest

theorem actionsBuffer_vmExecute (program : BytecodeProgram) (cache : List F32) (vm : Vm)
    (op : BytecodeOp) :
    (vmExecute program cache vm op).actionsBuffer = vm.actionsBuffer ++
      op.actionIndex.toList.filterMap (program.actions[·]?) := by
  rcases vm with ⟨pc, stack, hyst, buffer⟩
  cases op with
  | action index =>
      cases hfetch : program.actions[index]? with
      | none => simp [vmExecute, BytecodeOp.actionIndex, hfetch]
      | some action => simp [vmExecute, BytecodeOp.actionIndex, hfetch]
  | jumpFalse addr =>
      rcases stack with _ | ⟨condition, rest⟩
      · exact (List.append_nil _).symm
      · by_cases hfalse : condition.eq (.fin 0) = true
        · simp [vmExecute, BytecodeOp.actionIndex, hfalse]
        · simp [vmExecute, BytecodeOp.actionIndex, hfalse]
  -- The others look at the stack at most, and none of them at the buffer.
  | _ =>
      rcases stack with _ | ⟨b, _ | ⟨a, rest⟩⟩
      · exact (List.append_nil _).symm
      · exact (List.append_nil _).symm
      · exact (List.append_nil _).symm

/-- The machine's buffer is made of the actions that it executes. -/
theorem actionsBuffer_execute (program : BytecodeProgram) (cache : List F32) (fuel : Nat)
    (vm : Vm) :
    (execute program cache fuel vm).actionsBuffer = vm.actionsBuffer ++
      (trace (vmStep program cache) (firedAction program) fuel vm).filterMap
        (program.actions[·]?) := by
  unfold execute
  induction fuel generalizing vm with
  | zero => exact (List.append_nil _).symm
  | succ fuel ih =>
      cases hfetch : program.instructions[vm.pc]? with
      | none =>
          have hstep : vmStep program cache vm = none := by
            rw [vmStep, hfetch, Option.map_none]
          rw [exec, trace, hstep]
          exact (List.append_nil _).symm
      | some op =>
          have hstep : vmStep program cache vm = some (vmExecute program cache vm op) := by
            rw [vmStep, hfetch, Option.map_some]
          rw [exec, trace, hstep]
          simp only [ih, actionsBuffer_vmExecute, firedAction, hfetch, Option.bind_some,
            List.filterMap_append, List.append_assoc]

/-- At every call the evaluator returns the actions that fired, in their order. -/
theorem actionsBuffer_watched (fuel : Nat) (rules : CompiledRules) (w : Watched)
    (hw : w.evaluator.actionsBuffer = w.fired.filterMap (rules.bytecode.actions[·]?))
    (calls : List (Instant × Telemetry)) :
    (run (fun w call => w.evaluate fuel rules call) w calls).evaluator.actionsBuffer =
      (run (fun w call => w.evaluate fuel rules call) w calls).fired.filterMap
        (rules.bytecode.actions[·]?) := by
  refine run_invariant _ (fun w : Watched =>
    w.evaluator.actionsBuffer = w.fired.filterMap (rules.bytecode.actions[·]?)) ?_ w calls hw
  intro w call hw
  unfold Watched.evaluate RulesEvaluator.evaluate
  by_cases hearly : durationSince call.1 w.evaluator.lastEval < w.evaluator.minEvalInterval
  · simp only [if_pos hearly]
    exact hw
  · simp only [if_neg hearly]
    exact actionsBuffer_execute _ _ _ _
section

variable (telemetry : Telemetry) (keys : AList fun _ : Text => Nat)

/-- One evaluation of a list of rules, seen from one of them that shares no
    hysteresis state with the others. -/
theorem performRules_at (before after : List ParsedRule) (rule : ParsedRule)
    (hflat : ∀ r ∈ before ++ rule :: after, r.1.IsFlat)
    (hbefore : ∀ r ∈ before, ∀ i ∈ r.1.slots keys, i ∉ rule.1.slots keys)
    (hafter : ∀ r ∈ after, ∀ i ∈ r.1.slots keys, i ∉ rule.1.slots keys)
    (hfew : (before ++ rule :: after).length ≤ 2 ^ 16) (hyst hyst' : List HysteresisState)
    (hagree : Agree (rule.1.slots keys) hyst hyst') :
    (before.length ∈ (performRules telemetry keys 0 (before ++ rule :: after)
        { hyst := hyst }).fired ↔
      0 ∈ (performRules telemetry keys 0 [rule] { hyst := hyst' }).fired) ∧
    Agree (rule.1.slots keys)
      (performRules telemetry keys 0 (before ++ rule :: after) { hyst := hyst }).hyst
      (performRules telemetry keys 0 [rule] { hyst := hyst' }).hyst := by
  have hrule : rule.1.IsFlat := hflat rule (by simp)
  rw [List.length_append, List.length_cons] at hfew
  -- What the rules before leave.
  rcases performRules_frame telemetry keys (rule.1.slots keys) before
    (fun r hr => hflat r (by simp [hr])) hbefore 0 { hyst := hyst } rfl
    with ⟨hstack, hframe, earlier, hearlier, hindices⟩
  have hnumber : toU16 before.length = before.length := toU16_of_lt _ (by omega)
  rw [performRules_append, performRules, Nat.zero_add, hnumber]
  generalize performRules telemetry keys 0 before { hyst := hyst } = m at *
  have hagree' : Agree (rule.1.slots keys) m.hyst hyst' := by
    intro i hi
    rw [hframe i hi]
    exact hagree i hi
  have hlocal := local_perform telemetry keys rule.1 hrule
  rcases hlocal.agree m { hyst := hyst' } hstack hagree' with ⟨hstack', hagree''⟩
  have hpasses := passes_congr hstack'
  -- What the rules after it change.
  rcases performRules_frame telemetry keys (rule.1.slots keys) after
    (fun r hr => hflat r (by simp [hr])) hafter (before.length + 1) _
    (stack_performRule telemetry keys before.length rule.1 hrule m hstack)
    with ⟨-, hframe', later, hlater, hindices'⟩
  rw [hlater, fired_performRule telemetry keys _ _ hrule, hearlier]
  simp only [performRules]
  rw [fired_performRule telemetry keys _ _ hrule, hpasses, hyst_performRule]
  constructor
  · have hnotEarlier : before.length ∉ earlier := by
      intro hmem
      rcases hindices _ hmem with ⟨k, -, hlt, heq⟩
      rw [toU16_of_lt k (by omega)] at heq
      omega
    have hnotLater : before.length ∉ later := by
      intro hmem
      rcases hindices' _ hmem with ⟨k, hle, hlt, heq⟩
      rw [toU16_of_lt k (by omega)] at heq
      omega
    cases (rule.1.perform telemetry keys { hyst := hyst' }).passes with
    | false => simp [hnotEarlier, hnotLater]
    | true => simp [toU16]
  · intro i hi
    rw [hframe' i hi, hyst_performRule]
    exact hagree'' i hi

theorem grows_compileRules (st : BytecodeCompiler) (rules : List ParsedRule) (h : Fresh st) :
    Grows st (compileRules st rules) :=
  (performs_compileRules (fun _ => none) rules st (counted_of_fresh st h)).grows

/-- The evaluator is where an evaluation of the program of some rules leaves it. -/
structure Ready (st : BytecodeCompiler) (rules : List ParsedRule) (ev : RulesEvaluator) : Prop where
  stack : ev.stack = []
  cache : ev.variableCache.length = (compileRules st rules).variableMap.entries.length

variable {st : BytecodeCompiler} {rules : List ParsedRule} {compiled : CompiledRules}

theorem ready_fresh (hcode : compiled.bytecode = (compileRules st rules).finalize)
    (ev : RulesEvaluator) : Ready st rules (ev.initializeForProgram compiled.bytecode) := by
  refine ⟨rfl, ?_⟩
  rw [hcode]
  exact List.length_replicate

section

variable (w : Watched) (fuel : Nat) (rules : CompiledRules) (call : Instant × Telemetry)

theorem evaluate_of_early
    (h : durationSince call.1 w.evaluator.lastEval < w.evaluator.minEvalInterval) :
    w.evaluate fuel rules call = w := by
  unfold Watched.evaluate RulesEvaluator.evaluate
  simp only [if_pos h]

theorem lastEval_of_due
    (h : ¬ durationSince call.1 w.evaluator.lastEval < w.evaluator.minEvalInterval) :
    (w.evaluate fuel rules call).evaluator.lastEval = call.1 := by
  unfold Watched.evaluate RulesEvaluator.evaluate
  simp only [if_neg h]

theorem minEvalInterval_evaluate :
    (w.evaluate fuel rules call).evaluator.minEvalInterval = w.evaluator.minEvalInterval := by
  unfold Watched.evaluate RulesEvaluator.evaluate
  split
  · rfl
  · rfl

end

/-- An evaluation that is not too early. -/
theorem watched_evaluate (hfresh : Fresh st) (hflat : ∀ rule ∈ rules, rule.1.IsFlat)
    (hcode : compiled.bytecode = (compileRules st rules).finalize)
    (hshort : (compileRules st rules).instructions.length < 2 ^ 16) (fuel : Nat)
    (hfuel : (compileRules st rules).instructions.length ≤ fuel) (w : Watched)
    (hready : Ready st rules w.evaluator) (call : Instant × Telemetry)
    (hdue : ¬ durationSince call.1 w.evaluator.lastEval < w.evaluator.minEvalInterval) :
    (w.evaluate fuel compiled call).fired =
      (performRules call.2 st.hysteresisMap 0 rules
        { hyst := w.evaluator.hysteresisState }).fired ∧
    (w.evaluate fuel compiled call).evaluator.hysteresisState =
      (performRules call.2 st.hysteresisMap 0 rules
        { hyst := w.evaluator.hysteresisState }).hyst ∧
    Ready st rules (w.evaluate fuel compiled call).evaluator := by
  have hexecute := execute_compileRules call.2 st hfresh rules w.evaluator.variableCache
    { hyst := w.evaluator.hysteresisState } rfl fuel hshort hready.cache hfuel
  have hempty := performRules_frame call.2 st.hysteresisMap [] rules hflat (by simp) 0
    { hyst := w.evaluator.hysteresisState } rfl
  have hstart : Memory.place { hyst := w.evaluator.hysteresisState }
      (compileRules st rules).finalize [] 0 =
        { stack := w.evaluator.stack, hysteresisState := w.evaluator.hysteresisState } := by
    rw [hready.stack]
    rfl
  rw [hstart, ← hcode] at hexecute
  unfold Watched.evaluate RulesEvaluator.evaluate
  simp only [if_neg hdue]
  refine ⟨hexecute.2, ?_, ?_, ?_⟩
  · rw [hexecute.1]
    rfl
  · rw [hexecute.1]
    exact hempty.1
  · rw [length_updateVariableCache]
    exact hready.cache

/-- A schema with a rule, and one with only that rule, evaluated at the same times. -/
structure Paired (slots : List Nat) (index : Nat) (w w' : Watched) : Prop where
  lastEval : w.evaluator.lastEval = w'.evaluator.lastEval
  minEvalInterval : w.evaluator.minEvalInterval = w'.evaluator.minEvalInterval
  agree : Agree slots w.evaluator.hysteresisState w'.evaluator.hysteresisState
  fired : index ∈ w.fired ↔ 0 ∈ w'.fired

theorem getElem?_of_forall₂ {α β : Type*} {R : α → β → Prop} {l : List α} {l' : List β}
    (h : List.Forall₂ R l l') (j : Nat) :
    (l[j]? = none ∧ l'[j]? = none) ∨ ∃ a b, l[j]? = some a ∧ l'[j]? = some b ∧ R a b := by
  induction h generalizing j with
  | nil => exact Or.inl ⟨rfl, rfl⟩
  | cons hab _ ih =>
      cases j with
      | zero => exact Or.inr ⟨_, _, rfl, rfl, hab⟩
      | succ j => exact ih j

/-- The hysteresis states that the comparisons of a rule use. -/
def Rule.slots (keys : AList fun _ : Text => Nat) (rule : Rule) : List Nat :=
  match parseCondition rule.when with
  | .ok condition => condition.slots keys
  | .error _ => []

theorem slots_of_parseRule (rule : Rule) (p : ParsedRule) (h : parseRule rule = .ok p) :
    rule.slots keys = p.1.slots keys := by
  unfold Rule.slots
  rw [(parseRule_ok rule p h).1]

/-- The parsed rules around one that shares no slot with another rule. -/
theorem exists_split_unshared (rules : List Rule) (parsed : List ParsedRule)
    (hparsed : rules.mapM parseRule = .ok parsed) (i : Nat) (rule : Rule)
    (hrule : rules[i]? = some rule)
    (hunshared : ∀ j other, rules[j]? = some other → j ≠ i →
      ∀ slot ∈ other.slots keys, slot ∉ rule.slots keys) :
    ∃ before p after, parsed = before ++ p :: after ∧ before.length = i ∧
      parseRule rule = .ok p ∧
      (∀ r ∈ before, ∀ slot ∈ r.1.slots keys, slot ∉ p.1.slots keys) ∧
      ∀ r ∈ after, ∀ slot ∈ r.1.slots keys, slot ∉ p.1.slots keys := by
  have hforall := forall₂_parseRule rules parsed hparsed
  rcases getElem?_of_forall₂ hforall i with ⟨hnone, -⟩ | ⟨rule', p, hrule', hp, hparse⟩
  · rw [hrule] at hnone
    exact nomatch hnone
  rw [hrule, Option.some.injEq] at hrule'
  rw [← hrule'] at hparse
  have hother : ∀ j q, parsed[j]? = some q → j ≠ i →
      ∀ slot ∈ q.1.slots keys, slot ∉ p.1.slots keys := by
    intro j q hq hj
    rcases getElem?_of_forall₂ hforall j with ⟨-, hnone⟩ | ⟨other, q', hother, hq', hparse'⟩
    · rw [hq] at hnone
      exact nomatch hnone
    · rw [hq, Option.some.injEq] at hq'
      rw [hq', ← slots_of_parseRule _ other q' hparse', ← slots_of_parseRule _ rule p hparse]
      exact hunshared j other hother hj
  rcases List.getElem?_eq_some_iff.mp hp with ⟨hi, hget⟩
  refine ⟨parsed.take i, p, parsed.drop (i + 1), ?_, ?_, hparse, ?_, ?_⟩
  · rw [← hget, ← List.drop_eq_getElem_cons hi, List.take_append_drop]
  · exact List.length_take_of_le (Nat.le_of_lt hi)
  · intro r hr
    rcases List.mem_iff_getElem?.mp hr with ⟨j, hj⟩
    rw [List.getElem?_take] at hj
    split at hj
    · exact hother j r hj (by omega)
    · exact nomatch hj
  · intro r hr
    rcases List.mem_iff_getElem?.mp hr with ⟨j, hj⟩
    rw [List.getElem?_drop] at hj
    exact hother _ r hj (by omega)

section

variable {before after : List ParsedRule} {rule : ParsedRule} {alone : CompiledRules}
  (hfresh : Fresh st)
  (hflat : ∀ r ∈ before ++ rule :: after, r.1.IsFlat)
  (hbefore : ∀ r ∈ before, ∀ i ∈ r.1.slots st.hysteresisMap, i ∉ rule.1.slots st.hysteresisMap)
  (hafter : ∀ r ∈ after, ∀ i ∈ r.1.slots st.hysteresisMap, i ∉ rule.1.slots st.hysteresisMap)
  (hcode : compiled.bytecode = (compileRules st (before ++ rule :: after)).finalize)
  (hcode' : alone.bytecode = (compileRules st [rule]).finalize)
  (hshort : (compileRules st (before ++ rule :: after)).instructions.length < 2 ^ 16)
  (fuel : Nat)
  (hfuel : (compileRules st (before ++ rule :: after)).instructions.length ≤ fuel)

include hfresh hflat hbefore hafter hcode hcode' hshort hfuel

section

variable (w w' : Watched) (hready : Ready st (before ++ rule :: after) w.evaluator)
  (hready' : Ready st [rule] w'.evaluator)
  (h : Paired (rule.1.slots st.hysteresisMap) before.length w w')

include w w' hready hready' h

theorem paired_evaluate (call : Instant × Telemetry) :
    Ready st (before ++ rule :: after) (w.evaluate fuel compiled call).evaluator ∧
    Ready st [rule] (w'.evaluate fuel alone call).evaluator ∧
    Paired (rule.1.slots st.hysteresisMap) before.length (w.evaluate fuel compiled call)
      (w'.evaluate fuel alone call) := by
  by_cases hearly : durationSince call.1 w.evaluator.lastEval < w.evaluator.minEvalInterval
  · have hearly' := hearly
    rw [h.lastEval, h.minEvalInterval] at hearly'
    rw [evaluate_of_early w fuel compiled call hearly, evaluate_of_early w' fuel alone call hearly']
    exact ⟨hready, hready', h⟩
  · have hdue' := hearly
    rw [h.lastEval, h.minEvalInterval] at hdue'
    have hrule : rule.1.IsFlat := hflat rule (by simp)
    have hlengths := (adds_compileRules (before ++ rule :: after) st).length
    have hlengths' := (adds_compileRules [rule] st).length
    simp only [List.map_append, List.map_cons, List.sum_append, List.sum_cons, List.map_nil,
      List.sum_nil] at hlengths hlengths'
    rcases watched_evaluate hfresh hflat hcode hshort fuel hfuel w hready call hearly with
      ⟨hfired, hhyst, hnext⟩
    rcases watched_evaluate hfresh (by simpa using hrule) hcode' (by omega) fuel (by omega) w'
      hready' call hdue' with ⟨hfired', hhyst', hnext'⟩
    have hfew : (before ++ rule :: after).length ≤ 2 ^ 16 := by
      have hactions := ((grows_compileRules st (before ++ rule :: after) hfresh).counted
        (counted_of_fresh st hfresh)).fewActions
      rw [(adds_compileRules _ st).actions, hfresh.actions, List.nil_append, List.length_map]
        at hactions
      omega
    have hat := performRules_at call.2 st.hysteresisMap before after rule hflat hbefore hafter hfew
      w.evaluator.hysteresisState w'.evaluator.hysteresisState h.agree
    rw [← hfired, ← hhyst, ← hfired', ← hhyst'] at hat
    refine ⟨hnext, hnext', ?_, ?_, hat.2, hat.1⟩
    · rw [lastEval_of_due w fuel compiled call hearly, lastEval_of_due w' fuel alone call hdue']
    · rw [minEvalInterval_evaluate, minEvalInterval_evaluate, h.minEvalInterval]

/-- The two evaluators, call by call. -/
theorem firings_congr (calls : List (Instant × Telemetry)) :
    firings fuel compiled before.length w calls = firings fuel alone 0 w' calls := by
  induction calls generalizing w w' with
  | nil => rfl
  | cons call rest ih =>
      rcases paired_evaluate hfresh hflat hbefore hafter hcode hcode' hshort fuel hfuel w w' hready
        hready' h call with ⟨hnext, hnext', hpaired⟩
      rw [firings, firings, ih _ _ hnext hnext' hpaired, decide_eq_decide.mpr hpaired.fired]

end

end

/-- A rule of a schema whose program has 16-bit addresses, and that shares no hysteresis state with
    another rule, fires at the same calls as if it were the only rule. -/
theorem firings_alone (schema : RulesSchema) (compiled : CompiledRules)
    (hcompile : schema.compile = .ok compiled)
    (hshort : compiled.bytecode.instructions.length ≤ 65535) (i : Nat) (rule : Rule)
    (hrule : schema.rules[i]? = some rule)
    (hunshared : ∀ j other, schema.rules[j]? = some other → j ≠ i →
      ∀ slot ∈ other.slots compiled.bytecode.hysteresisMap,
        slot ∉ rule.slots compiled.bytecode.hysteresisMap)
    (ev : RulesEvaluator) (fuel : Nat)
    (hfuel : compiled.bytecode.instructions.length ≤ fuel) (calls : List (Instant × Telemetry)) :
    ∃ alone, { schema with rules := [rule] }.compile = .ok alone ∧
      firings fuel compiled i { evaluator := ev.initializeForProgram compiled.bytecode } calls =
        firings fuel alone 0 { evaluator := ev.initializeForProgram alone.bytecode } calls := by
  rcases compile_ok schema compiled hcompile with ⟨parsed, hparsed, hcode, hflat⟩
  have hkeys : compiled.bytecode.hysteresisMap = schema.initialCompiler.hysteresisMap := by
    rw [hcode]
    exact (grows_compileRules schema.initialCompiler parsed (fresh_initialCompiler schema)).keys
  rw [hkeys] at hunshared
  -- No other rule, before or after, has a slot of this one.
  rcases exists_split_unshared _ schema.rules parsed hparsed i rule hrule hunshared with
    ⟨before, p, after, hsplit, hlength, hparse, hbefore, hafter⟩
  have hsingle : [rule].mapM parseRule = .ok [p] := by
    rw [List.mapM_cons, hparse]
    rfl
  refine ⟨_, compile_of_parsed { schema with rules := [rule] } [p] hsingle, ?_⟩
  have hshort' : (compileRules schema.initialCompiler parsed).instructions.length < 2 ^ 16 := by
    rw [hcode] at hshort
    exact Nat.lt_succ_of_le hshort
  have hfuel' : (compileRules schema.initialCompiler parsed).instructions.length ≤ fuel := by
    rw [hcode] at hfuel
    exact hfuel
  subst hsplit
  subst hlength
  refine firings_congr (fresh_initialCompiler schema) hflat hbefore hafter hcode rfl hshort' fuel
    hfuel' _ _ (ready_fresh hcode ev) (ready_fresh rfl ev) ?_ calls
  have hbands := grows_compileRules schema.initialCompiler (before ++ p :: after)
    (fresh_initialCompiler schema) |>.bands
  have hbands' := grows_compileRules schema.initialCompiler [p] (fresh_initialCompiler schema)
    |>.bands
  have hstates : (ev.initializeForProgram compiled.bytecode).hysteresisState =
      (ev.initializeForProgram
        (compileRules schema.initialCompiler [p]).finalize).hysteresisState := by
    rw [hcode]
    exact congrArg (List.map _) (hbands.trans hbands'.symm)
  refine ⟨rfl, rfl, ?_, by simp⟩
  rw [hstates]
  exact agree_refl _ _

end

/-- Two rules under hysteresis bands of four for the angle of attack and ten for the speed. -/
def alphaSchema (second : String) : RulesSchema :=
  { schema := "flight.ledmap/1".toList
    rules :=
      [{ when := "aoa > 10".toList, action := "led.indexer.on()".toList },
        { when := second.toList, action := "led.indexer.off()".toList }]
    defaults := some
      { hysteresis := some
          ((AList.singleton "aoa".toList (.fin 4)).insert "ias".toList (.fin 10)) } }

/-- The rule on the angle of attack alone. -/
def alphaAlone : RulesSchema :=
  { alphaSchema "" with
    rules := [{ when := "aoa > 10".toList, action := "led.indexer.on()".toList }] }

/-- The angle of attack goes up to fifteen and back to ten. -/
def alphaCalls : List (Instant × Telemetry) :=
  [(20000000, fun _ => some (.fin 15)), (40000000, fun _ => some (.fin 10))]

theorem firings_alone_apart : ∃ compiled alone, (alphaSchema "ias > 90").compile = .ok compiled ∧
      alphaAlone.compile = .ok alone ∧
      firings 10 compiled 0
          { evaluator := (RulesEvaluator.new 20000000).initializeForProgram compiled.bytecode }
          alphaCalls =
        firings 10 alone 0
          { evaluator := (RulesEvaluator.new 20000000).initializeForProgram alone.bytecode }
          alphaCalls := by
  have hsizes : ((alphaSchema "ias > 90").compile.toOption.map fun compiled =>
      (compiled.bytecode.instructions.length,
        (alphaSchema "ias > 90").rules.map (Rule.slots compiled.bytecode.hysteresisMap)))
        = some (10, [[1], [0]]) := by
    decide +kernel
  rcases exists_ok_of_map hsizes with ⟨compiled, hcompile, hsizes⟩
  rw [Prod.mk.injEq] at hsizes
  rcases hsizes with ⟨hlength, hslots⟩
  have hslot : ∀ (j : Nat) (other : Rule), (alphaSchema "ias > 90").rules[j]? = some other →
      ([[1], [0]] : List (List Nat))[j]? =
        some (other.slots compiled.bytecode.hysteresisMap) := by
    intro j other hother
    rw [← hslots, List.getElem?_map, hother, Option.map_some]
  have hunshared : ∀ (j : Nat) (other : Rule),
      (alphaSchema "ias > 90").rules[j]? = some other → j ≠ 0 →
      ∀ slot ∈ other.slots compiled.bytecode.hysteresisMap, slot ∉ Rule.slots
        compiled.bytecode.hysteresisMap
        { when := "aoa > 10".toList, action := "led.indexer.on()".toList } := by
    intro j other hother hj
    rw [← Option.some.inj (hslot 0 _ rfl)]
    rcases j with _ | _ | j
    · exact absurd rfl hj
    · rw [← Option.some.inj (hslot 1 other hother)]
      simp
    · have hnone : (alphaSchema "ias > 90").rules[j + 1 + 1]? = none :=
        List.getElem?_eq_none (Nat.le_add_left 2 j)
      rw [hnone] at hother
      exact absurd hother.symm (Option.some_ne_none other)
  rcases firings_alone (alphaSchema "ias > 90") compiled hcompile (by omega) 0 _ rfl hunshared
    (RulesEvaluator.new 20000000) 10 (by omega) alphaCalls with ⟨alone, halone, hfirings⟩
  exact ⟨compiled, alone, hcompile, halone, hfirings⟩

/-- Two rules that compare the same variable with different thresholds. Alone, the first one stays
    on at ten; together with the second one, which was not triggered at fifteen, it goes off. -/
theorem firings_shared : ∃ compiled alone, (alphaSchema "aoa > 20").compile = .ok compiled ∧
      alphaAlone.compile = .ok alone ∧
      firings 10 compiled 0
          { evaluator := (RulesEvaluator.new 20000000).initializeForProgram compiled.bytecode }
          alphaCalls = [true, false] ∧
      firings 10 alone 0
          { evaluator := (RulesEvaluator.new 20000000).initializeForProgram alone.bytecode }
          alphaCalls = [true, true] := by
  have htogether : ((alphaSchema "aoa > 20").compile.toOption.map fun compiled =>
      firings 10 compiled 0
        { evaluator := (RulesEvaluator.new 20000000).initializeForProgram compiled.bytecode }
        alphaCalls) = some [true, false] := by
    decide +kernel
  have halone : (alphaAlone.compile.toOption.map fun compiled =>
      firings 10 compiled 0
        { evaluator := (RulesEvaluator.new 20000000).initializeForProgram compiled.bytecode }
        alphaCalls) = some [true, true] := by
    decide +kernel
  rcases exists_ok_of_map htogether with ⟨compiled, hcompile, htogether⟩
  rcases exists_ok_of_map halone with ⟨alone, hcompile', halone⟩
  exact ⟨compiled, alone, hcompile, hcompile', htogether, halone⟩

/-- What the rules of a schema keep from call to call, without a program. -/
structure Interpreted where
  lastEval : Instant
  hyst : List HysteresisState
  fired : List Nat

/-- One call: unless it is too early, the rules are performed in order. -/
def Interpreted.evaluate (minEvalInterval : Duration) (keys : AList fun _ : Text => Nat)
    (rules : List ParsedRule) (i : Interpreted) (call : Instant × Telemetry) : Interpreted :=
  if durationSince call.1 i.lastEval < minEvalInterval then i
  else
    let after := performRules call.2 keys 0 rules { hyst := i.hyst }
    { lastEval := call.1, hyst := after.hyst, fired := after.fired }

/-- Where an evaluator has got with the rules of its program. -/
def Watched.interpreted (w : Watched) : Interpreted :=
  { lastEval := w.evaluator.lastEval, hyst := w.evaluator.hysteresisState, fired := w.fired }

theorem interpreted_evaluate {st : BytecodeCompiler} {rules : List ParsedRule}
    {compiled : CompiledRules} (hfresh : Fresh st) (hflat : ∀ rule ∈ rules, rule.1.IsFlat)
    (hcode : compiled.bytecode = (compileRules st rules).finalize)
    (hshort : (compileRules st rules).instructions.length < 2 ^ 16) (fuel : Nat)
    (hfuel : (compileRules st rules).instructions.length ≤ fuel) (w : Watched)
    (hready : Ready st rules w.evaluator) (call : Instant × Telemetry) :
    Ready st rules (w.evaluate fuel compiled call).evaluator ∧
      (w.evaluate fuel compiled call).interpreted =
        w.interpreted.evaluate w.evaluator.minEvalInterval st.hysteresisMap rules call := by
  unfold Interpreted.evaluate
  by_cases hearly : durationSince call.1 w.evaluator.lastEval < w.evaluator.minEvalInterval
  · rw [evaluate_of_early w fuel compiled call hearly]
    exact ⟨hready, (if_pos hearly).symm⟩
  · rcases watched_evaluate hfresh hflat hcode hshort fuel hfuel w hready call hearly with
      ⟨hfired, hhyst, hnext⟩
    refine ⟨hnext, Eq.trans ?_ (if_neg hearly).symm⟩
    rw [Watched.interpreted, lastEval_of_due w fuel compiled call hearly, hhyst, hfired]
    rfl

/-- Over every sequence of calls, the evaluator of a compiled schema returns the actions that
    performing the parsed rules gives, and keeps their hysteresis states. -/
theorem evaluate_interprets (schema : RulesSchema) (compiled : CompiledRules)
    (hcompile : schema.compile = .ok compiled)
    (hshort : compiled.bytecode.instructions.length ≤ 65535) (ev : RulesEvaluator) (fuel : Nat)
    (hfuel : compiled.bytecode.instructions.length ≤ fuel) (calls : List (Instant × Telemetry)) :
    ∃ parsed, schema.rules.mapM parseRule = .ok parsed ∧
      let start : Watched := { evaluator := ev.initializeForProgram compiled.bytecode }
      let w := run (fun w call => w.evaluate fuel compiled call) start calls
      w.interpreted = run (Interpreted.evaluate ev.minEvalInterval
          schema.initialCompiler.hysteresisMap parsed) start.interpreted calls ∧
        w.evaluator.actionsBuffer = w.fired.filterMap ((parsed.map Prod.snd)[·]?) := by
  rcases compile_ok schema compiled hcompile with ⟨parsed, hparsed, hcode, hflat⟩
  have hfresh := fresh_initialCompiler schema
  have hactions : compiled.bytecode.actions = parsed.map Prod.snd := by
    rw [hcode]
    exact (adds_compileRules parsed _).actions.trans (by rw [hfresh.actions, List.nil_append])
  have hrun : ∀ w : Watched, Ready schema.initialCompiler parsed w.evaluator →
      (run (fun w call => w.evaluate fuel compiled call) w calls).interpreted =
        run (Interpreted.evaluate w.evaluator.minEvalInterval schema.initialCompiler.hysteresisMap
          parsed) w.interpreted calls := by
    rw [hcode] at hshort hfuel
    induction calls with
    | nil => exact fun _ _ => rfl
    | cons call rest ih =>
        intro w hready
        rcases interpreted_evaluate hfresh hflat hcode (Nat.lt_succ_of_le hshort) fuel hfuel w
          hready call with ⟨hnext, heq⟩
        rw [run_cons, run_cons, ← heq, ih _ hnext, minEvalInterval_evaluate]
  exact ⟨parsed, hparsed, hrun _ (ready_fresh hcode ev),
    hactions ▸ actionsBuffer_watched fuel compiled _ rfl calls⟩

theorem evaluate_interprets_apart :
    ∃ compiled parsed, (alphaSchema "ias > 90").compile = .ok compiled ∧
      (alphaSchema "ias > 90").rules.mapM parseRule = .ok parsed ∧
      let w := run (fun w call => Watched.evaluate w 10 compiled call)
        { evaluator := (RulesEvaluator.new 20000000).initializeForProgram compiled.bytecode }
        alphaCalls
      w.evaluator.actionsBuffer = w.fired.filterMap ((parsed.map Prod.snd)[·]?) := by
  have hlength : ((alphaSchema "ias > 90").compile.toOption.map fun compiled =>
      compiled.bytecode.instructions.length) = some 10 := by
    decide +kernel
  rcases exists_ok_of_map hlength with ⟨compiled, hcompile, hlength⟩
  rcases evaluate_interprets _ compiled hcompile (by omega) (.new 20000000) 10 (by omega)
    alphaCalls with ⟨parsed, hparsed, -, hactions⟩
  exact ⟨compiled, parsed, hcompile, hparsed, hactions⟩

end OpenFlight.Rules
