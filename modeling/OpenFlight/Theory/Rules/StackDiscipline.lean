import OpenFlight.Lib.Run
import OpenFlight.Lib.StackMap
import OpenFlight.Theory.Rules.Termination

/-!
# The Evaluation Stack

How high the machine's stack gets on a compiled program.

The compiler counts the depth of the stack as it emits instructions, and the
evaluator reserves what was counted. The count and the stack can part: an
instruction that takes two operands leaves a stack with one operand as it is,
where the count goes down, and a jump that is taken skips instructions that were
counted. So the bound comes from a stack map of the code (`Mapped`).

The code of a condition leaves at most one entry more than it was entered with,
whatever is nested in it, and on the way has at most `peak` more. The code of a
rule ends with a jump or an action on at most one entry, which the jump takes.
So every rule starts with an empty stack, and an evaluation leaves one. The
conditions that the parser produces have a peak of three, less than the least
that is reserved.

## Main definitions

* `ruleStart`: The address of the first instruction of a rule.

## Theorems

* `stacks_compileCondition`, `stacks_compileRules`: The map of compiled code.
* `stack_discipline`: The stack over all runs of a compiled program.
-/

namespace OpenFlight.Rules

open Panels

/-- From an address with a number of entries to another one. -/
def stackFlow : BytecodeOp → Nat → Nat → Nat → Nat → Prop
  | .loadVar _, pc, n, pc', n' => pc' = pc + 1 ∧ n' = n + 1
  | .loadConst _, pc, n, pc', n' => pc' = pc + 1 ∧ n' = n + 1
  | .compare _, pc, n, pc', n' => pc' = pc + 1 ∧ n' = if 2 ≤ n then n - 1 else n
  | .hysteresis _, pc, n, pc', n' => pc' = pc + 1 ∧ n' = if 2 ≤ n then n - 1 else n
  | .and, pc, n, pc', n' => pc' = pc + 1 ∧ n' = if 2 ≤ n then n - 1 else n
  | .or, pc, n, pc', n' => pc' = pc + 1 ∧ n' = if 2 ≤ n then n - 1 else n
  | .not, pc, n, pc', n' => pc' = pc + 1 ∧ n' = n
  | .jumpFalse addr, pc, n, pc', n' => (pc' = pc + 1 ∨ pc' = addr) ∧ n' = n - 1
  | .jump addr, _, n, pc', n' => pc' = addr ∧ n' = n
  | .action _, pc, n, pc', n' => pc' = pc + 1 ∧ n' = n
  | .nop, pc, n, pc', n' => pc' = pc + 1 ∧ n' = n

/-- The machine does that. -/
theorem stackFlow_vmExecute (program : BytecodeProgram) (cache : List F32) (vm : Vm)
    (op : BytecodeOp) :
    stackFlow op vm.pc vm.stack.length (vmExecute program cache vm op).pc
      (vmExecute program cache vm op).stack.length := by
  rcases vm with ⟨pc, stack, hyst, buffer⟩
  cases op with
  | loadVar index => exact ⟨rfl, rfl⟩
  | loadConst value => exact ⟨rfl, rfl⟩
  | jump addr => exact ⟨rfl, rfl⟩
  | nop => exact ⟨rfl, rfl⟩
  | action index =>
      simp only [vmExecute]
      split
      · exact ⟨rfl, rfl⟩
      · exact ⟨rfl, rfl⟩
  | not =>
      rcases stack with _ | ⟨value, rest⟩
      · exact ⟨rfl, rfl⟩
      · exact ⟨rfl, rfl⟩
  | jumpFalse addr =>
      rcases stack with _ | ⟨condition, rest⟩
      · exact ⟨.inl rfl, rfl⟩
      · simp only [vmExecute]
        split
        · exact ⟨.inr rfl, rfl⟩
        · exact ⟨.inl rfl, rfl⟩
  -- With fewer than two operands the others leave the stack as it is.
  | _ => rcases stack with _ | ⟨b, _ | ⟨a, rest⟩⟩ <;> exact ⟨rfl, rfl⟩

theorem follows_vmStep (program : BytecodeProgram) (cache : List F32) :
    Follows stackFlow (vmStep program cache) Vm.pc (fun vm => vm.stack.length)
      program.instructions := by
  constructor
  · intro vm vm' hstep
    rcases Option.map_eq_some_iff.mp hstep with ⟨op, hop, rfl⟩
    exact ⟨op, hop, stackFlow_vmExecute program cache vm op⟩
  · intro vm hhalt
    rw [vmStep, Option.map_eq_none_iff] at hhalt
    exact List.getElem?_eq_none_iff.mp hhalt

namespace Condition

mutual

/-- The most entries that the code of a condition adds on the way. -/
def peak : Condition → Nat
  | .boolean _ _ => 2
  | .compare _ _ _ => 2
  | .and conditions => joinedPeak 0 conditions
  | .or conditions => joinedPeak 1 conditions

/-- The most for a list of conditions, with entries that are held while those
    after the first are computed. -/
def joinedPeak (held : Nat) : List Condition → Nat
  | [] => 1
  | c :: rest => max (peak c) (held + restPeak rest)

/-- The most for the conditions after the first. -/
def restPeak : List Condition → Nat
  | [] => 0
  | c :: rest => max (peak c) (restPeak rest)

end

theorem peak_pos (c : Condition) : 0 < c.peak := by
  cases c with
  | boolean var negate => exact Nat.zero_lt_two
  | compare var operator value => exact Nat.zero_lt_two
  | and conditions =>
      cases conditions with
      | nil => exact Nat.zero_lt_one
      | cons c rest => exact Nat.lt_of_lt_of_le (peak_pos c) (Nat.le_max_left _ _)
  | or conditions =>
      cases conditions with
      | nil => exact Nat.zero_lt_one
      | cons c rest => exact Nat.lt_of_lt_of_le (peak_pos c) (Nat.le_max_left _ _)

theorem restPeak_le {conditions : List Condition} {n : Nat} (h : ∀ c ∈ conditions, c.peak ≤ n) :
    restPeak conditions ≤ n := by
  induction conditions with
  | nil => exact Nat.zero_le n
  | cons c rest ih =>
      rw [List.forall_mem_cons] at h
      rw [restPeak]
      exact Nat.max_le.mpr ⟨h.1, ih h.2⟩

theorem joinedPeak_le {conditions : List Condition} {held n : Nat} (hpos : 1 ≤ n)
    (h : ∀ c ∈ conditions, c.peak ≤ n) : joinedPeak held conditions ≤ held + n := by
  cases conditions with
  | nil =>
      rw [joinedPeak]
      exact hpos.trans (Nat.le_add_left n held)
  | cons c rest =>
      rw [List.forall_mem_cons] at h
      rw [joinedPeak]
      exact Nat.max_le.mpr ⟨h.1.trans (Nat.le_add_left n held),
        Nat.add_le_add_left (restPeak_le h.2) held⟩

theorem peak_leaf (c : Condition) (h : c.IsLeaf) : c.peak ≤ 2 := by
  cases c with
  | boolean var negate => exact le_refl 2
  | compare var operator value => exact le_refl 2
  | and conditions => exact absurd h (by simp [IsLeaf])
  | or conditions => exact absurd h (by simp [IsLeaf])

theorem peak_clause (c : Condition) (h : c.IsClause) : c.peak ≤ 2 := by
  cases c with
  | boolean var negate => exact le_refl 2
  | compare var operator value => exact le_refl 2
  | and conditions =>
      rw [peak]
      exact joinedPeak_le (Nat.le_succ 1) fun c hc => peak_leaf c (h.2 c hc)
  | or conditions => exact absurd h (by simp [IsClause, IsLeaf])

/-- The conditions that the parser produces. -/
theorem peak_flat (c : Condition) (h : c.IsFlat) : c.peak ≤ 3 := by
  cases c with
  | boolean var negate => exact Nat.le_succ 2
  | compare var operator value => exact Nat.le_succ 2
  | and conditions =>
      have hclause : IsClause (.and conditions) := h
      exact (peak_clause _ hclause).trans (Nat.le_succ 2)
  | or conditions =>
      rw [peak]
      exact joinedPeak_le (Nat.le_succ 1) fun c hc => peak_clause c (h.2 c hc)

end Condition

section

/-- The compiler emitted code that leaves at most `h'` entries when it is entered
    with at most `h`, as long as the program has 16-bit addresses. -/
def Stacks (cap : Nat) (st st' : BytecodeCompiler) (h h' : Nat) : Prop :=
  ∃ fragment, st'.instructions = st.instructions ++ fragment ∧
    (st'.instructions.length < 2 ^ 16 →
      Mapped stackFlow cap fragment st.instructions.length h h')

variable {cap : Nat} {st st' st'' : BytecodeCompiler} {h h' h'' : Nat}

theorem stacks_of_same (hsame : st'.instructions = st.instructions) (hle : h ≤ h') :
    Stacks cap st st' h h' :=
  ⟨[], by rw [hsame, List.append_nil], fun _ => mapped_nil hle⟩

theorem stacks_trans (hfirst : Stacks cap st st' h h') (hsecond : Stacks cap st' st'' h' h'') :
    Stacks cap st st'' h h'' := by
  rcases hfirst with ⟨first, hcode, hmapped⟩
  rcases hsecond with ⟨second, hcode', hmapped'⟩
  refine ⟨first ++ second, by rw [hcode', hcode, List.append_assoc], fun hshort => ?_⟩
  have hmapped'' := hmapped' hshort
  rw [hcode, List.length_append] at hmapped''
  refine mapped_append (hmapped ?_) hmapped''
  rw [hcode', List.length_append] at hshort
  omega

theorem stacks_emit (st : BytecodeCompiler) (op : BytecodeOp)
    (hnext : ∀ pc, ∀ n ≤ h, ∀ pc' n', stackFlow op pc n pc' n' →
      pc' = pc + 1 ∧ n' ≤ h' ∧ n' ≤ cap) : Stacks cap st (st.emit op) h h' :=
  ⟨[op], rfl, fun _ => mapped_single op (hnext _)⟩

/-- A block behind a `JumpFalse` that is patched to lead just past it. -/
theorem stacks_guard (hcap : h ≤ cap) (hle : h ≤ h')
    (hblock : Stacks cap (st.emit (.jumpFalse 0)) st' h h') :
    Stacks cap st
      (st'.patchJumpFalse st.instructions.length (toU16 st'.instructions.length)) (h + 1) h' := by
  rcases hblock with ⟨block, hcode, hmapped⟩
  have hstart : (st.emit (.jumpFalse 0)).instructions = st.instructions ++ [.jumpFalse 0] := rfl
  have hjump : st'.instructions = st.instructions ++ .jumpFalse 0 :: block := by
    rw [hcode, hstart, List.append_assoc]
    rfl
  have hlength := congrArg List.length hjump
  rw [List.length_append, List.length_cons] at hlength
  have hpatched := patchJumpFalse_append st' st.instructions block 0
    (toU16 st'.instructions.length) hjump
  refine ⟨_, hpatched, fun hshort => ?_⟩
  rw [hpatched, List.length_append, List.length_cons, ← hlength] at hshort
  have hbody := hmapped hshort
  rw [hstart, List.length_append, List.length_singleton] at hbody
  refine mapped_guard _ hbody fun n hn pc' n' hflow => ?_
  -- The address fits into 16 bits, so the jump leads to where the block ends.
  rw [toU16_of_lt _ hshort, hlength] at hflow
  rcases hflow with ⟨hnext | hskip, rfl⟩
  · exact ⟨.inl ⟨hnext, by omega⟩, by omega⟩
  · exact ⟨.inr ⟨by omega, by omega⟩, by omega⟩

/-- An entry is pushed. -/
theorem stacks_push (st : BytecodeCompiler) (op : BytecodeOp) (hcap : h + 1 ≤ cap)
    (hpush : ∀ pc n pc' n', stackFlow op pc n pc' n' → pc' = pc + 1 ∧ n' = n + 1) :
    Stacks cap st (st.emit op) h (h + 1) := by
  refine stacks_emit st op fun pc n hn pc' n' hflow => ?_
  rcases hpush pc n pc' n' hflow with ⟨hpc, rfl⟩
  exact ⟨hpc, by omega, by omega⟩

/-- Two operands become one, and a single one may stay. -/
theorem stacks_combine (st : BytecodeCompiler) (op : BytecodeOp) (hcap : h + 1 ≤ cap)
    (hcombine : ∀ pc n pc' n', stackFlow op pc n pc' n' →
      pc' = pc + 1 ∧ n' = if 2 ≤ n then n - 1 else n) :
    Stacks cap st (st.emit op) (h + 2) (h + 1) := by
  refine stacks_emit st op fun pc n hn pc' n' hflow => ?_
  rcases hcombine pc n pc' n' hflow with ⟨hpc, rfl⟩
  refine ⟨hpc, ?_, ?_⟩ <;> split <;> omega

/-- An instruction that keeps the number of entries. -/
theorem stacks_keep (st : BytecodeCompiler) (op : BytecodeOp) (hcap : h ≤ cap)
    (hkeep : ∀ pc n pc' n', stackFlow op pc n pc' n' → pc' = pc + 1 ∧ n' = n) :
    Stacks cap st (st.emit op) h h := by
  refine stacks_emit st op fun pc n hn pc' n' hflow => ?_
  rcases hkeep pc n pc' n' hflow with ⟨hpc, rfl⟩
  exact ⟨hpc, hn, hn.trans hcap⟩

/-- A variable and a constant. -/
theorem stacks_operands (st : BytecodeCompiler) (name : Text) (value : F32) (hcap : h + 2 ≤ cap) :
    Stacks cap st (((st.addVariable name).emit (.loadVar (st.variableIndex name))).emit
      (.loadConst value)) h (h + 2) := by
  have hknown : Stacks cap st (st.addVariable name) h h := by
    rw [addVariable_eq]
    exact stacks_of_same rfl (le_refl h)
  have hvar : Stacks cap (st.addVariable name)
      ((st.addVariable name).emit (.loadVar (st.variableIndex name))) h (h + 1) :=
    stacks_push _ _ (by omega) fun _ _ _ _ hflow => hflow
  exact stacks_trans (stacks_trans hknown hvar)
    (stacks_push _ (.loadConst value) hcap fun _ _ _ _ hflow => hflow)

mutual

/-- The code of a condition leaves one more entry at most. -/
theorem stacks_compileCondition (st : BytecodeCompiler) (c : Condition) (h : Nat)
    (hcap : h + c.peak ≤ cap) :
    Stacks cap st (st.compileCondition c) h (h + 1) := by
  cases c with
  | boolean var negate =>
      rw [Condition.peak] at hcap
      have hcompared := stacks_trans (stacks_operands st var (.fin 0) hcap)
        (stacks_combine _ (.compare .notEqual) (by omega) fun _ _ _ _ hflow => hflow)
      cases negate with
      | false => exact hcompared
      | true =>
          exact stacks_trans hcompared
            (stacks_keep _ .not (by omega) fun _ _ _ _ hflow => hflow)
  | compare var operator value =>
      rw [Condition.peak] at hcap
      rw [BytecodeCompiler.compileCondition]
      have hoperands := stacks_operands st var value hcap
      unfold BytecodeCompiler.compileCompare
      simp only []
      split
      · exact stacks_trans hoperands
          (stacks_combine _ (.hysteresis _) (by omega) fun _ _ _ _ hflow => hflow)
      · exact stacks_trans hoperands
          (stacks_combine _ (.compare operator) (by omega) fun _ _ _ _ hflow => hflow)
  | and conditions =>
      rw [Condition.peak] at hcap
      exact stacks_compileAnd st conditions h hcap
  | or conditions =>
      rw [Condition.peak] at hcap
      exact stacks_compileOr st conditions h hcap

theorem stacks_compileAnd (st : BytecodeCompiler) (conditions : List Condition) (h : Nat)
    (hcap : h + Condition.joinedPeak 0 conditions ≤ cap) :
    Stacks cap st (st.compileAnd conditions) h (h + 1) := by
  cases conditions with
  | nil =>
      rw [Condition.joinedPeak] at hcap
      exact stacks_push st (.loadConst _) hcap fun _ _ _ _ hflow => hflow
  | cons c rest =>
      rw [Condition.joinedPeak] at hcap
      exact stacks_trans (stacks_compileCondition st c h (by omega))
        (stacks_compileAndRest _ rest h (by omega))

theorem stacks_compileAndRest (st : BytecodeCompiler) (conditions : List Condition) (h : Nat)
    (hcap : h + Condition.restPeak conditions ≤ cap) :
    Stacks cap st (st.compileAndRest conditions) (h + 1) (h + 1) := by
  cases conditions with
  | nil => exact stacks_of_same rfl (le_refl _)
  | cons c rest =>
      rw [Condition.restPeak] at hcap
      have hpeak := c.peak_pos
      -- The `And` finds the entries below the conjunct, or only the conjunct.
      have hand : Stacks cap ((st.emit (.jumpFalse 0)).compileCondition c)
          (((st.emit (.jumpFalse 0)).compileCondition c).emit .and) (h + 1) (h + 1) := by
        refine stacks_emit _ _ fun pc n hn pc' n' hflow => ?_
        rcases hflow with ⟨hpc, rfl⟩
        refine ⟨hpc, ?_, ?_⟩ <;> split <;> omega
      have hbody := stacks_trans
        (stacks_compileCondition (st.emit (.jumpFalse 0)) c h (by omega)) hand
      exact stacks_trans (stacks_guard (by omega) (by omega) hbody)
        (stacks_compileAndRest _ rest h (by omega))

theorem stacks_compileOr (st : BytecodeCompiler) (conditions : List Condition) (h : Nat)
    (hcap : h + Condition.joinedPeak 1 conditions ≤ cap) :
    Stacks cap st (st.compileOr conditions) h (h + 1) := by
  cases conditions with
  | nil =>
      rw [Condition.joinedPeak] at hcap
      exact stacks_push st (.loadConst _) hcap fun _ _ _ _ hflow => hflow
  | cons c rest =>
      rw [Condition.joinedPeak] at hcap
      exact stacks_trans (stacks_compileCondition st c h (by omega))
        (stacks_compileOrRest _ rest h (by omega))

theorem stacks_compileOrRest (st : BytecodeCompiler) (conditions : List Condition) (h : Nat)
    (hcap : h + (1 + Condition.restPeak conditions) ≤ cap) :
    Stacks cap st (st.compileOrRest conditions) (h + 1) (h + 1) := by
  cases conditions with
  | nil => exact stacks_of_same rfl (le_refl _)
  | cons c rest =>
      rw [Condition.restPeak] at hcap
      have hpeak := c.peak_pos
      have hor : Stacks cap (st.compileCondition c) ((st.compileCondition c).emit .or)
          (h + 2) (h + 1) :=
        stacks_combine _ .or (by omega) fun _ _ _ _ hflow => hflow
      -- The disjuncts before it wait below this one as one entry.
      have hdisjunct : Stacks cap st (st.compileCondition c) (h + 1) (h + 2) :=
        stacks_compileCondition st c (h + 1) (by omega)
      have hblock := stacks_trans hdisjunct hor
      exact stacks_trans hblock (stacks_compileOrRest _ rest h (by omega))

end

/-- The jump of a rule takes the entry of its condition. -/
theorem stacks_compileParsed (st : BytecodeCompiler) (condition : Condition) (action : Action)
    (hcap : condition.peak ≤ cap) : Stacks cap st (st.compileParsed condition action) 0 0 := by
  have hcondition : Stacks cap st (st.compileCondition condition) 0 (0 + 1) :=
    stacks_compileCondition st condition 0 (by omega)
  -- Storing an action emits nothing.
  have hadded : ∀ st : BytecodeCompiler, Stacks cap st (st.addAction action) 0 0 :=
    fun st => stacks_of_same rfl (le_refl 0)
  have hbody := stacks_trans (hadded ((st.compileCondition condition).emit (.jumpFalse 0)))
    (stacks_keep _ (.action ((st.compileCondition condition).emit (.jumpFalse 0)).nextActionIndex)
      (Nat.zero_le cap) fun _ _ _ _ hflow => hflow)
  exact stacks_trans hcondition (stacks_guard (Nat.zero_le cap) (le_refl 0) hbody)

theorem stacks_compileRules (rules : List ParsedRule) (st : BytecodeCompiler)
    (hcap : ∀ rule ∈ rules, rule.1.peak ≤ cap) : Stacks cap st (compileRules st rules) 0 0 := by
  induction rules generalizing st with
  | nil => exact stacks_of_same rfl (le_refl 0)
  | cons rule rest ih =>
      rw [List.forall_mem_cons] at hcap
      exact stacks_trans (stacks_compileParsed st rule.1 rule.2 hcap.1) (ih _ hcap.2)

end

section

/-- The address of the first instruction of a rule. -/
def ruleStart (schema : RulesSchema) (i : Nat) : Nat :=
  ((schema.rules.take i).map Rule.codeLength).sum

variable (schema : RulesSchema)

/-- So much has the compiler emitted for the rules before it. -/
theorem length_rulesBefore (parsed : List ParsedRule)
    (hparsed : schema.rules.mapM parseRule = .ok parsed) (i : Nat) :
    (compileRules schema.initialCompiler (parsed.take i)).instructions.length =
      ruleStart schema i := by
  rw [(adds_compileRules _ _).length, (fresh_initialCompiler schema).instructions,
    List.length_nil, Nat.zero_add, ruleStart, List.map_take, List.map_take,
    map_codeLength_of_parsed _ _ hparsed]

/-- The states of the machine during an evaluation. -/
def during (ev : RulesEvaluator) (rules : CompiledRules) (telemetry : Telemetry) (n : Nat) : Vm :=
  execute rules.bytecode
    (RulesEvaluator.updateVariableCache ev.variableCache rules.bytecode telemetry) n
    { stack := ev.stack, hysteresisState := ev.hysteresisState }

section

variable (compiled : CompiledRules) (hcompile : schema.compile = .ok compiled)
  (hshort : compiled.bytecode.instructions.length ≤ 65535)

include compiled hcompile hshort

/-- The code of a schema has a map that is empty where any given rule starts. -/
theorem exists_map (i : Nat) :
    ∃ heights, Fits stackFlow 3 compiled.bytecode.instructions 0 heights ∧
      heights (ruleStart schema i) = 0 ∧ heights compiled.bytecode.instructions.length = 0 := by
  rcases compile_ok schema compiled hcompile with ⟨parsed, hparsed, hcode, hflat⟩
  generalize hfront : compileRules schema.initialCompiler (parsed.take i) = front
  have hrules : compileRules schema.initialCompiler parsed =
      compileRules front (parsed.drop i) := by
    rw [← hfront, compileRules, compileRules, compileRules, ← List.foldl_append,
      List.take_append_drop]
  have hinstructions : compiled.bytecode.instructions =
      (compileRules front (parsed.drop i)).instructions := by
    rw [hcode, hrules]
    rfl
  have hempty : schema.initialCompiler.instructions = [] :=
    (fresh_initialCompiler schema).instructions
  have hstart : front.instructions.length = ruleStart schema i := by
    rw [← hfront]
    exact length_rulesBefore schema parsed hparsed i
  -- The rules before the given one, and the others.
  have hbefore : Stacks 3 schema.initialCompiler front 0 0 := by
    rw [← hfront]
    exact stacks_compileRules _ _ fun rule hrule =>
      rule.1.peak_flat (hflat rule (List.mem_of_mem_take hrule))
  have hafter : Stacks 3 front (compileRules front (parsed.drop i)) 0 0 :=
    stacks_compileRules _ _ fun rule hrule =>
      rule.1.peak_flat (hflat rule (List.mem_of_mem_drop hrule))
  rcases hbefore with ⟨first, hfirst, hmapped⟩
  rcases hafter with ⟨second, hsecond, hmapped'⟩
  rw [hempty, List.nil_append] at hfirst
  rw [hinstructions, hsecond, hfirst, List.length_append] at hshort
  have hmap := hmapped (by rw [hfirst]; omega)
  have hmap' := hmapped' (by rw [hsecond, hfirst, List.length_append]; omega)
  rw [hempty, List.length_nil] at hmap
  rw [hfirst, ← Nat.zero_add first.length] at hmap'
  rcases fits_append hmap hmap' with ⟨heights, hfits, -, hseam, hend⟩
  rw [Nat.zero_add, Nat.le_zero] at hseam hend
  rw [← hstart, hinstructions, hsecond, hfirst]
  exact ⟨heights, hfits, hseam, hend⟩

/-- The stack during an evaluation that starts with an empty one, and at its end. -/
theorem stack_during (ev : RulesEvaluator) (hempty : ev.stack = []) (telemetry : Telemetry)
    (n : Nat) :
    (during ev compiled telemetry n).stack.length ≤ compiled.bytecode.stackSize ∧
    (∀ i, (during ev compiled telemetry n).pc = ruleStart schema i →
      (during ev compiled telemetry n).stack = []) ∧
    (compiled.bytecode.instructions.length ≤ n → (during ev compiled telemetry n).stack = []) := by
  have hfollows := follows_vmStep compiled.bytecode
    (RulesEvaluator.updateVariableCache ev.variableCache compiled.bytecode telemetry)
  have hwithin : ∀ heights, Fits stackFlow 3 compiled.bytecode.instructions 0 heights →
      (during ev compiled telemetry n).stack.length ≤
        heights (during ev compiled telemetry n).pc ∧
      (during ev compiled telemetry n).stack.length ≤ 3 := by
    intro heights hfits
    refine (hfollows.within hfits n _ (Nat.zero_le _) ?_ ?_).2
    · simp [hempty]
    · simp [hempty]
  refine ⟨?_, fun i hpc => ?_, fun hn => ?_⟩
  · rcases exists_map schema compiled hcompile hshort 0 with ⟨heights, hfits, -, -⟩
    rcases compile_ok schema compiled hcompile with ⟨parsed, -, hcode, -⟩
    -- Three entries are enough, and no less than eight are reserved.
    have hroom : 8 ≤ compiled.bytecode.stackSize := by
      rw [hcode]
      exact Nat.le_max_right _ _
    exact ((hwithin heights hfits).2.trans (by decide)).trans hroom
  · rcases exists_map schema compiled hcompile hshort i with ⟨heights, hfits, hzero, -⟩
    have hlow := (hwithin heights hfits).1
    rw [hpc, hzero] at hlow
    exact List.length_eq_zero_iff.mp (Nat.le_zero.mp hlow)
  · rcases exists_map schema compiled hcompile hshort 0 with ⟨heights, hfits, -, hzero⟩
    -- With as many turns as there are instructions the machine is past the end.
    have hend : (during ev compiled telemetry n).pc = compiled.bytecode.instructions.length := by
      refine hfollows.halted hfits n _ (Nat.zero_le _) ?_ ?_ (by simpa using hn)
      · simp [hempty]
      · simp [hempty]
    have hlow := (hwithin heights hfits).1
    rw [hend, hzero] at hlow
    exact List.length_eq_zero_iff.mp (Nat.le_zero.mp hlow)

end

/-- An evaluation leaves the stack that its last state has, or does nothing. -/
theorem stack_evaluate (ev : RulesEvaluator) (fuel : Nat) (now : Instant) (rules : CompiledRules)
    (telemetry : Telemetry) :
    (ev.evaluate fuel now rules telemetry).stack = ev.stack ∨
      (ev.evaluate fuel now rules telemetry).stack = (during ev rules telemetry fuel).stack := by
  unfold RulesEvaluator.evaluate
  split
  · exact .inl rfl
  · exact .inr rfl

/-- For every schema that compiles to at most 65535 instructions and every
    sequence of evaluations: the stack is empty after each, and during the next
    one it is empty wherever a rule starts and has room in what was reserved. -/
theorem stack_discipline (schema : RulesSchema) (compiled : CompiledRules)
    (hcompile : schema.compile = .ok compiled)
    (hshort : compiled.bytecode.instructions.length ≤ 65535) (fuel : Nat)
    (hfuel : compiled.bytecode.instructions.length ≤ fuel) (start : RulesEvaluator)
    (calls : List (Instant × Telemetry)) :
    let ev := run (fun ev call => ev.evaluate fuel call.1 compiled call.2)
      (start.initializeForProgram compiled.bytecode) calls
    ev.stack = [] ∧ ∀ telemetry n,
      (during ev compiled telemetry n).stack.length ≤ compiled.bytecode.stackSize ∧
      ∀ i, (during ev compiled telemetry n).pc = ruleStart schema i →
        (during ev compiled telemetry n).stack = [] := by
  intro ev
  have hempty : ev.stack = [] := by
    refine run_invariant _ (fun ev : RulesEvaluator => ev.stack = []) (fun ev call hev => ?_) _
      calls rfl
    -- A call that comes too early leaves the stack as it was.
    rcases stack_evaluate ev fuel call.1 compiled call.2 with hsame | hlast
    · rw [hsame, hev]
    · rw [hlast]
      exact (stack_during schema compiled hcompile hshort ev hev call.2 fuel).2.2 hfuel
  refine ⟨hempty, fun telemetry n => ?_⟩
  have hduring := stack_during schema compiled hcompile hshort ev hempty telemetry n
  exact ⟨hduring.1, hduring.2.1⟩

/-- A rule and three evaluations, the second of them too early. -/
theorem stack_discipline_gear : ∃ compiled, gearSchema.compile = .ok compiled ∧ (run (fun ev call =>
          ev.evaluate compiled.bytecode.instructions.length call.1 compiled call.2)
        ((RulesEvaluator.new 0).initializeForProgram compiled.bytecode)
        [(0, fun _ => none), (1, fun _ => some (.fin 1)), (fromMillis 8, fun _ => none)]).stack
          = [] := by
  have hlength : gearSchema.codeLength ≤ 65535 := by
    decide +kernel
  rcases gearSchema_compiles with ⟨compiled, hcompile, -⟩
  rw [← length_compile gearSchema compiled hcompile] at hlength
  exact ⟨compiled, hcompile,
    (stack_discipline gearSchema compiled hcompile hlength _ (le_refl _) _ _).1⟩

end

end OpenFlight.Rules
