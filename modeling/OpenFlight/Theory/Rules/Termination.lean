import OpenFlight.Theory.Rules.CompilerCorrect

/-!
# Compiled Programs and Their Jumps

When the machine halts on a compiled program.

The jumps of a program lead forward, so every instruction moves the machine to a
later address, and it halts after no more steps than the program has
instructions. This takes addresses of sixteen bits. In a longer program the jump
of the last rule, which should lead to the end, leads back to the beginning.

## Main definitions

* `JumpsForward`: Every `JumpFalse` has a later target, not past the end.
* `Halts`: The machine halts.

## Theorems

* `jumpsForward_iff`: The programs whose jumps lead forward.
-/

namespace OpenFlight.Rules

open Panels

/-- Every `JumpFalse` of the program has a later target, not past the end. -/
def JumpsForward (program : BytecodeProgram) : Prop :=
  ∀ addr target, program.instructions[addr]? = some (.jumpFalse target) →
    addr < target ∧ target ≤ program.instructions.length

/-- The machine comes to a state in which it halts. -/
def Halts (program : BytecodeProgram) (cache : List F32) (vm : Vm) : Prop :=
  ∃ n vm', Reaches (vmStep program cache) n vm vm' ∧ vmStep program cache vm' = none

/-- The number of instructions that a rule needs, with the jump and the action. -/
def Rule.codeLength (rule : Rule) : Nat :=
  match parseCondition rule.when with
  | .ok condition => condition.codeLength + 2
  | .error _ => 0

/-- The number of instructions that the rules of a schema need. -/
def RulesSchema.codeLength (schema : RulesSchema) : Nat :=
  (schema.rules.map Rule.codeLength).sum

/-- An instruction that leads on moves the machine to a later address. -/
theorem lt_pc_vmExecute (program : BytecodeProgram) (cache : List F32) (vm : Vm)
    (op : BytecodeOp) (fin : Nat) (hshort : fin < 2 ^ 16) (h : op.LeadsOn vm.pc fin) :
    vm.pc < (vmExecute program cache vm op).pc := by
  rcases vm with ⟨pc, stack, hyst, buffer⟩
  cases op with
  | loadVar index => exact Nat.lt_succ_self pc
  | loadConst value => exact Nat.lt_succ_self pc
  | nop => exact Nat.lt_succ_self pc
  | jump addr => exact absurd h (by simp [BytecodeOp.LeadsOn])
  | action index =>
      simp only [vmExecute]
      split
      · exact Nat.lt_succ_self pc
      · exact Nat.lt_succ_self pc
  | not =>
      rcases stack with _ | ⟨value, rest⟩
      · exact Nat.lt_succ_self pc
      · exact Nat.lt_succ_self pc
  | jumpFalse target =>
      rcases stack with _ | ⟨condition, rest⟩
      · exact Nat.lt_succ_self pc
      · simp only [vmExecute]
        split
        · exact (h hshort).1
        · exact Nat.lt_succ_self pc
  -- The others take two operands or do nothing.
  | _ =>
      rcases stack with _ | ⟨b, _ | ⟨a, rest⟩⟩
      · exact Nat.lt_succ_self pc
      · exact Nat.lt_succ_self pc
      · exact Nat.lt_succ_self pc

/-- The machine halts on a program whose instructions lead on. -/
theorem halts_of_leadsOn (program : BytecodeProgram) (cache : List F32)
    (hshort : program.instructions.length < 2 ^ 16)
    (hleads : ∀ (addr : Nat) (op : BytecodeOp), program.instructions[addr]? = some op →
      op.LeadsOn addr program.instructions.length) (vm : Vm) : Halts program cache vm := by
  -- The distance to the end shrinks at every step.
  induction hdistance : program.instructions.length - vm.pc using Nat.strong_induction_on
    generalizing vm with
  | _ distance ih =>
      cases hfetch : program.instructions[vm.pc]? with
      | none => exact ⟨0, vm, rfl, by rw [vmStep, hfetch, Option.map_none]⟩
      | some op =>
          have hlater := lt_pc_vmExecute program cache vm op _ hshort (hleads vm.pc op hfetch)
          have hinside := (List.getElem?_eq_some_iff.mp hfetch).1
          rcases ih (program.instructions.length - (vmExecute program cache vm op).pc) (by omega)
            _ rfl with ⟨n, vm', hreaches, hhalt⟩
          refine ⟨n + 1, vm', ⟨_, ?_, hreaches⟩, hhalt⟩
          rw [vmStep, hfetch, Option.map_some]

/-- The end of the code of a rule. -/
theorem instructions_compileParsed (st : BytecodeCompiler) (condition : Condition)
    (action : Action) :
    ∃ before index, (st.compileParsed condition action).instructions =
      before ++ [.jumpFalse (toU16 (before.length + 2)), .action index] := by
  refine ⟨(st.compileCondition condition).instructions,
    ((st.compileCondition condition).emit (.jumpFalse 0)).nextActionIndex, ?_⟩
  have hunpatched : ((((st.compileCondition condition).emit (.jumpFalse 0)).addAction action).emit
      (.action ((st.compileCondition condition).emit
        (.jumpFalse 0)).nextActionIndex)).instructions =
        (st.compileCondition condition).instructions ++ .jumpFalse 0 ::
          [.action ((st.compileCondition condition).emit (.jumpFalse 0)).nextActionIndex] :=
    List.append_cons _ _ _ |>.symm
  have hlength := congrArg List.length hunpatched
  rw [List.length_append, List.length_cons, List.length_singleton] at hlength
  rw [BytecodeCompiler.compileParsed,
    patchJumpFalse_append _ (st.compileCondition condition).instructions _ 0 _ hunpatched, hlength]

/-- The code of a rule has the length it needs. -/
theorem map_codeLength_of_parsed (rules : List Rule) (parsed : List ParsedRule)
    (h : rules.mapM parseRule = .ok parsed) :
    rules.map Rule.codeLength = parsed.map fun rule => rule.1.codeLength + 2 := by
  have heach : List.Forall₂ (fun rule p => Rule.codeLength rule = p.1.codeLength + 2)
      rules parsed := by
    refine (forall₂_parseRule rules parsed h).imp fun rule p hrule => ?_
    rw [Rule.codeLength, (parseRule_ok rule p hrule).1]
  rw [← List.forall₂_eq_eq_eq, List.forall₂_map_left_iff, List.forall₂_map_right_iff]
  exact heach

section

variable (schema : RulesSchema) (compiled : CompiledRules) (h : schema.compile = .ok compiled)

include schema compiled h

/-- The code of a schema has the length it needs. -/
theorem length_compile : compiled.bytecode.instructions.length = schema.codeLength := by
  rcases compile_ok schema compiled h with ⟨parsed, hparsed, hcode, -⟩
  rw [RulesSchema.codeLength, map_codeLength_of_parsed _ _ hparsed, hcode]
  have hlength := (adds_compileRules parsed schema.initialCompiler).length
  rw [(fresh_initialCompiler schema).instructions, List.length_nil, Nat.zero_add] at hlength
  exact hlength

/-- In a long program the last jump, which should lead to the end, leads back. -/
theorem not_jumpsForward_of_long (hlong : 65535 < schema.codeLength) :
    ¬ JumpsForward compiled.bytecode := by
  intro hforward
  rw [← length_compile schema compiled h] at hlong
  rcases compile_ok schema compiled h with ⟨parsed, -, hcode, -⟩
  rcases List.eq_nil_or_concat parsed with hnil | ⟨front, last, hlast⟩
  · have hempty : compiled.bytecode.instructions = [] := by
      rw [hcode, hnil]
      exact (fresh_initialCompiler schema).instructions
    rw [hempty] at hlong
    exact absurd hlong (Nat.not_lt_zero _)
  · -- The last rule ends with a jump to the end and an action.
    rcases instructions_compileParsed (compileRules schema.initialCompiler front) last.1 last.2
      with ⟨before, index, hend⟩
    have hinstructions : compiled.bytecode.instructions =
        before ++ [.jumpFalse (toU16 (before.length + 2)), .action index] := by
      rw [← hend, hcode, hlast, compileRules, List.concat_eq_append, List.foldl_append]
      rfl
    have hfetch : compiled.bytecode.instructions[before.length]? =
        some (.jumpFalse (toU16 (before.length + 2))) := by
      rw [hinstructions, List.getElem?_append_right (Nat.le_refl _), Nat.sub_self]
      rfl
    have hlater := (hforward _ _ hfetch).1
    rw [hinstructions, List.length_append] at hlong
    simp only [List.length_cons, List.length_nil, toU16] at hlong hlater
    omega

end

/-- The jumps of a compiled schema lead forward, and the machine halts on it from
    every state, exactly if its code is no longer than 65535 instructions. -/
theorem jumpsForward_iff (schema : RulesSchema) (compiled : CompiledRules)
    (h : schema.compile = .ok compiled) :
    (JumpsForward compiled.bytecode ∧ ∀ cache vm, Halts compiled.bytecode cache vm) ↔
      schema.codeLength ≤ 65535 := by
  constructor
  · rintro ⟨hforward, -⟩
    by_contra hlong
    exact not_jumpsForward_of_long schema compiled h (Nat.lt_of_not_le hlong) hforward
  · intro hshort
    rw [← length_compile schema compiled h] at hshort
    rcases compile_ok schema compiled h with ⟨parsed, -, hcode, -⟩
    rcases (adds_compileRules parsed schema.initialCompiler).code with
      ⟨fragment, hfragment, -, hleads⟩
    rw [(fresh_initialCompiler schema).instructions, List.nil_append] at hfragment
    have hinstructions : compiled.bytecode.instructions = fragment := by
      rw [hcode, ← hfragment]
      rfl
    have hlength : (compileRules schema.initialCompiler parsed).instructions.length =
        compiled.bytecode.instructions.length := by
      rw [hcode]
      rfl
    rw [← hinstructions, hlength, (fresh_initialCompiler schema).instructions] at hleads
    simp only [List.length_nil, Nat.zero_add] at hleads
    have hshort' : compiled.bytecode.instructions.length < 2 ^ 16 := Nat.lt_succ_of_le hshort
    refine ⟨fun addr target hfetch => hleads addr _ hfetch hshort', fun cache vm => ?_⟩
    exact halts_of_leadsOn compiled.bytecode cache hshort' hleads vm

theorem jumpsForward_gear :
    ∃ compiled, gearSchema.compile = .ok compiled ∧ JumpsForward compiled.bytecode ∧
      ∀ cache vm, Halts compiled.bytecode cache vm := by
  have hlength : gearSchema.codeLength ≤ 65535 := by
    decide +kernel
  rcases gearSchema_compiles with ⟨compiled, hcompile, -⟩
  exact ⟨compiled, hcompile, (jumpsForward_iff gearSchema compiled hcompile).mpr hlength⟩

/-- A rule that looks at the landing gear. -/
def gearRule : Rule :=
  { when := "gear".toList, action := "led.indexer.on()".toList }

/-- A number of such rules. -/
def gearRules (n : Nat) : RulesSchema :=
  { schema := "flight.ledmap/1".toList
    rules := List.replicate n gearRule
    defaults := none }

theorem parseRule_gearRule : ∃ p, parseRule gearRule = .ok p ∧ gearRule.codeLength = 5 := by
  have hparse : (parseRule gearRule).toOption.isSome = true := by
    decide +kernel
  have hlength : gearRule.codeLength = 5 := by
    decide +kernel
  cases hrule : parseRule gearRule with
  | error e =>
      rw [hrule] at hparse
      exact absurd hparse Bool.false_ne_true
  | ok p => exact ⟨p, rfl, hlength⟩

theorem mapM_replicate (n : Nat) (rule : Rule) (p : ParsedRule) (h : parseRule rule = .ok p) :
    (List.replicate n rule).mapM parseRule = .ok (List.replicate n p) := by
  induction n with
  | zero => rfl
  | succ n ih =>
      rw [List.replicate_succ, List.mapM_cons, h, ih]
      rfl

/-- Five instructions a rule. -/
theorem not_jumpsForward_gearRules (n : Nat) (hn : 65535 < n * 5) :
    ∃ compiled, (gearRules n).compile = .ok compiled ∧ ¬ JumpsForward compiled.bytecode := by
  rcases parseRule_gearRule with ⟨p, hrule, hlength⟩
  have hcompile := compile_of_parsed (gearRules n) (List.replicate n p)
    (mapM_replicate n gearRule p hrule)
  have hrules : (gearRules n).rules = List.replicate n gearRule := rfl
  have hlong : 65535 < (gearRules n).codeLength := by
    rw [RulesSchema.codeLength, hrules, List.map_replicate, hlength, List.sum_replicate_nat]
    exact hn
  exact ⟨_, hcompile, not_jumpsForward_of_long (gearRules n) _ hcompile hlong⟩

/-- 13108 rules of five instructions are 65540 instructions. The last jump leads
    back to address 4. -/
theorem jumpsForward_long :
    ∃ compiled, (gearRules 13108).compile = .ok compiled ∧ ¬ JumpsForward compiled.bytecode :=
  not_jumpsForward_gearRules 13108 (by decide)

end OpenFlight.Rules
