import OpenFlight.Core.Rules.Syntax
import Mathlib.Data.List.AList

/-!
# The Bytecode Compiler

From a schema of rules to a bytecode program.

The compiler appends instructions to a growing program and keeps the indices
of variables, hysteresis keys and actions. Indices and jump targets are 16-bit
words: a counter wraps around, and a jump target keeps the low bits of the
address. A conjunction tests each condition with a `JumpFalse` that leads past
the next one; the jump is emitted with target zero and patched once the length
of what it skips is known.

The stack depth that the compiler tracks sizes an allocation of the evaluator
and nothing else.

## Main definitions

* `BytecodeOp`, `BytecodeProgram`, `CompiledRules`: What is compiled to.
* `RulesSchema.compile`: A whole schema.
-/

namespace OpenFlight.Rules

/-- A rule as it is written. -/
structure Rule where
  when : Text
  action : Text

/-- The hysteresis bands of variables. -/
structure RuleDefaults where
  hysteresis : Option (AList fun _ : Text => F32)

/-- A file of rules. -/
structure RulesSchema where
  schema : Text
  rules : List Rule
  defaults : Option RuleDefaults

/-- The instructions. -/
inductive BytecodeOp
  | loadVar (index : Nat)
  | loadConst (value : F32)
  | compare (op : CompareOp)
  | hysteresis (index : Nat)
  | and
  | or
  | not
  | jumpFalse (addr : Nat)
  | jump (addr : Nat)
  | action (index : Nat)
  | nop
deriving DecidableEq

/-- Instructions with their tables. -/
structure BytecodeProgram where
  instructions : List BytecodeOp
  variableMap : AList fun _ : Text => Nat
  hysteresisMap : AList fun _ : Text => Nat
  hysteresisBands : List F32
  actions : List Action
  stackSize : Nat

/-- What compiling gives. -/
structure CompiledRules where
  bytecode : BytecodeProgram
  hysteresisBands : AList fun _ : Text => F32

/-- The low sixteen bits. -/
def toU16 (n : Nat) : Nat :=
  n % 2 ^ 16

/-- The compiler's state. -/
structure BytecodeCompiler where
  instructions : List BytecodeOp := []
  variableMap : AList (fun _ : Text => Nat) := ∅
  hysteresisMap : AList (fun _ : Text => Nat) := ∅
  hysteresisBands : List F32 := []
  actions : List Action := []
  nextVarIndex : Nat := 0
  nextHystIndex : Nat := 0
  nextActionIndex : Nat := 0
  maxStackDepth : Nat := 0
  currentStackDepth : Nat := 0

namespace BytecodeCompiler

/-- A key gets the next index. -/
def addHysteresisKey (st : BytecodeCompiler) (key : Text) (band : F32) : BytecodeCompiler :=
  if key ∈ st.hysteresisMap then st
  else
    { st with
      hysteresisMap := st.hysteresisMap.insert key st.nextHystIndex
      hysteresisBands := st.hysteresisBands ++ [band]
      nextHystIndex := toU16 (st.nextHystIndex + 1) }

/-- The state after `get_or_add_variable`. -/
def addVariable (st : BytecodeCompiler) (name : Text) : BytecodeCompiler :=
  match st.variableMap.lookup name with
  | some _ => st
  | none =>
      { st with
        variableMap := st.variableMap.insert name st.nextVarIndex
        nextVarIndex := toU16 (st.nextVarIndex + 1) }

/-- The index that `get_or_add_variable` returns. -/
def variableIndex (st : BytecodeCompiler) (name : Text) : Nat :=
  match st.variableMap.lookup name with
  | some index => index
  | none => st.nextVarIndex

/-- The state after `add_action`, which returns `nextActionIndex`. -/
def addAction (st : BytecodeCompiler) (action : Action) : BytecodeCompiler :=
  { st with
    actions := st.actions ++ [action]
    nextActionIndex := toU16 (st.nextActionIndex + 1) }

/-- The stack depth after an instruction, as the compiler counts it. -/
def depthAfter (depth : Nat) : BytecodeOp → Nat
  | .loadVar _ => depth + 1
  | .loadConst _ => depth + 1
  | .compare _ => depth - 1
  | .and => depth - 1
  | .or => depth - 1
  | .hysteresis _ => depth - 1
  | .jumpFalse _ => depth - 1
  | _ => depth

/-- One more instruction. -/
def emit (st : BytecodeCompiler) (op : BytecodeOp) : BytecodeCompiler :=
  { st with
    instructions := st.instructions ++ [op]
    currentStackDepth := depthAfter st.currentStackDepth op
    maxStackDepth := match op with
      | .loadVar _ => max st.maxStackDepth (st.currentStackDepth + 1)
      | .loadConst _ => max st.maxStackDepth (st.currentStackDepth + 1)
      | _ => st.maxStackDepth }

/-- Give a `JumpFalse` its target. -/
def patchJumpFalse (st : BytecodeCompiler) (index addr : Nat) : BytecodeCompiler :=
  match st.instructions[index]? with
  | some (.jumpFalse _) =>
      { st with instructions := st.instructions.set index (.jumpFalse addr) }
  | _ => st

/-- `compile_condition` on a leaf that names a variable. -/
def compileBoolean (st : BytecodeCompiler) (var : Text) (negate : Bool) : BytecodeCompiler :=
  let index := st.variableIndex var
  let st := st.addVariable var
  let st := st.emit (.loadVar index)
  let st := st.emit (.loadConst (.fin 0))
  let st := st.emit (.compare .notEqual)
  if negate then st.emit .not else st

/-- `compile_condition` on a comparison; a variable with a hysteresis band is
    compared by the hysteresis instruction, whatever the operator. -/
def compileCompare (st : BytecodeCompiler) (var : Text) (operator : CompareOp) (value : F32) :
    BytecodeCompiler :=
  let index := st.variableIndex var
  let st := st.addVariable var
  let st := st.emit (.loadVar index)
  let st := st.emit (.loadConst value)
  match st.hysteresisMap.lookup var with
  | some hystIndex => st.emit (.hysteresis hystIndex)
  | none => st.emit (.compare operator)

mutual

/-- `compile_condition`, which always succeeds. -/
def compileCondition (st : BytecodeCompiler) : Condition → BytecodeCompiler
  | .boolean var negate => st.compileBoolean var negate
  | .compare var operator value => st.compileCompare var operator value
  | .and conditions => compileAnd st conditions
  | .or conditions => compileOr st conditions

/-- The conjunction of a list of conditions. -/
def compileAnd (st : BytecodeCompiler) : List Condition → BytecodeCompiler
  | [] => st.emit (.loadConst (.fin 1))
  | c :: rest => compileAndRest (compileCondition st c) rest

/-- The conditions after the first one of a conjunction. -/
def compileAndRest (st : BytecodeCompiler) : List Condition → BytecodeCompiler
  | [] => st
  | c :: rest =>
      -- A false value so far skips the conjunct and the `And`.
      let skipAddr := st.instructions.length
      let st := st.emit (.jumpFalse 0)
      let st := (compileCondition st c).emit .and
      compileAndRest (st.patchJumpFalse skipAddr (toU16 st.instructions.length)) rest

/-- The disjunction of a list of conditions. -/
def compileOr (st : BytecodeCompiler) : List Condition → BytecodeCompiler
  | [] => st.emit (.loadConst (.fin 0))
  | c :: rest => compileOrRest (compileCondition st c) rest

/-- The conditions after the first one of a disjunction. -/
def compileOrRest (st : BytecodeCompiler) : List Condition → BytecodeCompiler
  | [] => st
  | c :: rest => compileOrRest ((compileCondition st c).emit .or) rest

end

/-- `compile_rule`, once condition and action are parsed. -/
def compileParsed (st : BytecodeCompiler) (condition : Condition) (action : Action) :
    BytecodeCompiler :=
  let st := st.compileCondition condition
  -- A false condition skips the action.
  let jumpAddr := st.instructions.length
  let st := st.emit (.jumpFalse 0)
  let actionIndex := st.nextActionIndex
  let st := st.addAction action
  let st := st.emit (.action actionIndex)
  st.patchJumpFalse jumpAddr (toU16 st.instructions.length)

/-- The code of a rule. -/
def compileRule (st : BytecodeCompiler) (rule : Rule) : Except RulesError BytecodeCompiler := do
  let condition ← parseCondition rule.when
  let action ← parseAction rule.action
  return st.compileParsed condition action

/-- The program as it is now. -/
def finalize (st : BytecodeCompiler) : BytecodeProgram :=
  { instructions := st.instructions
    variableMap := st.variableMap
    hysteresisMap := st.hysteresisMap
    hysteresisBands := st.hysteresisBands
    actions := st.actions
    stackSize := max st.maxStackDepth 8 }

end BytecodeCompiler

namespace RulesSchema

/-- The hysteresis defaults of a schema; none means an empty map. -/
def hysteresisDefaults (schema : RulesSchema) : AList fun _ : Text => F32 :=
  (schema.defaults.bind RuleDefaults.hysteresis).getD ∅

/-- The compiler before the first rule. -/
def initialCompiler (schema : RulesSchema) : BytecodeCompiler :=
  schema.hysteresisDefaults.entries.foldl (fun st e => st.addHysteresisKey e.1 e.2) {}

/-- `RulesSchema::compile`. -/
def compile (schema : RulesSchema) : Except RulesError CompiledRules := do
  let st ← schema.rules.foldlM BytecodeCompiler.compileRule schema.initialCompiler
  return { bytecode := st.finalize, hysteresisBands := schema.hysteresisDefaults }

/-- `validate_rule`, which compiles the rule on its own. -/
def validateRule (rule : Rule) : Except String Unit :=
  if trim rule.when = [] then .error "Rule condition cannot be empty"
  else if trim rule.action = [] then .error "Rule action cannot be empty"
  else
    match BytecodeCompiler.compileRule {} rule with
    | .error (.validation message) => .error message
    | .ok _ => .ok ()

/-- `RulesSchema::validate`. -/
def validate (schema : RulesSchema) : Except RulesError Unit :=
  if schema.schema ≠ "flight.ledmap/1".toList then
    .error (.validation ("Unsupported schema version: " ++ String.ofList schema.schema))
  else
    schema.rules.zipIdx.forM fun (rule, index) =>
      match validateRule rule with
      | .error message =>
          let number := index + 1
          .error (.validation s!"Rule {number}: {message}")
      | .ok () => .ok ()

end RulesSchema

end OpenFlight.Rules
