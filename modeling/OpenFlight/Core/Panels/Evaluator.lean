import OpenFlight.Core.Rules.Compiler
import OpenFlight.Lib.Machine

/-!
# The Rules Evaluator

The virtual machine that runs a compiled program, and the evaluator around it
with its rate limit and its cache of variables.

The machine's stack holds single-precision numbers, the top first here. An
instruction that takes two operands does nothing when there are fewer, and
`JumpFalse` pops its operand whether or not it jumps, and does not jump on an
empty stack. The loop of the source has no bound; `execute` takes one, and the
results about compiled programs hold for every bound from the length of the
program on.

## Main definitions

* `Vm`, `vmStep`, `execute`: The virtual machine.
* `RulesEvaluator`, `initializeForProgram`, `evaluate`: The evaluator.
-/

namespace OpenFlight.Panels

open Rules

/-- The state of one comparison. -/
structure HysteresisState where
  currentValue : F32 := .fin 0
  thresholdValue : F32 := .fin 0
  band : F32 := .fin 0
  lastTriggered : Bool := false

/-- The values of the variables in one telemetry frame. -/
abbrev Telemetry := Text → Option F32

/-- The machine's registers and buffers. -/
structure Vm where
  pc : Nat := 0
  stack : List F32 := []
  hysteresisState : List HysteresisState := []
  actionsBuffer : List Action := []

/-- A truth value as the machine pushes it. -/
def ofBool (b : Bool) : F32 :=
  if b then .fin 1 else .fin 0

/-- `compare`. -/
def compareValues (a b : F32) : CompareOp → Bool
  | .equal => (a.sub b).abs.lt F32.epsilon
  | .notEqual => F32.epsilon.le (a.sub b).abs
  | .greater => b.lt a
  | .greaterEqual => b.le a
  | .less => a.lt b
  | .lessEqual => a.le b

/-- Whether a value counts as true. -/
def isTrue (a : F32) : Bool :=
  !a.eq (.fin 0)

/-- The new trigger state of a hysteresis band. -/
def hysteresisTriggered (state : HysteresisState) (current threshold : F32) : Bool :=
  if state.lastTriggered then (threshold.sub state.band.half).lt current
  else (threshold.add state.band.half).lt current

/-- A comparison with its band. -/
def applyHysteresis (states : List HysteresisState) (index : Nat) (current threshold : F32) :
    List HysteresisState × Bool :=
  match states[index]? with
  -- Without a band the comparison is the plain one.
  | none => (states, compareValues current threshold .greater)
  | some state =>
      let triggered := hysteresisTriggered state current threshold
      (states.set index
        { state with
          currentValue := current
          thresholdValue := threshold
          lastTriggered := triggered }, triggered)

/-- What an instruction does, once fetched. -/
def vmExecute (program : BytecodeProgram) (cache : List F32) (vm : Vm) (op : BytecodeOp) : Vm :=
  let next := { vm with pc := vm.pc + 1 }
  match op with
  | .loadVar index => { next with stack := (cache[index]?).getD (.fin 0) :: vm.stack }
  | .loadConst value => { next with stack := value :: vm.stack }
  -- With fewer operands than they need, the instructions do nothing.
  | .compare op =>
      match vm.stack with
      | b :: a :: rest => { next with stack := ofBool (compareValues a b op) :: rest }
      | _ => next
  | .hysteresis index =>
      match vm.stack with
      | threshold :: current :: rest =>
          let applied := applyHysteresis vm.hysteresisState index current threshold
          { next with stack := ofBool applied.2 :: rest, hysteresisState := applied.1 }
      | _ => next
  | .and =>
      match vm.stack with
      | b :: a :: rest => { next with stack := ofBool (isTrue a && isTrue b) :: rest }
      | _ => next
  | .or =>
      match vm.stack with
      | b :: a :: rest => { next with stack := ofBool (isTrue a || isTrue b) :: rest }
      | _ => next
  | .not =>
      match vm.stack with
      | value :: rest => { next with stack := ofBool (value.eq (.fin 0)) :: rest }
      | [] => next
  | .jumpFalse addr =>
      match vm.stack with
      -- The operand is popped whether or not the jump is taken.
      | condition :: rest =>
          if condition.eq (.fin 0) then { vm with pc := addr, stack := rest }
          else { next with stack := rest }
      | [] => next
  | .jump addr => { vm with pc := addr }
  | .action index =>
      match program.actions[index]? with
      | some action => { next with actionsBuffer := vm.actionsBuffer ++ [action] }
      | none => next
  | .nop => next

/-- One turn of the machine's loop; it halts past the last instruction. -/
def vmStep (program : BytecodeProgram) (cache : List F32) (vm : Vm) : Option Vm :=
  (program.instructions[vm.pc]?).map (vmExecute program cache vm)

/-- `execute`, for at most `fuel` instructions. -/
def execute (program : BytecodeProgram) (cache : List F32) (fuel : Nat) (vm : Vm) : Vm :=
  exec (vmStep program cache) fuel vm

/-- The machine that runs compiled rules. -/
structure RulesEvaluator where
  stack : List F32 := []
  hysteresisState : List HysteresisState := []
  variableCache : List F32 := []
  actionsBuffer : List Action := []
  lastEval : Instant
  minEvalInterval : Duration := fromMillis 8

namespace RulesEvaluator

/-- `new`, at the instant `now`; the last evaluation is set back, if the clock
    goes back that far, so that the first call is not rate limited. -/
def new (now : Instant) : RulesEvaluator :=
  { lastEval := if fromMillis 8 ≤ now then now - fromMillis 8 else now }

/-- Fresh states and a zero for every variable. -/
def initializeForProgram (ev : RulesEvaluator) (program : BytecodeProgram) : RulesEvaluator :=
  { ev with
    stack := []
    hysteresisState := program.hysteresisBands.map fun band => { band := band }
    variableCache := List.replicate program.variableMap.entries.length (.fin 0)
    actionsBuffer := [] }

/-- The cache with one variable's value written to its place. -/
def cacheVariable (telemetry : Telemetry) (cache : List F32) (name : Text) (index : Nat) :
    List F32 :=
  cache.set index ((telemetry name).getD (.fin 0))

/-- The variables are read once for all rules. -/
def updateVariableCache (cache : List F32) (program : BytecodeProgram) (telemetry : Telemetry) :
    List F32 :=
  program.variableMap.entries.foldl (fun cache e => cacheVariable telemetry cache e.1 e.2) cache

/-- `evaluate`; the slice it returns is the buffer of actions. -/
def evaluate (ev : RulesEvaluator) (fuel : Nat) (now : Instant) (rules : CompiledRules)
    (telemetry : Telemetry) : RulesEvaluator :=
  if durationSince now ev.lastEval < ev.minEvalInterval then ev
  else
    let cache := updateVariableCache ev.variableCache rules.bytecode telemetry
    let vm := execute rules.bytecode cache fuel
      { stack := ev.stack, hysteresisState := ev.hysteresisState }
    { ev with
      stack := vm.stack
      hysteresisState := vm.hysteresisState
      variableCache := cache
      actionsBuffer := vm.actionsBuffer
      lastEval := now }

end RulesEvaluator

end OpenFlight.Panels
