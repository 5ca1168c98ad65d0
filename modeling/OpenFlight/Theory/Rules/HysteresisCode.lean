import OpenFlight.Theory.Rules.Emission

/-!
# Compiled Code with Hysteresis

What compiled code does when comparisons go through hysteresis states, and which
actions it executes.

The contract of the previous module fixes the hysteresis states. Here they are
part of what code works on, a `Memory`, next to the stack and the indices of the
actions that were executed. The indices are not in the machine, whose buffer
holds actions and does not tell two rules with the same action apart. They are
read off its trace, and the buffer is what they select from the table of actions.

`Condition.perform` is what the code of a condition does to a memory, for
conditions nested in any way, as the compiler emits it.

## Main definitions

* `Memory`, `Memory.place`: What code works on, and the machine at an address.
* `Counted`, `Grows`: The counters of the compiler, with hysteresis.

## Theorems

* `performs_trans`, `performs_emit`, `performs_guard`: How code composes.
* `performs_compileCondition`: The code of a condition.
-/

namespace OpenFlight.Rules

open Panels

/-- The value of a variable; one that is missing reads as zero. -/
def valueOf (telemetry : Telemetry) (name : Text) : F32 :=
  (telemetry name).getD (.fin 0)

namespace Condition

mutual

/-- The meaning of a condition on the telemetry, with the machine's own comparison at the leaves. -/
def eval (telemetry : Telemetry) : Condition → Bool
  | .boolean var negate =>
      (compareValues (valueOf telemetry var) (.fin 0) .notEqual) ^^ negate
  | .compare var operator value => compareValues (valueOf telemetry var) value operator
  | .and conditions => evalAll telemetry conditions
  | .or conditions => evalAny telemetry conditions

/-- Every condition is true. -/
def evalAll (telemetry : Telemetry) : List Condition → Bool
  | [] => true
  | c :: rest => eval telemetry c && evalAll telemetry rest

/-- Some condition is true. -/
def evalAny (telemetry : Telemetry) : List Condition → Bool
  | [] => false
  | c :: rest => eval telemetry c || evalAny telemetry rest

end

end Condition

/-- What compiled code works on: the stack, the hysteresis states, and the
    indices of the actions executed so far. -/
structure Memory where
  stack : List F32 := []
  hyst : List HysteresisState := []
  fired : List Nat := []

/-- The machine at an address, with what was in its buffer before. -/
def Memory.place (m : Memory) (program : BytecodeProgram) (buffer : List Action) (pc : Nat) : Vm :=
  { pc := pc
    stack := m.stack
    hysteresisState := m.hyst
    actionsBuffer := buffer ++ m.fired.filterMap (program.actions[·]?) }

namespace Memory

def push (m : Memory) (value : F32) : Memory :=
  { m with stack := value :: m.stack }

def pop (m : Memory) : Memory :=
  { m with stack := m.stack.tail }

/-- The effect of an instruction that takes two operands, if there are two. -/
def combine (op : F32 → F32 → F32) (m : Memory) : Memory :=
  match m.stack with
  | b :: a :: rest => { m with stack := op a b :: rest }
  | _ => m

/-- The effect of `And`. -/
def conjoin : Memory → Memory :=
  combine fun a b => ofBool (isTrue a && isTrue b)

/-- The effect of `Or`. -/
def disjoin : Memory → Memory :=
  combine fun a b => ofBool (isTrue a || isTrue b)

/-- A `JumpFalse` goes on to the next instruction, as it does on an empty stack. -/
def passes (m : Memory) : Bool :=
  match m.stack with
  | [] => true
  | condition :: _ => !condition.eq (.fin 0)

/-- The effect of a block that a `JumpFalse` skips. -/
def guard (body : Memory → Memory) (m : Memory) : Memory :=
  if m.passes then body m.pop else m.pop

/-- The effect of an `Action`. -/
def fire (index : Nat) (m : Memory) : Memory :=
  { m with fired := m.fired ++ [index] }

/-- The effect of a comparison; `keys` are the indices of the hysteresis states. -/
def compare (telemetry : Telemetry) (keys : AList fun _ : Text => Nat) (var : Text)
    (operator : CompareOp) (value : F32) (m : Memory) : Memory :=
  match keys.lookup var with
  | some index =>
      let applied := applyHysteresis m.hyst index (valueOf telemetry var) value
      { m with stack := ofBool applied.2 :: m.stack, hyst := applied.1 }
  | none => m.push (ofBool (compareValues (valueOf telemetry var) value operator))

end Memory

section

/-- The index of the action that an instruction executes. -/
def BytecodeOp.actionIndex : BytecodeOp → Option Nat
  | .action index => some index
  | _ => none

/-- The index of the action that the machine is about to execute. -/
def firedAction (program : BytecodeProgram) (vm : Vm) : Option Nat :=
  (program.instructions[vm.pc]?).bind BytecodeOp.actionIndex

/-- The machine gets from one address to a later one in no more steps than they
    are apart, and executes the actions by which the memories differ. -/
def Walks (program : BytecodeProgram) (cache : List F32) (buffer : List Action) (pc : Nat)
    (m : Memory) (pc' : Nat) (m' : Memory) : Prop :=
  ∃ n, Reaches (vmStep program cache) n (m.place program buffer pc)
      (m'.place program buffer pc') ∧
    m'.fired = m.fired ++
      trace (vmStep program cache) (firedAction program) n (m.place program buffer pc) ∧
    pc + n ≤ pc'

variable (program : BytecodeProgram) (cache : List F32) (buffer : List Action)

theorem walks_refl (pc : Nat) (m : Memory) : Walks program cache buffer pc m pc m :=
  ⟨0, rfl, (List.append_nil _).symm, Nat.le_refl _⟩

theorem walks_trans {pc pc' pc'' : Nat} {m m' m'' : Memory}
    (h : Walks program cache buffer pc m pc' m') (h' : Walks program cache buffer pc' m' pc'' m'') :
    Walks program cache buffer pc m pc'' m'' := by
  rcases h with ⟨n, hn, hfired, hpc⟩
  rcases h' with ⟨n', hn', hfired', hpc'⟩
  refine ⟨n + n', reaches_trans hn hn', ?_, by omega⟩
  rw [hfired', hfired, trace_add _ n' hn, List.append_assoc]

/-- One instruction is a walk when it moves forward. -/
theorem walks_step {pc pc' : Nat} {m m' : Memory} (op : BytecodeOp)
    (hfetch : program.instructions[pc]? = some op)
    (hexecute : vmExecute program cache (m.place program buffer pc) op =
      m'.place program buffer pc')
    (hfired : m'.fired = m.fired ++ op.actionIndex.toList) (hforward : pc + 1 ≤ pc') :
    Walks program cache buffer pc m pc' m' := by
  have hplace : program.instructions[(m.place program buffer pc).pc]? = some op := hfetch
  have hstep : vmStep program cache (m.place program buffer pc) =
      some (m'.place program buffer pc') := by
    rw [vmStep, hplace, Option.map_some, hexecute]
  refine ⟨1, reaches_one hstep, ?_, hforward⟩
  rw [hfired, trace, hstep, firedAction, hplace]
  simp [trace]

end

section

/-- The variables are numbered in the order in which they were met. -/
structure VariablesNumbered (st : BytecodeCompiler) : Prop where
  numbered : st.variableMap.entries.map Sigma.snd
    = ((List.range st.variableMap.entries.length).map toU16).reverse
  next : st.nextVarIndex = toU16 st.variableMap.entries.length

/-- What the counters of the compiler say about its tables, with or without
    hysteresis. Every variable is loaded somewhere and every action executed. -/
structure Counted (st : BytecodeCompiler) : Prop where
  named : VariablesNumbered st
  nextAction : st.nextActionIndex = toU16 st.actions.length
  fewVariables : st.variableMap.entries.length ≤ st.instructions.length
  fewActions : st.actions.length ≤ st.instructions.length

/-- The compiler went on, and its hysteresis keys are what they were. -/
structure Grows (st st' : BytecodeCompiler) : Prop where
  tables : Extends st st'
  keys : st'.hysteresisMap = st.hysteresisMap
  bands : st'.hysteresisBands = st.hysteresisBands
  counted : Counted st → Counted st'

/-- Between the two compilers a fragment was emitted that has the given effect
    on memories in every finished program. -/
structure Performs (telemetry : Telemetry) (st st' : BytecodeCompiler)
    (effect : Memory → Memory) : Prop where
  grows : Grows st st'
  code : ∃ fragment, st'.instructions = st.instructions ++ fragment ∧
    ∀ program cache buffer m, Serves telemetry program cache st' →
      EmbeddedAt program.instructions st.instructions.length fragment →
      Walks program cache buffer st.instructions.length m st'.instructions.length (effect m)

variable (st : BytecodeCompiler)

theorem grows_trans (st' st'' : BytecodeCompiler) (h : Grows st st') (h' : Grows st' st'') :
    Grows st st'' :=
  ⟨extends_trans st st' st'' h.tables h'.tables, h'.keys.trans h.keys, h'.bands.trans h.bands,
    fun hc => h'.counted (h.counted hc)⟩

/-- A compiler with the same tables and no less code. -/
theorem grows_of_eq (st' : BytecodeCompiler) (hextends : Extends st st')
    (hvariables : st'.variableMap = st.variableMap) (hindex : st'.nextVarIndex = st.nextVarIndex)
    (hactions : st'.actions = st.actions) (hnext : st'.nextActionIndex = st.nextActionIndex)
    (hkeys : st'.hysteresisMap = st.hysteresisMap)
    (hbands : st'.hysteresisBands = st.hysteresisBands)
    (hlength : st.instructions.length ≤ st'.instructions.length) : Grows st st' := by
  refine ⟨hextends, hkeys, hbands, fun hc => ⟨⟨?_, ?_⟩, ?_, ?_, ?_⟩⟩
  · rw [hvariables, hc.named.numbered]
  · rw [hindex, hvariables, hc.named.next]
  · rw [hnext, hactions, hc.nextAction]
  · rw [hvariables]
    exact Nat.le_trans hc.fewVariables hlength
  · rw [hactions]
    exact Nat.le_trans hc.fewActions hlength

theorem grows_refl : Grows st st :=
  grows_of_eq st st (extends_of_eq st st rfl rfl rfl rfl rfl) rfl rfl rfl rfl rfl rfl
    (Nat.le_refl _)

theorem grows_emit (op : BytecodeOp) : Grows st (st.emit op) := by
  have hlength : (st.emit op).instructions.length = st.instructions.length + 1 :=
    List.length_append
  refine grows_of_eq st (st.emit op) (extends_emit st op) rfl rfl rfl rfl rfl rfl ?_
  rw [hlength]
  exact Nat.le_succ _

theorem grows_patchJumpFalse (index addr : Nat) : Grows st (st.patchJumpFalse index addr) := by
  have hextends := extends_patchJumpFalse st index addr
  unfold BytecodeCompiler.patchJumpFalse at hextends ⊢
  split
  · refine grows_of_eq st _ (extends_of_eq st _ rfl rfl rfl rfl rfl) rfl rfl rfl rfl rfl rfl ?_
    rw [List.length_set]
  · exact grows_refl st

variable (telemetry : Telemetry) (st : BytecodeCompiler)

theorem performs_refl : Performs telemetry st st fun m => m :=
  ⟨grows_refl st, [], (List.append_nil _).symm,
    fun program cache buffer m _ _ => walks_refl program cache buffer _ m⟩

variable (st' : BytecodeCompiler)

theorem performs_trans (st'' : BytecodeCompiler) (effect effect' : Memory → Memory)
    (h : Performs telemetry st st' effect) (h' : Performs telemetry st' st'' effect') :
    Performs telemetry st st'' fun m => effect' (effect m) := by
  rcases h with ⟨hgrows, first, hfirst, hwalk⟩
  rcases h' with ⟨hgrows', second, hsecond, hwalk'⟩
  refine ⟨grows_trans st st' st'' hgrows hgrows', first ++ second, ?_, ?_⟩
  · rw [hsecond, hfirst, List.append_assoc]
  · intro program cache buffer m hserves hembedded
    rcases embeddedAt_append _ _ _ _ hembedded with ⟨hat, hat'⟩
    -- The second fragment starts where the first one ends.
    rw [← List.length_append, ← hfirst] at hat'
    have hserves' := serves_of_extends telemetry program cache st' st'' hgrows'.tables hserves
    exact walks_trans program cache buffer (hwalk program cache buffer m hserves' hat)
      (hwalk' program cache buffer (effect m) hserves hat')

/-- An instruction that goes on to the next address, emitted by a compiler that
    may have grown its tables for it. -/
theorem performs_grown (op : BytecodeOp) (effect : Memory → Memory)
    (hgrows : Grows st (st'.emit op)) (hcode : st'.instructions = st.instructions)
    (hfired : ∀ m, (effect m).fired = m.fired ++ op.actionIndex.toList)
    (h : ∀ program cache buffer pc m, Serves telemetry program cache (st'.emit op) →
      vmExecute program cache (m.place program buffer pc) op =
        (effect m).place program buffer (pc + 1)) : Performs telemetry st (st'.emit op) effect := by
  have hinstructions : (st'.emit op).instructions = st.instructions ++ [op] := by
    rw [← hcode]
    rfl
  refine ⟨hgrows, [op], hinstructions, fun program cache buffer m hserves hembedded => ?_⟩
  rw [hinstructions, List.length_append]
  exact walks_step program cache buffer op (embeddedAt_head _ _ _ _ hembedded).1
    (h program cache buffer _ m hserves) (hfired m) (Nat.le_refl _)

theorem performs_emit (op : BytecodeOp) (effect : Memory → Memory)
    (hfired : ∀ m, (effect m).fired = m.fired ++ op.actionIndex.toList)
    (h : ∀ program cache buffer pc m,
      vmExecute program cache (m.place program buffer pc) op =
        (effect m).place program buffer (pc + 1)) : Performs telemetry st (st.emit op) effect :=
  performs_grown telemetry st st op effect (grows_emit st op) rfl hfired
    fun program cache buffer pc m _ => h program cache buffer pc m

/-- A block behind a `JumpFalse` that is patched to lead just past it. -/
theorem performs_guard (body : Memory → Memory)
    (h : Performs telemetry (st.emit (.jumpFalse 0)) st' body) :
    Performs telemetry st
      (st'.patchJumpFalse st.instructions.length (toU16 st'.instructions.length))
      (Memory.guard body) := by
  rcases h with ⟨hgrows, block, hblock, hwalk⟩
  -- The placeholder stands where the block was started.
  have hjump : st'.instructions = st.instructions ++ .jumpFalse 0 :: block := by
    rw [hblock]
    exact List.append_cons _ _ _ |>.symm
  have hpatched := patchJumpFalse_append st' st.instructions block 0
    (toU16 st'.instructions.length) hjump
  have hpatch := grows_patchJumpFalse st' st.instructions.length (toU16 st'.instructions.length)
  refine ⟨grows_trans _ _ _ (grows_trans _ _ _ (grows_emit st _) hgrows) hpatch,
    _, hpatched, fun program cache buffer m hserves hembedded => ?_⟩
  rcases embeddedAt_head _ _ _ _ hembedded with ⟨hfetch, hat⟩
  -- Patching changes no length, so the block ends where it ended.
  have hend : (st'.patchJumpFalse st.instructions.length
      (toU16 st'.instructions.length)).instructions.length = st'.instructions.length := by
    rw [hpatched, hjump, List.length_append, List.length_append, List.length_cons,
      List.length_cons]
  rw [hend]
  -- The target lies inside the program, so its low sixteen bits are all of it.
  have htarget : toU16 st'.instructions.length = st'.instructions.length := by
    rcases hembedded with ⟨before, after, hprogram, hbefore⟩
    have hlength := congrArg List.length hprogram
    have hshort := hserves.short
    simp only [List.length_append, List.length_cons] at hlength
    refine toU16_of_lt _ ?_
    rw [hjump, List.length_append, List.length_cons]
    omega
  rw [htarget] at hfetch
  have hlater : st.instructions.length + 1 ≤ st'.instructions.length := by
    rw [hjump, List.length_append, List.length_cons]
    omega
  have hserves' := serves_of_extends telemetry program cache st' _ hpatch.tables hserves
  have hstart : (st.emit (.jumpFalse 0)).instructions.length = st.instructions.length + 1 :=
    List.length_append
  rw [hstart] at hwalk
  by_cases hpasses : m.passes = true
  · rw [Memory.guard, if_pos hpasses]
    have hnext : Walks program cache buffer st.instructions.length m
        (st.instructions.length + 1) m.pop := by
      refine walks_step program cache buffer _ hfetch ?_ (List.append_nil _).symm (Nat.le_refl _)
      rcases m with ⟨_ | ⟨condition, rest⟩, hyst, fired⟩
      · rfl
      · have hfalse : condition.eq (.fin 0) = false := by
          simpa [Memory.passes] using hpasses
        simp [vmExecute, Memory.place, Memory.pop, hfalse]
    exact walks_trans program cache buffer hnext (hwalk program cache buffer m.pop hserves' hat)
  · rw [Memory.guard, if_neg hpasses]
    refine walks_step program cache buffer _ hfetch ?_ (List.append_nil _).symm hlater
    rcases m with ⟨_ | ⟨condition, rest⟩, hyst, fired⟩
    · exact absurd rfl hpasses
    · have hfalse : condition.eq (.fin 0) = true := by
        simpa [Memory.passes] using hpasses
      simp [vmExecute, Memory.place, Memory.pop, hfalse]

end

namespace Condition

mutual

/-- What the code of a condition does. -/
def perform (telemetry : Telemetry) (keys : AList fun _ : Text => Nat) : Condition → Memory → Memory
  | .boolean var negate, m => m.push (ofBool (eval telemetry (.boolean var negate)))
  | .compare var operator value, m => m.compare telemetry keys var operator value
  | .and conditions, m => performAnd telemetry keys conditions m
  | .or conditions, m => performOr telemetry keys conditions m

/-- The code of a conjunction. -/
def performAnd (telemetry : Telemetry) (keys : AList fun _ : Text => Nat) :
    List Condition → Memory → Memory
  | [], m => m.push (.fin 1)
  | c :: rest, m => performAndRest telemetry keys rest (perform telemetry keys c m)

/-- The code of a conjunction after its first condition. -/
def performAndRest (telemetry : Telemetry) (keys : AList fun _ : Text => Nat) :
    List Condition → Memory → Memory
  | [], m => m
  | c :: rest, m =>
      performAndRest telemetry keys rest
        (Memory.guard (fun m => (perform telemetry keys c m).conjoin) m)

/-- The code of a disjunction. -/
def performOr (telemetry : Telemetry) (keys : AList fun _ : Text => Nat) :
    List Condition → Memory → Memory
  | [], m => m.push (.fin 0)
  | c :: rest, m => performOrRest telemetry keys rest (perform telemetry keys c m)

/-- The code of a disjunction after its first condition. -/
def performOrRest (telemetry : Telemetry) (keys : AList fun _ : Text => Nat) :
    List Condition → Memory → Memory
  | [], m => m
  | c :: rest, m => performOrRest telemetry keys rest (perform telemetry keys c m).disjoin

end

end Condition

theorem eq_zero_ofBool (b : Bool) : (ofBool b).eq (.fin 0) = !b := by
  cases b with
  | false => decide
  | true => decide

section

variable (telemetry : Telemetry) (st : BytecodeCompiler) (name : Text)

/-- The state after `get_or_add_variable` knows the index it returns. -/
theorem lookup_addVariable :
    (st.addVariable name).variableMap.lookup name = some (st.variableIndex name) := by
  unfold BytecodeCompiler.addVariable BytecodeCompiler.variableIndex
  cases hl : st.variableMap.lookup name with
  | some index => exact hl
  | none => exact AList.lookup_insert _

/-- A new variable gets the next number, and the counter goes on. -/
theorem variablesNumbered_addVariable (h : VariablesNumbered st) :
    VariablesNumbered (st.addVariable name) := by
  unfold BytecodeCompiler.addVariable
  cases hl : st.variableMap.lookup name with
  | some index => exact h
  | none =>
      have hentries : (st.variableMap.insert name st.nextVarIndex).entries
          = ⟨name, st.nextVarIndex⟩ :: st.variableMap.entries :=
        AList.entries_insert_of_notMem (AList.lookup_eq_none.mp hl)
      constructor
      · simp only [hentries, List.map_cons, List.length_cons, List.range_succ, List.map_append,
          List.reverse_append, List.map_nil, List.reverse_singleton, List.singleton_append]
        rw [h.numbered, h.next]
      · simp only [hentries, List.length_cons]
        rw [h.next, toU16, toU16, toU16, Nat.mod_add_mod]

theorem length_addVariable :
    (st.addVariable name).variableMap.entries.length ≤ st.variableMap.entries.length + 1 := by
  unfold BytecodeCompiler.addVariable
  cases hl : st.variableMap.lookup name with
  | some index => exact Nat.le_succ _
  | none =>
      have hentries := AList.entries_insert_of_notMem (b := st.nextVarIndex)
        (AList.lookup_eq_none.mp hl)
      simp only [hentries, List.length_cons, Nat.le_refl]

/-- A new variable disturbs no other. -/
theorem extends_addVariable : Extends st (st.addVariable name) := by
  have hnumbered := variablesNumbered_addVariable st name
  unfold BytecodeCompiler.addVariable at hnumbered ⊢
  cases hl : st.variableMap.lookup name with
  | some index => exact extends_of_eq st st rfl rfl rfl rfl rfl
  | none =>
      refine ⟨fun other index hother => ?_, List.prefix_refl _, fun hw => ?_⟩
      · -- A name with an index is another name.
        have hne : other ≠ name := by
          intro heq
          subst heq
          rw [hl] at hother
          exact absurd hother (by simp)
        rw [← hother]
        exact AList.lookup_insert_ne hne
      · simp only [hl] at hnumbered
        have hnext := hnumbered ⟨hw.numbered, hw.nextVariable⟩
        exact ⟨hw.noHysteresis, hnext.numbered, hnext.next, hw.nextAction⟩

theorem grows_loadVar (index : Nat) : Grows st ((st.addVariable name).emit (.loadVar index)) := by
  have hextends := extends_trans _ _ _ (extends_addVariable st name)
    (extends_emit _ (.loadVar index))
  have hnumbered := variablesNumbered_addVariable st name
  have hlength := length_addVariable st name
  rw [addVariable_eq st name] at hextends hnumbered hlength ⊢
  have hcode : ({ st with
      variableMap := (st.addVariable name).variableMap
      nextVarIndex := (st.addVariable name).nextVarIndex }.emit
        (.loadVar index)).instructions.length = st.instructions.length + 1 := List.length_append
  refine ⟨hextends, rfl, rfl, fun hc => ⟨?_, hc.nextAction, ?_, ?_⟩⟩
  · exact ⟨(hnumbered hc.named).numbered, (hnumbered hc.named).next⟩
  · rw [hcode]
    exact Nat.le_trans hlength (Nat.succ_le_succ hc.fewVariables)
  · rw [hcode]
    exact Nat.le_succ_of_le hc.fewActions

/-- A variable loaded by name, whatever index it has or gets. -/
theorem performs_loadVar :
    Performs telemetry st ((st.addVariable name).emit (.loadVar (st.variableIndex name)))
      fun m => m.push (valueOf telemetry name) := by
  have hcode : (st.addVariable name).instructions = st.instructions := by
    rw [addVariable_eq]
  refine performs_grown telemetry st _ _ _ (grows_loadVar st name _) hcode
    (fun m => (List.append_nil _).symm) fun program cache buffer pc m hserves => ?_
  have hcached := hserves.cached name _ (lookup_addVariable st name)
  simp only [vmExecute, Memory.place, Memory.push, valueOf, hcached]

theorem performs_loadConst (value : F32) :
    Performs telemetry st (st.emit (.loadConst value)) fun m => m.push value :=
  performs_emit telemetry st _ _ (fun _ => (List.append_nil _).symm) fun _ _ _ _ _ => rfl

theorem fired_combine (op : F32 → F32 → F32) (m : Memory) : (m.combine op).fired = m.fired := by
  rcases m with ⟨_ | ⟨b, _ | ⟨a, rest⟩⟩, hyst, fired⟩
  · rfl
  · rfl
  · rfl

theorem performs_and : Performs telemetry st (st.emit .and) Memory.conjoin := by
  refine performs_emit telemetry st _ _ (fun m => ?_) fun program cache buffer pc m => ?_
  · rw [Memory.conjoin, fired_combine]
    exact (List.append_nil _).symm
  · rcases m with ⟨_ | ⟨b, _ | ⟨a, rest⟩⟩, hyst, fired⟩
    · rfl
    · rfl
    · rfl

theorem performs_or : Performs telemetry st (st.emit .or) Memory.disjoin := by
  refine performs_emit telemetry st _ _ (fun m => ?_) fun program cache buffer pc m => ?_
  · rw [Memory.disjoin, fired_combine]
    exact (List.append_nil _).symm
  · rcases m with ⟨_ | ⟨b, _ | ⟨a, rest⟩⟩, hyst, fired⟩
    · rfl
    · rfl
    · rfl

/-- Two operands loaded and compared. -/
theorem performs_compared (a b : F32) (op : CompareOp) (st' : BytecodeCompiler)
    (h : Performs telemetry st st' fun m => (m.push a).push b) :
    Performs telemetry st (st'.emit (.compare op))
      fun m => m.push (ofBool (compareValues a b op)) := by
  have hcompare : Performs telemetry st' (st'.emit (.compare op))
      (Memory.combine fun a b => ofBool (compareValues a b op)) := by
    refine performs_emit telemetry st' _ _ (fun m => ?_) fun program cache buffer pc m => ?_
    · rw [fired_combine]
      exact (List.append_nil _).symm
    · rcases m with ⟨_ | ⟨b, _ | ⟨a, rest⟩⟩, hyst, fired⟩
      · rfl
      · rfl
      · rfl
  exact performs_trans telemetry st st' _ _ _ h hcompare

/-- Two operands loaded and compared by a hysteresis state. -/
theorem performs_hysteresis (current threshold : F32) (index : Nat) (st' : BytecodeCompiler)
    (h : Performs telemetry st st' fun m => (m.push current).push threshold) :
    Performs telemetry st (st'.emit (.hysteresis index)) fun m =>
      { m with
        stack := ofBool (applyHysteresis m.hyst index current threshold).2 :: m.stack
        hyst := (applyHysteresis m.hyst index current threshold).1 } := by
  let applied : Memory → Memory := fun m =>
    match m.stack with
    | threshold :: current :: rest =>
        { m with
          stack := ofBool (applyHysteresis m.hyst index current threshold).2 :: rest
          hyst := (applyHysteresis m.hyst index current threshold).1 }
    | _ => m
  have happly : Performs telemetry st' (st'.emit (.hysteresis index)) applied := by
    refine performs_emit telemetry st' _ _ (fun m => ?_) fun program cache buffer pc m => ?_
    · rcases m with ⟨_ | ⟨b, _ | ⟨a, rest⟩⟩, hyst, fired⟩
      · exact (List.append_nil _).symm
      · exact (List.append_nil _).symm
      · exact (List.append_nil _).symm
    · rcases m with ⟨_ | ⟨b, _ | ⟨a, rest⟩⟩, hyst, fired⟩
      · rfl
      · rfl
      · rfl
  exact performs_trans telemetry st st' _ _ _ h happly

/-- `Not` after code that pushes a truth value. -/
theorem performs_not (b : Bool) (st' : BytecodeCompiler)
    (h : Performs telemetry st st' fun m => m.push (ofBool b)) :
    Performs telemetry st (st'.emit .not) fun m => m.push (ofBool !b) := by
  let negated : Memory → Memory := fun m =>
    { m with stack := m.stack.modifyHead fun value => ofBool (value.eq (.fin 0)) }
  have hnot : Performs telemetry st' (st'.emit .not) negated := by
    refine performs_emit telemetry st' _ _ (fun m => (List.append_nil _).symm)
      fun program cache buffer pc m => ?_
    rcases m with ⟨_ | ⟨value, rest⟩, hyst, fired⟩
    · rfl
    · rfl
  have hboth := performs_trans telemetry st st' _ _ _ h hnot
  have hvalue : (fun m : Memory => negated (m.push (ofBool b))) = fun m => m.push (ofBool !b) := by
    funext m
    simp only [negated, Memory.push, List.modifyHead_cons, eq_zero_ofBool]
  rw [hvalue] at hboth
  exact hboth

theorem performs_compileBoolean (keys : AList fun _ : Text => Nat) (var : Text) (negate : Bool) :
    Performs telemetry st (st.compileBoolean var negate)
      (Condition.perform telemetry keys (.boolean var negate)) := by
  have hloaded := performs_trans telemetry st _ _ _ _ (performs_loadVar telemetry st var)
    (performs_loadConst telemetry _ (.fin 0))
  have hcompared := performs_compared telemetry st _ _ .notEqual _ hloaded
  cases negate with
  | false =>
      have heffect : Condition.perform telemetry keys (.boolean var false) = fun m =>
          m.push (ofBool (compareValues (valueOf telemetry var) (.fin 0) .notEqual)) := by
        funext m
        simp [Condition.perform, Condition.eval]
      rw [heffect]
      exact hcompared
  | true =>
      have heffect : Condition.perform telemetry keys (.boolean var true) = fun m =>
          m.push (ofBool !(compareValues (valueOf telemetry var) (.fin 0) .notEqual)) := by
        funext m
        simp [Condition.perform, Condition.eval]
      rw [heffect]
      exact performs_not telemetry st _ _ hcompared

/-- A variable with a hysteresis key is compared by its hysteresis state. -/
theorem performs_compileCompare (var : Text) (operator : CompareOp) (value : F32) :
    Performs telemetry st (st.compileCompare var operator value)
      (Condition.perform telemetry st.hysteresisMap (.compare var operator value)) := by
  have hloaded := performs_trans telemetry st _ _ _ _ (performs_loadVar telemetry st var)
    (performs_loadConst telemetry _ value)
  have hkeys := hloaded.grows.keys
  change Performs telemetry st _ (Memory.compare telemetry st.hysteresisMap var operator value)
  unfold BytecodeCompiler.compileCompare Memory.compare
  rw [← hkeys]
  cases hkey : ((((st.addVariable var).emit (.loadVar (st.variableIndex var))).emit
      (.loadConst value)).hysteresisMap).lookup var with
  | some index =>
      simp only [hkey]
      exact performs_hysteresis telemetry st _ _ index _ hloaded
  | none =>
      simp only [hkey]
      exact performs_compared telemetry st _ _ operator _ hloaded

end

section

variable (telemetry : Telemetry)

mutual

/-- The code of a condition does what `perform` says. -/
theorem performs_compileCondition (st : BytecodeCompiler) (c : Condition) :
    Performs telemetry st (st.compileCondition c) (c.perform telemetry st.hysteresisMap) := by
  cases c with
  | boolean var negate => exact performs_compileBoolean telemetry st st.hysteresisMap var negate
  | compare var operator value => exact performs_compileCompare telemetry st var operator value
  | and conditions => exact performs_compileAnd st conditions
  | or conditions => exact performs_compileOr st conditions

theorem performs_compileAnd (st : BytecodeCompiler) (conditions : List Condition) :
    Performs telemetry st (st.compileAnd conditions)
      (Condition.performAnd telemetry st.hysteresisMap conditions) := by
  cases conditions with
  | nil => exact performs_loadConst telemetry st (.fin 1)
  | cons c rest =>
      have hfirst := performs_compileCondition st c
      have hrest := performs_compileAndRest (st.compileCondition c) rest
      rw [hfirst.grows.keys] at hrest
      -- `performAnd` is the composition by its definition.
      have hboth := performs_trans telemetry st _ _ _ _ hfirst hrest
      exact hboth

theorem performs_compileAndRest (st : BytecodeCompiler) (conditions : List Condition) :
    Performs telemetry st (st.compileAndRest conditions)
      (Condition.performAndRest telemetry st.hysteresisMap conditions) := by
  cases conditions with
  | nil => exact performs_refl telemetry st
  | cons c rest =>
      have hbody := performs_trans telemetry _ _ _ _ _
        (performs_compileCondition (st.emit (.jumpFalse 0)) c) (performs_and telemetry _)
      -- The jump is patched once the block behind it is there.
      have hblock := performs_guard telemetry st _ _ hbody
      have hrest := performs_compileAndRest
        ((((st.emit (.jumpFalse 0)).compileCondition c).emit .and).patchJumpFalse
          st.instructions.length
          (toU16 (((st.emit (.jumpFalse 0)).compileCondition c).emit .and).instructions.length))
        rest
      rw [hblock.grows.keys] at hrest
      have hboth := performs_trans telemetry st _ _ _ _ hblock hrest
      exact hboth

theorem performs_compileOr (st : BytecodeCompiler) (conditions : List Condition) :
    Performs telemetry st (st.compileOr conditions)
      (Condition.performOr telemetry st.hysteresisMap conditions) := by
  cases conditions with
  | nil => exact performs_loadConst telemetry st (.fin 0)
  | cons c rest =>
      have hfirst := performs_compileCondition st c
      have hrest := performs_compileOrRest (st.compileCondition c) rest
      rw [hfirst.grows.keys] at hrest
      have hboth := performs_trans telemetry st _ _ _ _ hfirst hrest
      exact hboth

theorem performs_compileOrRest (st : BytecodeCompiler) (conditions : List Condition) :
    Performs telemetry st (st.compileOrRest conditions)
      (Condition.performOrRest telemetry st.hysteresisMap conditions) := by
  cases conditions with
  | nil => exact performs_refl telemetry st
  | cons c rest =>
      have hblock := performs_trans telemetry _ _ _ _ _
        (performs_compileCondition st c) (performs_or telemetry _)
      have hrest := performs_compileOrRest ((st.compileCondition c).emit .or) rest
      rw [hblock.grows.keys] at hrest
      have hboth := performs_trans telemetry st _ _ _ _ hblock hrest
      exact hboth

end

/-- What the code of a rule does, whose action has the given index. -/
def performRule (telemetry : Telemetry) (keys : AList fun _ : Text => Nat) (index : Nat)
    (condition : Condition) (m : Memory) : Memory :=
  Memory.guard (Memory.fire index) (condition.perform telemetry keys m)

/-- What the code of a list of rules does, the first of which has the number `n`. -/
def performRules (telemetry : Telemetry) (keys : AList fun _ : Text => Nat) :
    Nat → List ParsedRule → Memory → Memory
  | _, [], m => m
  | n, rule :: rest, m =>
      performRules telemetry keys (n + 1) rest (performRule telemetry keys (toU16 n) rule.1 m)

variable (st : BytecodeCompiler)

theorem extends_addAction (action : Action) : Extends st (st.addAction action) := by
  refine ⟨fun _ _ hl => hl, List.prefix_append _ _, fun hw => ?_⟩
  refine ⟨hw.noHysteresis, hw.numbered, hw.nextVariable, ?_⟩
  have hnext : (st.addAction action).nextActionIndex = toU16 (st.nextActionIndex + 1) := rfl
  have hactions : (st.addAction action).actions = st.actions ++ [action] := rfl
  rw [hnext, hactions, hw.nextAction, List.length_append, List.length_singleton, toU16, toU16,
    toU16, Nat.mod_add_mod]

theorem grows_action (action : Action) (index : Nat) :
    Grows st ((st.addAction action).emit (.action index)) := by
  have hcode : ((st.addAction action).emit (.action index)).instructions.length =
      st.instructions.length + 1 := List.length_append
  have hactions : ((st.addAction action).emit (.action index)).actions.length =
      st.actions.length + 1 := List.length_append
  have hnext : ((st.addAction action).emit (.action index)).nextActionIndex =
      toU16 (st.nextActionIndex + 1) := rfl
  refine ⟨extends_trans _ _ _ (extends_addAction st action) (extends_emit _ _), rfl, rfl,
    fun hc => ⟨⟨hc.named.numbered, hc.named.next⟩, ?_, ?_, ?_⟩⟩
  · rw [hnext, hactions, hc.nextAction, toU16, toU16, toU16, Nat.mod_add_mod]
  · rw [hcode]
    exact Nat.le_succ_of_le hc.fewVariables
  · rw [hcode, hactions]
    exact Nat.succ_le_succ hc.fewActions

theorem performs_action (action : Action) :
    Performs telemetry st ((st.addAction action).emit (.action st.nextActionIndex))
      (Memory.fire st.nextActionIndex) := by
  refine performs_grown telemetry st _ _ _ (grows_action st action _) rfl (fun m => rfl)
    fun program cache buffer pc m _ => ?_
  cases hfetch : program.actions[st.nextActionIndex]? with
  | none => simp [vmExecute, Memory.place, Memory.fire, hfetch]
  | some found => simp [vmExecute, Memory.place, Memory.fire, hfetch]

/-- The code of a rule; its action has the number of actions before it. -/
theorem performs_compileParsed (hc : Counted st) (condition : Condition) (action : Action) :
    Performs telemetry st (st.compileParsed condition action)
      (performRule telemetry st.hysteresisMap (toU16 st.actions.length) condition) := by
  have hcondition := performs_compileCondition telemetry st condition
  have hindex : ((st.compileCondition condition).emit (.jumpFalse 0)).nextActionIndex =
      toU16 st.actions.length := by
    have hnext := (hcondition.grows.counted hc).nextAction
    rw [(adds_compileCondition st condition).actions, List.append_nil] at hnext
    exact hnext
  have haction := performs_action telemetry
    ((st.compileCondition condition).emit (.jumpFalse 0)) action
  have hguard := performs_guard telemetry _ _ _ haction
  have hrule := performs_trans telemetry st _ _ _ _ hcondition hguard
  have heffect : performRule telemetry st.hysteresisMap (toU16 st.actions.length) condition =
      fun m => Memory.guard
        (Memory.fire ((st.compileCondition condition).emit (.jumpFalse 0)).nextActionIndex)
        (condition.perform telemetry st.hysteresisMap m) := by
    rw [hindex]
    rfl
  rw [heffect]
  exact hrule

/-- The code of a list of rules. -/
theorem performs_compileRules (rules : List ParsedRule) (st : BytecodeCompiler) (hc : Counted st) :
    Performs telemetry st (compileRules st rules)
      (performRules telemetry st.hysteresisMap st.actions.length rules) := by
  induction rules generalizing st with
  | nil => exact performs_refl telemetry st
  | cons rule rest ih =>
      have hrule := performs_compileParsed telemetry st hc rule.1 rule.2
      have hrest := ih _ (hrule.grows.counted hc)
      rw [hrule.grows.keys, (adds_compileParsed st rule.1 rule.2).actions, List.length_append]
        at hrest
      have hrules := performs_trans telemetry st _ _ _ _ hrule hrest
      exact hrules

/-- Writing other places leaves a place alone. -/
theorem getElem?_cacheVariables_of_notMem (entries : List (Σ _ : Text, Nat)) (cache : List F32)
    (index : Nat) (h : index ∉ entries.map Sigma.snd) :
    (entries.foldl (fun cache e => RulesEvaluator.cacheVariable telemetry cache e.1 e.2)
      cache)[index]? = cache[index]? := by
  induction entries generalizing cache with
  | nil => rfl
  | cons e rest ih =>
      rw [List.map_cons, List.mem_cons, not_or] at h
      rw [List.foldl_cons, ih _ h.2, RulesEvaluator.cacheVariable,
        List.getElem?_set_ne (Ne.symm h.1)]

/-- With distinct indices every variable ends up in its own place. -/
theorem getElem?_cacheVariables (entries : List (Σ _ : Text, Nat)) (cache : List F32)
    (name : Text) (index : Nat) (hnodup : (entries.map Sigma.snd).Nodup)
    (hmem : ⟨name, index⟩ ∈ entries) (hlt : index < cache.length) :
    (entries.foldl (fun cache e => RulesEvaluator.cacheVariable telemetry cache e.1 e.2)
      cache)[index]? = some (valueOf telemetry name) := by
  induction entries generalizing cache with
  | nil => exact absurd hmem (by simp)
  | cons e rest ih =>
      rw [List.map_cons, List.nodup_cons] at hnodup
      rw [List.foldl_cons]
      -- The later entries write other places, so the value stays.
      rcases List.mem_cons.mp hmem with heq | hrest
      · subst heq
        rw [getElem?_cacheVariables_of_notMem telemetry rest _ _ hnodup.1,
          RulesEvaluator.cacheVariable, List.getElem?_set_self hlt]
        rfl
      · refine ih _ hnodup.2 hrest ?_
        rw [RulesEvaluator.cacheVariable, List.length_set]
        exact hlt

/-- The cache of an evaluator initialised for the program holds the telemetry. -/
theorem cached_updateVariableCache (st : BytecodeCompiler) (hnumbered : VariablesNumbered st)
    (hfew : st.variableMap.entries.length < 2 ^ 16) (cache : List F32)
    (hlength : cache.length = st.variableMap.entries.length) (name : Text) (index : Nat)
    (h : st.variableMap.lookup name = some index) :
    ((RulesEvaluator.updateVariableCache cache st.finalize telemetry)[index]?).getD (.fin 0)
      = (telemetry name).getD (.fin 0) := by
  -- Below the bound the sixteen-bit indices are the numbers themselves.
  have hindices : st.variableMap.entries.map Sigma.snd
      = (List.range st.variableMap.entries.length).reverse := by
    rw [hnumbered.numbered]
    refine congrArg List.reverse ?_
    have hsame : ∀ k ∈ List.range st.variableMap.entries.length, toU16 k = k := by
      intro k hk
      have hlt := List.mem_range.mp hk
      exact toU16_of_lt k (by omega)
    rw [List.map_congr_left hsame, List.map_id']
  have hmem : (⟨name, index⟩ : Σ _ : Text, Nat) ∈ st.variableMap.entries :=
    AList.mem_lookup_iff.mp h
  have hlt : index < st.variableMap.entries.length := by
    have hindex : index ∈ st.variableMap.entries.map Sigma.snd :=
      List.mem_map.mpr ⟨_, hmem, rfl⟩
    rw [hindices, List.mem_reverse, List.mem_range] at hindex
    exact hindex
  have hnodup : (st.variableMap.entries.map Sigma.snd).Nodup := by
    rw [hindices, List.nodup_reverse]
    exact List.nodup_range
  have hplace := getElem?_cacheVariables telemetry st.variableMap.entries cache name index hnodup
    hmem (by rw [hlength]; exact hlt)
  have hcache : RulesEvaluator.updateVariableCache cache st.finalize telemetry
      = st.variableMap.entries.foldl
          (fun cache e => RulesEvaluator.cacheVariable telemetry cache e.1 e.2) cache := rfl
  rw [hcache, hplace]
  rfl

/-- Writing to the cache keeps its length. -/
theorem length_updateVariableCache (cache : List F32) (program : BytecodeProgram) :
    (RulesEvaluator.updateVariableCache cache program telemetry).length = cache.length := by
  unfold RulesEvaluator.updateVariableCache
  induction program.variableMap.entries generalizing cache with
  | nil => rfl
  | cons e rest ih =>
      rw [List.foldl_cons, ih, RulesEvaluator.cacheVariable, List.length_set]

/-- A compiler that has only taken up hysteresis keys. -/
structure Fresh (st : BytecodeCompiler) : Prop where
  instructions : st.instructions = []
  variableMap : st.variableMap = ∅
  nextVariable : st.nextVarIndex = 0
  actions : st.actions = []
  nextAction : st.nextActionIndex = 0

variable (st : BytecodeCompiler)

theorem counted_of_fresh (h : Fresh st) : Counted st := by
  refine ⟨⟨?_, ?_⟩, ?_, ?_, ?_⟩
  · rw [h.variableMap]
    rfl
  · rw [h.variableMap, h.nextVariable]
    rfl
  · rw [h.actions, h.nextAction]
    rfl
  · rw [h.variableMap]
    exact Nat.zero_le _
  · rw [h.actions]
    exact Nat.zero_le _

theorem fresh_addHysteresisKey (key : Text) (band : F32) (h : Fresh st) :
    Fresh (st.addHysteresisKey key band) := by
  unfold BytecodeCompiler.addHysteresisKey
  split
  · exact h
  · exact ⟨h.instructions, h.variableMap, h.nextVariable, h.actions, h.nextAction⟩

theorem fresh_initialCompiler (schema : RulesSchema) : Fresh schema.initialCompiler := by
  unfold RulesSchema.initialCompiler
  have hfold : ∀ (entries : List (Σ _ : Text, F32)) (st : BytecodeCompiler), Fresh st →
      Fresh (entries.foldl (fun st e => st.addHysteresisKey e.1 e.2) st) := by
    intro entries
    induction entries with
    | nil => exact fun st h => h
    | cons e rest ih => exact fun st h => ih _ (fresh_addHysteresisKey st e.1 e.2 h)
  exact hfold _ {} ⟨rfl, rfl, rfl, rfl, rfl⟩

/-- The machine on a compiled program, for every bound from the length of the
    program on, and the actions that it executes. -/
theorem execute_compileRules (hfresh : Fresh st) (rules : List ParsedRule) (cache : List F32)
    (m : Memory) (hfired : m.fired = []) (fuel : Nat)
    (hshort : (compileRules st rules).instructions.length < 2 ^ 16)
    (hlength : cache.length = (compileRules st rules).variableMap.entries.length)
    (hfuel : (compileRules st rules).instructions.length ≤ fuel) :
    execute (compileRules st rules).finalize
        (RulesEvaluator.updateVariableCache cache (compileRules st rules).finalize telemetry) fuel
        (m.place (compileRules st rules).finalize [] 0) =
      (performRules telemetry st.hysteresisMap 0 rules m).place (compileRules st rules).finalize []
        (compileRules st rules).instructions.length ∧
    trace (vmStep (compileRules st rules).finalize
        (RulesEvaluator.updateVariableCache cache (compileRules st rules).finalize telemetry))
        (firedAction (compileRules st rules).finalize) fuel
        (m.place (compileRules st rules).finalize [] 0) =
      (performRules telemetry st.hysteresisMap 0 rules m).fired := by
  have hcounted := counted_of_fresh st hfresh
  have hperforms := performs_compileRules telemetry rules st hcounted
  have hcounted' := hperforms.grows.counted hcounted
  rcases hperforms.code with ⟨fragment, hfragment, hwalk⟩
  have hserves : Serves telemetry (compileRules st rules).finalize
      (RulesEvaluator.updateVariableCache cache (compileRules st rules).finalize telemetry)
      (compileRules st rules) := by
    refine ⟨hshort, Nat.lt_of_le_of_lt hcounted'.fewActions hshort, ?_, List.prefix_refl _⟩
    exact cached_updateVariableCache telemetry _ hcounted'.named
      (Nat.lt_of_le_of_lt hcounted'.fewVariables hshort) cache hlength
  have hembedded : EmbeddedAt (compileRules st rules).finalize.instructions
      st.instructions.length fragment := by
    refine ⟨st.instructions, [], ?_, rfl⟩
    rw [List.append_nil]
    exact hfragment
  have hwhole := hwalk _ _ [] m hserves hembedded
  rw [hfresh.instructions, hfresh.actions] at hwhole
  rcases hwhole with ⟨n, hreaches, htrace, hbound⟩
  have hsteps : 0 + n ≤ (compileRules st rules).instructions.length := hbound
  -- The run ends past the last instruction.
  have hhalt : ∀ m' : Memory, vmStep (compileRules st rules).finalize
      (RulesEvaluator.updateVariableCache cache (compileRules st rules).finalize telemetry)
      (m'.place (compileRules st rules).finalize []
        (compileRules st rules).instructions.length) = none := by
    intro m'
    have hend : (compileRules st rules).finalize.instructions[
        (compileRules st rules).instructions.length]? = none :=
      List.getElem?_eq_none (Nat.le_refl _)
    exact congrArg (Option.map _) hend
  refine ⟨exec_of_reaches hreaches (hhalt _) (by omega), ?_⟩
  rw [hfired, List.nil_append] at htrace
  exact (trace_of_reaches _ hreaches (hhalt _) (by omega)).trans htrace.symm

end

end OpenFlight.Rules
