import OpenFlight.Core.Panels.Evaluator

/-!
# What the Compiler Emits

The contract between a stretch of the compiler and the machine that will run
what it emitted, and the shape of the code itself.

The compiler appends to one growing program, and its jump targets are absolute.
So a fragment is not described by itself: `Emits` relates the compiler before
and after a stretch of work, says that what was emitted is a suffix, and says
what the machine does when it comes to that suffix *inside any finished
program* that still has it. A finished program may know more variables and more
actions than the compiler did at that point, never other ones, and `Serves` is
what it has to offer.

The effect of a fragment is a function on `Frame`s, the part of the machine
that compiled code touches: the stack and the buffer of actions. Every fragment
is entered at its first instruction and left just past its last one, in no more
steps than it has instructions. That last part, in `Runs`, bounds the steps of
the whole program by its length.

The length of the code of a condition depends on the condition alone. Neither
the variables that are known already nor the hysteresis keys change it: a
comparison is one instruction with or without hysteresis. All jumps are
`JumpFalse`, emitted with a target of zero and patched once the code they skip
is there. The patch is the length of the program at that point, cut to sixteen
bits. So a jump leads forward and not past the end, as long as the finished
program is short enough for its own addresses.

## Main definitions

* `Frame`, `vmAt`: The machine at an address.
* `WellFormed`: The counters of the compiler agree with its tables.

## Theorems

* `adds_guard`: A block behind a patched `JumpFalse`.
-/

namespace OpenFlight.Rules

open Panels

/-- The part of the machine that compiled code works on. -/
@[ext]
structure Frame where
  stack : List F32 := []
  actions : List Action := []

/-- A frame with a value pushed. -/
def Frame.push (f : Frame) (value : F32) : Frame :=
  { f with stack := value :: f.stack }

/-- The machine at an address; compiled code without hysteresis leaves the
    hysteresis states alone. -/
def vmAt (hyst : List HysteresisState) (pc : Nat) (f : Frame) : Vm :=
  { pc := pc, stack := f.stack, hysteresisState := hyst, actionsBuffer := f.actions }

/-- The machine gets from one state to a later address in no more steps than
    the addresses are apart. -/
def Runs (program : BytecodeProgram) (cache : List F32) (s t : Vm) : Prop :=
  ∃ n, Reaches (vmStep program cache) n s t ∧ s.pc + n ≤ t.pc

/-- What the counters of the compiler say about its tables, when the schema has no hysteresis. -/
structure WellFormed (st : BytecodeCompiler) : Prop where
  noHysteresis : st.hysteresisMap = ∅
  numbered : st.variableMap.entries.map Sigma.snd
    = ((List.range st.variableMap.entries.length).map toU16).reverse
  nextVariable : st.nextVarIndex = toU16 st.variableMap.entries.length
  nextAction : st.nextActionIndex = toU16 st.actions.length

/-- What compiled code needs from the program it ends up in. -/
structure Serves (telemetry : Telemetry) (program : BytecodeProgram) (cache : List F32)
    (st : BytecodeCompiler) : Prop where
  short : program.instructions.length < 2 ^ 16
  fewActions : program.actions.length < 2 ^ 16
  cached : ∀ name index, st.variableMap.lookup name = some index →
    (cache[index]?).getD (.fin 0) = (telemetry name).getD (.fin 0)
  actions : st.actions <+: program.actions

/-- The tables of a compiler are kept by a later one. -/
structure Extends (st st' : BytecodeCompiler) : Prop where
  indices : ∀ name index, st.variableMap.lookup name = some index →
    st'.variableMap.lookup name = some index
  actions : st.actions <+: st'.actions
  wellFormed : WellFormed st → WellFormed st'

variable (st : BytecodeCompiler)

theorem extends_trans (st' st'' : BytecodeCompiler) (h : Extends st st') (h' : Extends st' st'') :
    Extends st st'' :=
  ⟨fun name index hl => h'.indices name index (h.indices name index hl),
    h.actions.trans h'.actions, fun hw => h'.wellFormed (h.wellFormed hw)⟩

/-- A compiler that differs only in what it emitted has the same tables. -/
theorem extends_of_eq (st' : BytecodeCompiler) (hvariables : st'.variableMap = st.variableMap)
    (hindex : st'.nextVarIndex = st.nextVarIndex) (hhyst : st'.hysteresisMap = st.hysteresisMap)
    (hactions : st'.actions = st.actions) (hnext : st'.nextActionIndex = st.nextActionIndex) :
    Extends st st' := by
  refine ⟨fun name index hl => by rw [hvariables, hl], by rw [hactions], fun hw => ?_⟩
  refine ⟨by rw [hhyst, hw.noHysteresis], by rw [hvariables, hw.numbered], ?_, ?_⟩
  · rw [hindex, hvariables, hw.nextVariable]
  · rw [hnext, hactions, hw.nextAction]

theorem serves_of_extends (telemetry : Telemetry) (program : BytecodeProgram) (cache : List F32)
    (st st' : BytecodeCompiler) (h : Extends st st')
    (hserves : Serves telemetry program cache st') :
    Serves telemetry program cache st :=
  ⟨hserves.short, hserves.fewActions,
    fun name index hl => hserves.cached name index (h.indices name index hl),
    h.actions.trans hserves.actions⟩

/-- Between the two compilers a fragment was emitted that has the given effect
    in every finished program. -/
structure Emits (telemetry : Telemetry) (st st' : BytecodeCompiler) (effect : Frame → Frame) :
    Prop where
  tables : Extends st st'
  code : ∃ fragment, st'.instructions = st.instructions ++ fragment ∧
    ∀ program cache hyst f, Serves telemetry program cache st' →
      EmbeddedAt program.instructions st.instructions.length fragment →
      Runs program cache (vmAt hyst st.instructions.length f)
        (vmAt hyst st'.instructions.length (effect f))

theorem extends_emit (op : BytecodeOp) : Extends st (st.emit op) :=
  extends_of_eq st (st.emit op) rfl rfl rfl rfl rfl

/-- The effect of a block that a `JumpFalse` skips. The operand is popped in
    either case, and with an empty stack the block is entered. -/
def guarded (body : Frame → Frame) (f : Frame) : Frame :=
  match f.stack with
  | [] => body f
  | condition :: rest =>
      if condition.eq (.fin 0) then { f with stack := rest } else body { f with stack := rest }

theorem toU16_of_lt (n : Nat) (h : n < 2 ^ 16) : toU16 n = n :=
  Nat.mod_eq_of_lt h

/-- Patching a placeholder in its place. -/
theorem patchJumpFalse_append (before block : List BytecodeOp) (old addr : Nat)
    (h : st.instructions = before ++ .jumpFalse old :: block) :
    (st.patchJumpFalse before.length addr).instructions = before ++ .jumpFalse addr :: block := by
  have hat : st.instructions[before.length]? = some (.jumpFalse old) := by
    rw [h, List.getElem?_append_right (Nat.le_refl _), Nat.sub_self]
    rfl
  rw [BytecodeCompiler.patchJumpFalse, hat]
  simp only [h]
  rw [List.set_append_right _ _ (Nat.le_refl _), Nat.sub_self, List.set_cons_zero]

theorem extends_patchJumpFalse (index addr : Nat) : Extends st (st.patchJumpFalse index addr) := by
  have htables : ∀ instructions : List BytecodeOp,
      Extends st { st with instructions := instructions } :=
    fun instructions => extends_of_eq st _ rfl rfl rfl rfl rfl
  unfold BytecodeCompiler.patchJumpFalse
  split
  · exact htables _
  · exact htables st.instructions

namespace Condition

mutual

/-- The number of instructions of a condition. -/
def codeLength : Condition → Nat
  | .boolean _ negate => if negate then 4 else 3
  | .compare _ _ _ => 3
  | .and conditions => joinedLength 2 conditions
  | .or conditions => joinedLength 1 conditions

/-- The number of instructions of conditions, with some more for each after the first. -/
def joinedLength (joint : Nat) : List Condition → Nat
  | [] => 1
  | c :: rest => codeLength c + restLength joint rest

/-- The number of instructions of the conditions after the first. -/
def restLength (joint : Nat) : List Condition → Nat
  | [] => 0
  | c :: rest => codeLength c + joint + restLength joint rest

end

end Condition

/-- An instruction at an address goes to a later one, not past the end. The
    target of a jump is right as long as the end has a 16-bit address. -/
def BytecodeOp.LeadsOn (addr fin : Nat) : BytecodeOp → Prop
  | .jumpFalse target => fin < 2 ^ 16 → addr < target ∧ target ≤ fin
  | .jump _ => False
  | _ => True

theorem leadsOn_mono {addr fin fin' : Nat} (op : BytecodeOp) (h : op.LeadsOn addr fin)
    (hle : fin ≤ fin') : op.LeadsOn addr fin' := by
  cases op with
  | jumpFalse target =>
      intro hshort
      rcases h (Nat.lt_of_le_of_lt hle hshort) with ⟨hafter, hbefore⟩
      exact ⟨hafter, Nat.le_trans hbefore hle⟩
  | jump target => exact h
  | _ => trivial

section

/-- The compiler emitted a number of instructions that lead on, and took up some actions. -/
structure Adds (st st' : BytecodeCompiler) (n : Nat) (actions : List Action) : Prop where
  actions : st'.actions = st.actions ++ actions
  code : ∃ fragment, st'.instructions = st.instructions ++ fragment ∧ fragment.length = n ∧
    ∀ (k : Nat) (op : BytecodeOp), fragment[k]? = some op →
      op.LeadsOn (st.instructions.length + k) st'.instructions.length

variable {st st' st'' : BytecodeCompiler} {n n' : Nat} {actions actions' : List Action}

theorem Adds.length (h : Adds st st' n actions) :
    st'.instructions.length = st.instructions.length + n := by
  rcases h.code with ⟨fragment, hcode, hlength, -⟩
  rw [hcode, List.length_append, hlength]

theorem adds_refl (st : BytecodeCompiler) : Adds st st 0 [] :=
  ⟨(List.append_nil _).symm, [], (List.append_nil _).symm, rfl, fun _ _ h => nomatch h⟩

theorem adds_trans (h : Adds st st' n actions) (h' : Adds st' st'' n' actions') :
    Adds st st'' (n + n') (actions ++ actions') := by
  have hgrows : st'.instructions.length ≤ st''.instructions.length := by
    rw [h'.length]
    exact Nat.le_add_right _ _
  have hlength := h.length
  rcases h.code with ⟨first, hfirst, hn, hleads⟩
  rcases h'.code with ⟨second, hsecond, hn', hleads'⟩
  refine ⟨?_, first ++ second, ?_, ?_, fun k op hop => ?_⟩
  · rw [h'.actions, h.actions, List.append_assoc]
  · rw [hsecond, hfirst, List.append_assoc]
  · rw [List.length_append, hn, hn']
  · by_cases hk : k < first.length
    · rw [List.getElem?_append_left hk] at hop
      exact leadsOn_mono op (hleads k op hop) hgrows
    · rw [List.getElem?_append_right (Nat.le_of_not_lt hk)] at hop
      have hop' := hleads' _ op hop
      rw [hlength, ← hn, Nat.add_assoc, Nat.add_sub_cancel' (Nat.le_of_not_lt hk)] at hop'
      exact hop'

/-- An instruction that is not a jump. -/
theorem adds_emit (st : BytecodeCompiler) (op : BytecodeOp)
    (h : ∀ addr fin, op.LeadsOn addr fin) : Adds st (st.emit op) 1 [] := by
  refine ⟨(List.append_nil _).symm, [op], rfl, rfl, fun k op' hop => ?_⟩
  rcases k with _ | k
  · rw [← Option.some.inj hop]
    exact h _ _
  · exact nomatch hop

/-- A block behind a `JumpFalse` that is patched to lead just past it. -/
theorem adds_guard (h : Adds (st.emit (.jumpFalse 0)) st' n actions) :
    Adds st (st'.patchJumpFalse st.instructions.length (toU16 st'.instructions.length))
      (n + 1) actions := by
  have hend := h.length
  have hstart : (st.emit (.jumpFalse 0)).instructions.length = st.instructions.length + 1 :=
    List.length_append
  rcases h.code with ⟨block, hblock, hn, hleads⟩
  have hjump : st'.instructions = st.instructions ++ .jumpFalse 0 :: block := by
    rw [hblock]
    exact List.append_cons _ _ _ |>.symm
  have hpatched := patchJumpFalse_append st' st.instructions block 0
    (toU16 st'.instructions.length) hjump
  have hlength : (st'.patchJumpFalse st.instructions.length
      (toU16 st'.instructions.length)).instructions.length = st'.instructions.length := by
    rw [hpatched, hjump, List.length_append, List.length_append, List.length_cons,
      List.length_cons]
  have hactions : (st'.patchJumpFalse st.instructions.length
      (toU16 st'.instructions.length)).actions = st'.actions := by
    unfold BytecodeCompiler.patchJumpFalse
    split
    · rfl
    · rfl
  refine ⟨hactions.trans h.actions, _, hpatched, congrArg (· + 1) hn, fun k op hop => ?_⟩
  rw [hlength]
  rcases k with _ | k
  · rw [← Option.some.inj hop]
    intro hshort
    rw [toU16_of_lt _ hshort, hend, hstart]
    exact ⟨by omega, Nat.le_refl _⟩
  · have hop' := hleads k op hop
    rw [hstart, show st.instructions.length + 1 + k = st.instructions.length + (k + 1) by omega]
      at hop'
    exact hop'

/-- Looking a variable up changes nothing but the table of variables. -/
theorem addVariable_eq (st : BytecodeCompiler) (name : Text) : st.addVariable name = { st with
        variableMap := (st.addVariable name).variableMap
        nextVarIndex := (st.addVariable name).nextVarIndex } := by
  unfold BytecodeCompiler.addVariable
  cases st.variableMap.lookup name with
  | some index => rfl
  | none => rfl

/-- A variable and a constant. -/
theorem adds_operands (st : BytecodeCompiler) (name : Text) (value : F32) :
    Adds st (((st.addVariable name).emit (.loadVar (st.variableIndex name))).emit
      (.loadConst value)) 2 [] := by
  have hknown : Adds st (st.addVariable name) 0 [] := by
    rw [addVariable_eq]
    exact ⟨(List.append_nil _).symm, [], (List.append_nil _).symm, rfl, fun _ _ h => nomatch h⟩
  exact adds_trans (adds_trans hknown (adds_emit _ (.loadVar _) fun _ _ => trivial))
    (adds_emit _ (.loadConst _) fun _ _ => trivial)

mutual

/-- The code of a condition. -/
theorem adds_compileCondition (st : BytecodeCompiler) (c : Condition) :
    Adds st (st.compileCondition c) c.codeLength [] := by
  cases c with
  | boolean var negate =>
      rw [BytecodeCompiler.compileCondition, Condition.codeLength]
      have hcompared := adds_trans (adds_operands st var (.fin 0))
        (adds_emit _ (.compare .notEqual) fun _ _ => trivial)
      cases negate with
      | false => exact hcompared
      | true => exact adds_trans hcompared (adds_emit _ .not fun _ _ => trivial)
  | compare var operator value =>
      rw [BytecodeCompiler.compileCondition, Condition.codeLength]
      have hoperands := adds_operands st var value
      unfold BytecodeCompiler.compileCompare
      simp only []
      split
      · exact adds_trans hoperands (adds_emit _ (.hysteresis _) fun _ _ => trivial)
      · exact adds_trans hoperands (adds_emit _ (.compare operator) fun _ _ => trivial)
  | and conditions =>
      rw [BytecodeCompiler.compileCondition, Condition.codeLength]
      exact adds_compileAnd st conditions
  | or conditions =>
      rw [BytecodeCompiler.compileCondition, Condition.codeLength]
      exact adds_compileOr st conditions

theorem adds_compileAnd (st : BytecodeCompiler) (conditions : List Condition) :
    Adds st (st.compileAnd conditions) (Condition.joinedLength 2 conditions) [] := by
  cases conditions with
  | nil =>
      rw [BytecodeCompiler.compileAnd, Condition.joinedLength]
      exact adds_emit st (.loadConst _) fun _ _ => trivial
  | cons c rest =>
      rw [BytecodeCompiler.compileAnd, Condition.joinedLength]
      exact adds_trans (adds_compileCondition st c) (adds_compileAndRest _ rest)

theorem adds_compileAndRest (st : BytecodeCompiler) (conditions : List Condition) :
    Adds st (st.compileAndRest conditions) (Condition.restLength 2 conditions) [] := by
  cases conditions with
  | nil =>
      rw [BytecodeCompiler.compileAndRest, Condition.restLength]
      exact adds_refl st
  | cons c rest =>
      rw [BytecodeCompiler.compileAndRest, Condition.restLength]
      have hbody := adds_trans (adds_compileCondition (st.emit (.jumpFalse 0)) c)
        (adds_emit _ .and fun _ _ => trivial)
      exact adds_trans (adds_guard hbody) (adds_compileAndRest _ rest)

theorem adds_compileOr (st : BytecodeCompiler) (conditions : List Condition) :
    Adds st (st.compileOr conditions) (Condition.joinedLength 1 conditions) [] := by
  cases conditions with
  | nil =>
      rw [BytecodeCompiler.compileOr, Condition.joinedLength]
      exact adds_emit st (.loadConst _) fun _ _ => trivial
  | cons c rest =>
      rw [BytecodeCompiler.compileOr, Condition.joinedLength]
      exact adds_trans (adds_compileCondition st c) (adds_compileOrRest _ rest)

theorem adds_compileOrRest (st : BytecodeCompiler) (conditions : List Condition) :
    Adds st (st.compileOrRest conditions) (Condition.restLength 1 conditions) [] := by
  cases conditions with
  | nil =>
      rw [BytecodeCompiler.compileOrRest, Condition.restLength]
      exact adds_refl st
  | cons c rest =>
      rw [BytecodeCompiler.compileOrRest, Condition.restLength]
      have hblock := adds_trans (adds_compileCondition st c)
        (adds_emit _ .or fun _ _ => trivial)
      exact adds_trans hblock (adds_compileOrRest _ rest)

end

end

/-- A rule as `compile_rule` parses it. -/
abbrev ParsedRule := Condition × Action

/-- The compiler after a list of rules. -/
def compileRules (st : BytecodeCompiler) (rules : List ParsedRule) : BytecodeCompiler :=
  rules.foldl (fun st rule => st.compileParsed rule.1 rule.2) st

/-- The code of a rule: its condition, a jump and the action. -/
theorem adds_compileParsed (st : BytecodeCompiler) (condition : Condition) (action : Action) :
    Adds st (st.compileParsed condition action) (condition.codeLength + 2) [action] := by
  have hcondition := adds_compileCondition st condition
  have haction : ∀ st : BytecodeCompiler, Adds st (st.addAction action) 0 [action] :=
    fun st => ⟨rfl, [], (List.append_nil _).symm, rfl, fun _ _ h => nomatch h⟩
  have hbody := adds_trans (haction ((st.compileCondition condition).emit (.jumpFalse 0)))
    (adds_emit _ (.action ((st.compileCondition condition).emit (.jumpFalse 0)).nextActionIndex)
      fun _ _ => trivial)
  exact adds_trans hcondition (adds_guard hbody)

/-- The code of a list of rules. -/
theorem adds_compileRules (rules : List ParsedRule) (st : BytecodeCompiler) :
    Adds st (compileRules st rules) (rules.map fun rule => rule.1.codeLength + 2).sum
      (rules.map Prod.snd) := by
  induction rules generalizing st with
  | nil => exact adds_refl st
  | cons rule rest ih =>
      have hrule := adds_compileParsed st rule.1 rule.2
      have hrules := adds_trans hrule (ih (st.compileParsed rule.1 rule.2))
      exact hrules

end OpenFlight.Rules
