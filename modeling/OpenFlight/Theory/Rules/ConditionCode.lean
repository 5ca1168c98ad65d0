import OpenFlight.Theory.Rules.HysteresisCode

/-!
# The Code of Conditions and Rules

What compiled conditions and rules do to the machine's stack and buffer.

`Condition.effect` is the compositional meaning of compiled code, read off the
compiler: it says what the code of a condition does to any frame, for
conditions nested in any way. It is not the meaning a condition is supposed to
have, which is `Condition.eval`; the two are compared in the next module.

What the machine does was proved in the previous module, for a memory with
hysteresis states. Without hysteresis keys these states stay as they are, and
what is left of a memory is a frame: `Projects` relates the two effects, one
construct at a time, so that `emits_compileRules` follows from the contract of
that module and `execute_compiled` runs a whole program.

## Main definitions

* `ruleEffect`, `rulesEffect`: What the code of rules does to a frame.
* `Projects`: An effect on memories that is an effect on frames.

## Theorems

* `emits_compileRules`: The code of a list of rules has its effect.
* `execute_compiled`: The machine on a compiled program.
-/

namespace OpenFlight.Rules

open Panels

/-- The effect of `And`, which needs two operands. -/
def conjoin (f : Frame) : Frame :=
  match f.stack with
  | b :: a :: rest => { f with stack := ofBool (isTrue a && isTrue b) :: rest }
  | _ => f

/-- The effect of `Or`, which needs two operands. -/
def disjoin (f : Frame) : Frame :=
  match f.stack with
  | b :: a :: rest => { f with stack := ofBool (isTrue a || isTrue b) :: rest }
  | _ => f

namespace Condition

mutual

/-- What the code of a condition does. -/
def effect (telemetry : Telemetry) : Condition → Frame → Frame
  | .boolean var negate, f => f.push (ofBool (eval telemetry (.boolean var negate)))
  | .compare var operator value, f => f.push (ofBool (eval telemetry (.compare var operator value)))
  | .and conditions, f => effectAnd telemetry conditions f
  | .or conditions, f => effectOr telemetry conditions f

/-- The code of a conjunction. -/
def effectAnd (telemetry : Telemetry) : List Condition → Frame → Frame
  | [], f => f.push (.fin 1)
  | c :: rest, f => effectAndRest telemetry rest (effect telemetry c f)

/-- The code of a conjunction after its first condition. -/
def effectAndRest (telemetry : Telemetry) : List Condition → Frame → Frame
  | [], f => f
  | c :: rest, f =>
      effectAndRest telemetry rest (guarded (fun f => conjoin (effect telemetry c f)) f)

/-- The code of a disjunction. -/
def effectOr (telemetry : Telemetry) : List Condition → Frame → Frame
  | [], f => f.push (.fin 0)
  | c :: rest, f => effectOrRest telemetry rest (effect telemetry c f)

/-- The code of a disjunction after its first condition. -/
def effectOrRest (telemetry : Telemetry) : List Condition → Frame → Frame
  | [], f => f
  | c :: rest, f => effectOrRest telemetry rest (disjoin (effect telemetry c f))

end

end Condition

theorem isTrue_ofBool (b : Bool) : isTrue (ofBool b) = b := by
  rw [Panels.isTrue, eq_zero_ofBool, Bool.not_not]

/-- The effect of a rule's action. -/
def act (action : Action) (f : Frame) : Frame :=
  { f with actions := f.actions ++ [action] }

/-- What the code of a rule does. -/
def ruleEffect (telemetry : Telemetry) (condition : Condition) (action : Action) (f : Frame) :
    Frame :=
  guarded (act action) (condition.effect telemetry f)

/-- What the code of a list of rules does. -/
def rulesEffect (telemetry : Telemetry) (rules : List ParsedRule) (f : Frame) : Frame :=
  rules.foldl (fun f rule => ruleEffect telemetry rule.1 rule.2 f) f

/-- What a frame shows of a memory, with what was in the buffer before. -/
def Memory.frame (m : Memory) (program : BytecodeProgram) (buffer : List Action) : Frame :=
  { stack := m.stack, actions := buffer ++ m.fired.filterMap (program.actions[·]?) }

theorem place_eq_vmAt (m : Memory) (program : BytecodeProgram) (buffer : List Action) (pc : Nat) :
    m.place program buffer pc = vmAt m.hyst pc (m.frame program buffer) :=
  rfl

/-- An effect on memories that leaves the hysteresis states alone and that is
    the given effect on frames otherwise. -/
structure Projects (program : BytecodeProgram) (buffer : List Action)
    (performed : Memory → Memory) (effect : Frame → Frame) : Prop where
  frame : ∀ m, (performed m).frame program buffer = effect (m.frame program buffer)
  hyst : ∀ m, (performed m).hyst = m.hyst

section

variable (telemetry : Telemetry) (program : BytecodeProgram) (buffer : List Action)

theorem projects_refl : Projects program buffer (fun m => m) fun f => f :=
  ⟨fun _ => rfl, fun _ => rfl⟩

theorem projects_trans (performed performed' : Memory → Memory) (effect effect' : Frame → Frame)
    (h : Projects program buffer performed effect)
    (h' : Projects program buffer performed' effect') :
    Projects program buffer (fun m => performed' (performed m)) fun f => effect' (effect f) := by
  refine ⟨fun m => ?_, fun m => ?_⟩
  · rw [h'.frame, h.frame]
  · rw [h'.hyst, h.hyst]

theorem projects_conjoin : Projects program buffer Memory.conjoin conjoin := by
  refine ⟨fun m => ?_, fun m => ?_⟩
  all_goals
    rcases m with ⟨_ | ⟨b, _ | ⟨a, rest⟩⟩, hyst, fired⟩
    · rfl
    · rfl
    · rfl

theorem projects_disjoin : Projects program buffer Memory.disjoin disjoin := by
  refine ⟨fun m => ?_, fun m => ?_⟩
  all_goals
    rcases m with ⟨_ | ⟨b, _ | ⟨a, rest⟩⟩, hyst, fired⟩
    · rfl
    · rfl
    · rfl

theorem projects_guard (body : Memory → Memory) (effect : Frame → Frame)
    (h : Projects program buffer body effect) :
    Projects program buffer (Memory.guard body) (guarded effect) := by
  refine ⟨fun m => ?_, fun m => ?_⟩
  · rcases m with ⟨_ | ⟨condition, rest⟩, hyst, fired⟩
    · exact h.frame _
    · by_cases hfalse : condition.eq (.fin 0) = true
      · simp [Memory.guard, Memory.passes, Memory.pop, Memory.frame, guarded, hfalse]
      · have hbody := h.frame ⟨rest, hyst, fired⟩
        simpa [Memory.guard, Memory.passes, Memory.pop, Memory.frame, guarded, hfalse] using hbody
  · unfold Memory.guard
    split
    · exact h.hyst m.pop
    · rfl

/-- An action whose index is in the table is appended to the buffer. -/
theorem projects_fire (index : Nat) (action : Action) (h : program.actions[index]? = some action) :
    Projects program buffer (Memory.fire index) (act action) := by
  refine ⟨fun m => ?_, fun _ => rfl⟩
  simp [Memory.fire, Memory.frame, act, h]

mutual

/-- Without hysteresis keys the code of a condition is its effect on frames. -/
theorem projects_perform (c : Condition) :
    Projects program buffer (c.perform telemetry ∅) (c.effect telemetry) := by
  cases c with
  | boolean var negate =>
      refine ⟨fun m => ?_, fun m => ?_⟩
      · rw [Condition.perform, Condition.effect]
        rfl
      · rw [Condition.perform]
        rfl
  | compare var operator value =>
      have hnone : (∅ : AList fun _ : Text => Nat).lookup var = none := AList.lookup_empty var
      refine ⟨fun m => ?_, fun m => ?_⟩
      · rw [Condition.perform, Condition.effect, Memory.compare, hnone, Condition.eval]
        rfl
      · rw [Condition.perform, Memory.compare, hnone]
        rfl
  | and conditions => exact projects_performAnd conditions
  | or conditions => exact projects_performOr conditions

theorem projects_performAnd (conditions : List Condition) :
    Projects program buffer (Condition.performAnd telemetry ∅ conditions)
      (Condition.effectAnd telemetry conditions) := by
  cases conditions with
  | nil => exact ⟨fun _ => rfl, fun _ => rfl⟩
  | cons c rest =>
      have hfirst := projects_perform c
      have hrest := projects_performAndRest rest
      -- Both sides compose by their definitions.
      have hboth := projects_trans program buffer _ _ _ _ hfirst hrest
      exact hboth

theorem projects_performAndRest (conditions : List Condition) :
    Projects program buffer (Condition.performAndRest telemetry ∅ conditions)
      (Condition.effectAndRest telemetry conditions) := by
  cases conditions with
  | nil => exact projects_refl program buffer
  | cons c rest =>
      have hbody := projects_trans program buffer _ _ _ _ (projects_perform c)
        (projects_conjoin program buffer)
      have hblock := projects_guard program buffer _ _ hbody
      have hrest := projects_performAndRest rest
      have hboth := projects_trans program buffer _ _ _ _ hblock hrest
      exact hboth

theorem projects_performOr (conditions : List Condition) :
    Projects program buffer (Condition.performOr telemetry ∅ conditions)
      (Condition.effectOr telemetry conditions) := by
  cases conditions with
  | nil => exact ⟨fun _ => rfl, fun _ => rfl⟩
  | cons c rest =>
      have hfirst := projects_perform c
      have hrest := projects_performOrRest rest
      have hboth := projects_trans program buffer _ _ _ _ hfirst hrest
      exact hboth

theorem projects_performOrRest (conditions : List Condition) :
    Projects program buffer (Condition.performOrRest telemetry ∅ conditions)
      (Condition.effectOrRest telemetry conditions) := by
  cases conditions with
  | nil => exact projects_refl program buffer
  | cons c rest =>
      have hblock := projects_trans program buffer _ _ _ _ (projects_perform c)
        (projects_disjoin program buffer)
      have hrest := projects_performOrRest rest
      have hboth := projects_trans program buffer _ _ _ _ hblock hrest
      exact hboth

end

theorem projects_performRule (index : Nat) (condition : Condition) (action : Action)
    (h : program.actions[index]? = some action) :
    Projects program buffer (performRule telemetry ∅ index condition)
      (ruleEffect telemetry condition action) := by
  have hguard := projects_guard program buffer _ _ (projects_fire program buffer index action h)
  have hrule := projects_trans program buffer _ _ _ _
    (projects_perform telemetry program buffer condition) hguard
  exact hrule

/-- Rules whose actions stand in the table of actions one after the other. -/
theorem projects_performRules (rules : List ParsedRule) (n : Nat)
    (h : ∀ i rule, rules[i]? = some rule → program.actions[toU16 (n + i)]? = some rule.2) :
    Projects program buffer (performRules telemetry ∅ n rules) (rulesEffect telemetry rules) := by
  induction rules generalizing n with
  | nil => exact projects_refl program buffer
  | cons rule rest ih =>
      have hfirst := projects_performRule telemetry program buffer (toU16 n) rule.1 rule.2
        (h 0 rule rfl)
      have hrest := ih (n + 1) fun i later hlater => by
        rw [Nat.add_right_comm, Nat.add_assoc]
        exact h (i + 1) later hlater
      have hrules := projects_trans program buffer _ _ _ _ hfirst hrest
      exact hrules

end

/-- Without hysteresis keys the code of a list of rules does what its effect says. -/
theorem emits_compileRules (telemetry : Telemetry) (rules : List ParsedRule)
    (st : BytecodeCompiler) (hc : Counted st) (hkeys : st.hysteresisMap = ∅) :
    Emits telemetry st (compileRules st rules) (rulesEffect telemetry rules) := by
  have hperforms := performs_compileRules telemetry rules st hc
  have hadded := (adds_compileRules rules st).actions
  rcases hperforms with ⟨hgrows, fragment, hfragment, hwalk⟩
  refine ⟨hgrows.tables, fragment, hfragment, fun program cache hyst f hserves hembedded => ?_⟩
  -- No index wraps around, so the actions of the rules are at their places.
  have htable : ∀ i rule, rules[i]? = some rule →
      program.actions[toU16 (st.actions.length + i)]? = some rule.2 := by
    intro i rule hrule
    rcases hserves.actions with ⟨later, hlater⟩
    have hlength := congrArg List.length hlater
    have hfew := hserves.fewActions
    have hi := (List.getElem?_eq_some_iff.mp hrule).1
    rw [hadded, List.length_append, List.length_append, List.length_map] at hlength
    rw [toU16_of_lt _ (by omega), ← hlater, hadded, List.append_assoc,
      List.getElem?_append_right (Nat.le_add_right _ _), Nat.add_sub_cancel_left,
      List.getElem?_append_left (by rw [List.length_map]; exact hi), List.getElem?_map, hrule]
    rfl
  have hprojects := projects_performRules telemetry program f.actions rules _ htable
  let m : Memory := { stack := f.stack, hyst := hyst }
  have hframe : m.frame program f.actions = f := by
    simp [m, Memory.frame]
  have hwhole := hwalk program cache f.actions m hserves hembedded
  rw [hkeys] at hwhole
  rcases hwhole with ⟨n, hreaches, -, hbound⟩
  rw [place_eq_vmAt, place_eq_vmAt, hprojects.frame, hprojects.hyst, hframe] at hreaches
  exact ⟨n, hreaches, hbound⟩

theorem wellFormed_initial : WellFormed {} :=
  ⟨rfl, rfl, rfl, rfl⟩

/-- The machine on a compiled program, for every bound from the length of the program on. -/
theorem execute_compiled (telemetry : Telemetry) (rules : List ParsedRule)
    (hyst : List HysteresisState) (fuel : Nat)
    (hshort : (compileRules {} rules).instructions.length < 2 ^ 16)
    (hvariables : (compileRules {} rules).variableMap.entries.length < 2 ^ 16)
    (hactions : (compileRules {} rules).actions.length < 2 ^ 16)
    (hfuel : (compileRules {} rules).instructions.length ≤ fuel) :
    execute (compileRules {} rules).finalize
      (RulesEvaluator.updateVariableCache
        (List.replicate (compileRules {} rules).variableMap.entries.length (.fin 0))
        (compileRules {} rules).finalize telemetry)
      fuel { hysteresisState := hyst }
      = vmAt hyst (compileRules {} rules).instructions.length
          (rulesEffect telemetry rules {}) := by
  have hemits := emits_compileRules telemetry rules {}
    (counted_of_fresh {} ⟨rfl, rfl, rfl, rfl, rfl⟩) rfl
  have hwf := hemits.tables.wellFormed wellFormed_initial
  rcases hemits.code with ⟨fragment, hfragment, hrun⟩
  have hserves : Serves telemetry (compileRules {} rules).finalize
      (RulesEvaluator.updateVariableCache
        (List.replicate (compileRules {} rules).variableMap.entries.length (.fin 0))
        (compileRules {} rules).finalize telemetry) (compileRules {} rules) :=
    ⟨hshort, hactions,
      cached_updateVariableCache telemetry _ ⟨hwf.numbered, hwf.nextVariable⟩ hvariables _
        List.length_replicate,
      List.prefix_refl _⟩
  have hembedded : EmbeddedAt (compileRules {} rules).finalize.instructions 0 fragment := by
    refine ⟨[], [], ?_, rfl⟩
    rw [List.append_nil]
    exact hfragment
  rcases hrun _ _ hyst {} hserves hembedded with ⟨n, hreaches, hbound⟩
  have hsteps : 0 + n ≤ (compileRules {} rules).instructions.length := hbound
  refine exec_of_reaches hreaches ?_ (by omega)
  -- The run ends past the last instruction.
  have hend : (compileRules {} rules).finalize.instructions[
      (compileRules {} rules).instructions.length]? = none :=
    List.getElem?_eq_none (Nat.le_refl _)
  rw [vmStep]
  exact congrArg (Option.map _) hend

end OpenFlight.Rules
