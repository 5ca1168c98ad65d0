import OpenFlight.Theory.Rules.ConditionCode

/-!
# Compiled Rules against Their Conditions

When the evaluator returns the actions of the rules whose conditions are true.

The parser only makes disjunctions of conjunctions of leaves, so the truth of a
condition is a function of the truth values of its leaves, taken clause by
clause. So is what the compiled code does with them. `JumpFalse` pops its
operand, and a conjunction jumps with nothing on the stack to say that it was
false. The next test finds an empty stack and goes on. An `And` or an `Or` that
then finds a single operand leaves it as it is. At every point of a rule the
stack holds at most one truth value, and `scan` follows that value over the
leaves. An action is skipped exactly when the scan ends with `false`.

So the evaluator is right on a rule exactly when the scan of its truth values
ends with `false` just when the condition is false.

## Main definitions

* `Condition.truths`: The truth values of the leaves, clause by clause.
* `parseRule`, `directActions`: The actions that the rules call for.

## Theorems

* `evaluate_actions_iff`: When the evaluator returns the right actions.
-/

namespace OpenFlight.Rules

open Panels

namespace Condition

/-- The leaves of a clause. -/
def literals : Condition → List Condition
  | .and conditions => conditions
  | c => [c]

/-- The clauses of a flat condition, each as its leaves. -/
def clauses : Condition → List (List Condition)
  | .or conditions => conditions.map literals
  | c => [literals c]

/-- The truth values of the leaves. -/
def truths (telemetry : Telemetry) (c : Condition) : List (List Bool) :=
  c.clauses.map fun clause => clause.map (eval telemetry)

end Condition

/-- One more conjunct: after a false one it is skipped and nothing is left. -/
def scanConjunct (held : Option Bool) (b : Bool) : Option Bool :=
  if held = some false then none else some b

/-- One more clause. A value left by the clauses before is mistaken for the
    left operand of the clause's first conjunction. -/
def scanClause : Option Bool → List Bool → Option Bool
  | none, clause => clause.foldl scanConjunct none
  | some v, [] => some v
  | some v, [b] => some (v || b)
  | some v, b :: b' :: rest => rest.foldl scanConjunct (some (if b then v && b' else v))

/-- The value on the stack after the clauses of a condition, if any. -/
def scan (clauses : List (List Bool)) : Option Bool :=
  clauses.foldl scanClause none

/-- The scan of the truth values ends with `false` just when every clause has a false leaf. -/
def Faithful (clauses : List (List Bool)) : Prop :=
  scan clauses = some false ↔ (clauses.any fun clause => clause.all id) = false

instance (clauses : List (List Bool)) : Decidable (Faithful clauses) :=
  inferInstanceAs (Decidable (_ ↔ _))

/-- The two parses of `compile_rule`. -/
def parseRule (rule : Rule) : Except RulesError ParsedRule := do
  let condition ← parseCondition rule.when
  let action ← parseAction rule.action
  return (condition, action)

/-- The actions of the rules whose conditions are true, in the order of the rules. -/
def directActions (telemetry : Telemetry) (rules : List ParsedRule) : List Action :=
  (rules.filter fun rule => rule.1.eval telemetry).map Prod.snd

/-- A frame whose stack holds at most one truth value. -/
def holding (held : Option Bool) (actions : List Action) : Frame :=
  { stack := (held.map ofBool).toList, actions := actions }

section

variable (telemetry : Telemetry) (c : Condition)

theorem effect_leaf (h : c.IsLeaf) (f : Frame) :
    c.effect telemetry f = f.push (ofBool (c.eval telemetry)) := by
  cases c with
  | boolean var negate => rw [Condition.effect]
  | compare var operator value => rw [Condition.effect]
  | and conditions => exact absurd h (by simp [Condition.IsLeaf])
  | or conditions => exact absurd h (by simp [Condition.IsLeaf])

theorem literals_leaf (h : c.IsLeaf) : c.literals = [c] := by
  cases c with
  | boolean var negate => rfl
  | compare var operator value => rfl
  | and conditions => exact absurd h (by simp [Condition.IsLeaf])
  | or conditions => rfl

theorem guarded_conjunct (held : Option Bool) (actions : List Action) (b : Bool) :
    guarded (fun f => conjoin (f.push (ofBool b))) (holding held actions)
      = holding (scanConjunct held b) actions := by
  -- Nothing held: the conjunct is pushed, and `And` finds one operand only.
  rcases held with _ | v
  · rfl
  · cases v with
    -- A false value is popped by the jump, and nothing is left in its place.
    | false => rfl
    | true => rfl

variable (conditions : List Condition)

/-- The conjuncts after the first, one by one. -/
theorem effectAndRest_leaves (hleaves : ∀ c ∈ conditions, c.IsLeaf) (held : Option Bool)
    (actions : List Action) :
    Condition.effectAndRest telemetry conditions (holding held actions)
      = holding ((conditions.map (Condition.eval telemetry)).foldl scanConjunct held) actions := by
  induction conditions generalizing held with
  | nil => rw [Condition.effectAndRest, List.map_nil, List.foldl_nil]
  | cons c rest ih =>
      have hc : (fun f => conjoin (c.effect telemetry f))
          = fun f => conjoin (f.push (ofBool (c.eval telemetry))) := by
        funext f
        rw [effect_leaf telemetry c (hleaves c List.mem_cons_self)]
      rw [Condition.effectAndRest, hc, guarded_conjunct, List.map_cons, List.foldl_cons]
      exact ih (fun d hd => hleaves d (List.mem_cons_of_mem c hd)) _

/-- The first two conjuncts above a value that was there before. -/
theorem guarded_push (v b b' : Bool) (actions : List Action) :
    guarded (fun f => conjoin (f.push (ofBool b'))) ((holding (some v) actions).push (ofBool b))
      = holding (some (if b then v && b' else v)) actions := by
  cases b with
  | false => rfl
  | true =>
      simp [guarded, Frame.push, holding, eq_zero_ofBool, conjoin, isTrue_ofBool]

theorem disjoin_holding (held : Option Bool) (actions : List Action) :
    disjoin (holding held actions) = holding held actions := by
  rcases held with _ | v
  · rfl
  · rfl

/-- A clause on an empty stack. -/
theorem effect_clause_none (h : c.IsClause) (actions : List Action) :
    c.effect telemetry (holding none actions)
      = holding (scanClause none (c.literals.map (Condition.eval telemetry))) actions := by
  rcases h.leaf_or_and with hleaf | ⟨first, second, rest, rfl, hfirst, hrest⟩
  · rw [effect_leaf telemetry c hleaf, literals_leaf c hleaf]
    rfl
  · -- The first conjunct is pushed, the others go by the scan.
    rw [Condition.effect, Condition.effectAnd, effect_leaf telemetry first hfirst]
    exact effectAndRest_leaves telemetry (second :: rest) (List.forall_mem_cons.mpr hrest)
      (some _) actions

/-- A clause above a value, and the `Or` after it. -/
theorem effect_clause_some (h : c.IsClause) (v : Bool) (actions : List Action) :
    disjoin (c.effect telemetry (holding (some v) actions))
      = holding (scanClause (some v) (c.literals.map (Condition.eval telemetry))) actions := by
  rcases h.leaf_or_and with hleaf | ⟨first, second, rest, rfl, hfirst, hleaf, hrest⟩
  · rw [effect_leaf telemetry c hleaf, literals_leaf c hleaf]
    simp [disjoin, Frame.push, holding, isTrue_ofBool, scanClause]
  · have hsecond : (fun f => conjoin (second.effect telemetry f))
        = fun f => conjoin (f.push (ofBool (second.eval telemetry))) := by
      funext f
      rw [effect_leaf telemetry second hleaf]
    -- The second conjunct is combined with the old value, not the first.
    rw [Condition.effect, Condition.effectAnd, Condition.effectAndRest, hsecond,
      effect_leaf telemetry first hfirst, guarded_push,
      effectAndRest_leaves telemetry rest hrest, disjoin_holding]
    rfl

/-- A clause and the `Or` after it, on what the clauses before left. -/
theorem disjoin_effect_clause (h : c.IsClause) (held : Option Bool) (actions : List Action) :
    disjoin (c.effect telemetry (holding held actions))
      = holding (scanClause held (c.literals.map (Condition.eval telemetry))) actions := by
  rcases held with _ | v
  · rw [effect_clause_none telemetry c h actions, disjoin_holding]
  · exact effect_clause_some telemetry c h v actions

theorem effectOrRest_clauses (hclauses : ∀ c ∈ conditions, c.IsClause) (held : Option Bool)
    (actions : List Action) :
    Condition.effectOrRest telemetry conditions (holding held actions)
      = holding ((conditions.map fun c => c.literals.map (Condition.eval telemetry)).foldl
          scanClause held) actions := by
  induction conditions generalizing held with
  | nil => rw [Condition.effectOrRest, List.map_nil, List.foldl_nil]
  | cons c rest ih =>
      rw [Condition.effectOrRest, disjoin_effect_clause telemetry c (hclauses c List.mem_cons_self),
        List.map_cons, List.foldl_cons]
      exact ih (fun d hd => hclauses d (List.mem_cons_of_mem c hd)) _

/-- The code of a flat condition leaves what the scan says. -/
theorem effect_flat (h : c.IsFlat) (actions : List Action) :
    c.effect telemetry (holding none actions) = holding (scan (c.truths telemetry)) actions := by
  cases c with
  | boolean var negate => exact effect_clause_none telemetry (.boolean var negate) h actions
  | compare var operator value =>
      exact effect_clause_none telemetry (.compare var operator value) h actions
  | and conditions => exact effect_clause_none telemetry (.and conditions) h actions
  | or conditions =>
      rcases h with ⟨htwo, hclauses⟩
      rcases conditions with _ | ⟨first, rest⟩
      · exact absurd htwo (by simp)
      · have hfirst := hclauses first List.mem_cons_self
        rw [Condition.effect, Condition.effectOr, effect_clause_none telemetry first hfirst,
          effectOrRest_clauses telemetry rest
            fun d hd => hclauses d (List.mem_cons_of_mem first hd)]
        simp [scan, Condition.truths, Condition.clauses, Function.comp_def]

/-- The code of a rule appends its action unless the scan ends with `false`,
    and leaves the stack empty. -/
theorem ruleEffect_flat (h : c.IsFlat) (action : Action) (actions : List Action) :
    ruleEffect telemetry c action (holding none actions)
      = holding none
          (actions ++ if scan (c.truths telemetry) = some false then [] else [action]) := by
  rw [ruleEffect, effect_flat telemetry c h actions]
  -- An empty stack lets the action through, as a true value does.
  rcases scan (c.truths telemetry) with _ | v
  · rfl
  · cases v with
    | false => simp [guarded, holding, eq_zero_ofBool]
    | true => simp [guarded, holding, eq_zero_ofBool, act]

/-- The code of a list of rules. -/
theorem rulesEffect_eq (rules : List ParsedRule) (h : ∀ rule ∈ rules, rule.1.IsFlat)
    (actions : List Action) :
    rulesEffect telemetry rules (holding none actions)
      = holding none (actions ++
          (rules.filter fun rule => scan (rule.1.truths telemetry) ≠ some false).map Prod.snd) := by
  induction rules generalizing actions with
  | nil => simp [rulesEffect]
  | cons rule rest ih =>
      -- Every rule leaves the stack empty, as the next one expects it.
      have hrest := ih fun r hr => h r (List.mem_cons_of_mem rule hr)
      have hstep : rulesEffect telemetry (rule :: rest) (holding none actions)
          = rulesEffect telemetry rest
              (ruleEffect telemetry rule.1 rule.2 (holding none actions)) := rfl
      rw [hstep, ruleEffect_flat telemetry rule.1 (h rule List.mem_cons_self), hrest]
      by_cases hscan : scan (rule.1.truths telemetry) = some false
      · simp [hscan]
      · simp [hscan]

theorem evalAll_eq : Condition.evalAll telemetry conditions
      = (conditions.map (Condition.eval telemetry)).all id := by
  induction conditions with
  | nil => rw [Condition.evalAll, List.map_nil, List.all_nil]
  | cons c rest ih => rw [Condition.evalAll, ih, List.map_cons, List.all_cons, id]

theorem evalAny_eq : Condition.evalAny telemetry conditions
      = (conditions.map (Condition.eval telemetry)).any id := by
  induction conditions with
  | nil => rw [Condition.evalAny, List.map_nil, List.any_nil]
  | cons c rest ih => rw [Condition.evalAny, ih, List.map_cons, List.any_cons, id]

theorem eval_clause (h : c.IsClause) :
    c.eval telemetry = (c.literals.map (Condition.eval telemetry)).all id := by
  rcases h.leaf_or_and with hleaf | ⟨first, second, rest, rfl, -⟩
  · rw [literals_leaf c hleaf]
    simp
  · rw [Condition.eval, evalAll_eq, Condition.literals]

/-- A flat condition is true when some clause has only true leaves. -/
theorem eval_flat (h : c.IsFlat) :
    c.eval telemetry = (c.truths telemetry).any fun clause => clause.all id := by
  cases c with
  | boolean var negate => simp [Condition.truths, Condition.clauses, Condition.literals]
  | compare var operator value => simp [Condition.truths, Condition.clauses, Condition.literals]
  | and conditions =>
      rw [eval_clause telemetry (.and conditions) h]
      simp [Condition.truths, Condition.clauses]
  | or conditions =>
      have hclauses : conditions.map (Condition.eval telemetry)
          = conditions.map fun c => (c.literals.map (Condition.eval telemetry)).all id :=
        List.map_congr_left fun c hc => eval_clause telemetry c (h.2 c hc)
      rw [Condition.eval, evalAny_eq, hclauses]
      simp [Condition.truths, Condition.clauses, List.any_map, Function.comp_def]

end

section

variable (rules : List Rule)

/-- Whoever compiles the rules of a schema has parsed them all, into flat conditions. -/
theorem foldlM_compileRule (st st' : BytecodeCompiler)
    (h : rules.foldlM BytecodeCompiler.compileRule st = .ok st') :
    ∃ parsed, rules.mapM parseRule = .ok parsed ∧ st' = compileRules st parsed ∧
      ∀ rule ∈ parsed, rule.1.IsFlat := by
  induction rules generalizing st with
  | nil => exact ⟨[], rfl, (Except.ok.inj h).symm, by simp⟩
  | cons rule rest ih =>
      rw [List.foldlM_cons] at h
      cases hcondition : parseCondition rule.when with
      | error e =>
          simp [BytecodeCompiler.compileRule, hcondition, bind, Except.bind] at h
      | ok condition =>
          cases haction : parseAction rule.action with
          | error e =>
              simp [BytecodeCompiler.compileRule, hcondition, haction, bind, Except.bind] at h
          | ok action =>
              have hrule : parseRule rule = .ok (condition, action) := by
                simp [parseRule, hcondition, haction, bind, Except.bind, pure, Except.pure]
              have hstep : BytecodeCompiler.compileRule st rule
                  = .ok (st.compileParsed condition action) := by
                simp [BytecodeCompiler.compileRule, hcondition, haction, bind, Except.bind, pure,
                  Except.pure]
              rw [hstep] at h
              rcases ih _ h with ⟨parsed, hparsed, hst, hflat⟩
              refine ⟨(condition, action) :: parsed, ?_, hst, fun r hr => ?_⟩
              · rw [List.mapM_cons, hrule, hparsed]
                rfl
              · rcases List.mem_cons.mp hr with rfl | hr
                · exact parseCondition_isFlat rule.when condition hcondition
                · exact hflat r hr

/-- What a schema compiles to. -/
theorem compile_ok (schema : RulesSchema) (compiled : CompiledRules)
    (h : schema.compile = .ok compiled) :
    ∃ parsed, schema.rules.mapM parseRule = .ok parsed ∧
      compiled.bytecode = (compileRules schema.initialCompiler parsed).finalize ∧
      ∀ rule ∈ parsed, rule.1.IsFlat := by
  cases hfold : schema.rules.foldlM BytecodeCompiler.compileRule schema.initialCompiler with
  | error e => simp [RulesSchema.compile, hfold, bind, Except.bind] at h
  | ok st =>
      rcases foldlM_compileRule schema.rules _ st hfold with ⟨parsed, hparsed, hst, hflat⟩
      refine ⟨parsed, hparsed, ?_, hflat⟩
      simp only [RulesSchema.compile, hfold, bind, Except.bind, pure, Except.pure,
        Except.ok.injEq] at h
      rw [← h, hst]

theorem parseRule_ok (rule : Rule) (p : ParsedRule) (h : parseRule rule = .ok p) :
    parseCondition rule.when = .ok p.1 ∧ parseAction rule.action = .ok p.2 := by
  unfold parseRule at h
  cases hcondition : parseCondition rule.when with
  | error e => simp [hcondition, bind, Except.bind] at h
  | ok condition =>
      cases haction : parseAction rule.action with
      | error e => simp [hcondition, haction, bind, Except.bind] at h
      | ok action =>
          simp only [hcondition, haction, bind, Except.bind, pure, Except.pure,
            Except.ok.injEq] at h
          rw [← h]
          exact ⟨rfl, rfl⟩

/-- Everyone who parses a list of rules has parsed each of them. -/
theorem forall₂_parseRule (parsed : List ParsedRule) (h : rules.mapM parseRule = .ok parsed) :
    List.Forall₂ (fun rule p => parseRule rule = .ok p) rules parsed := by
  induction rules generalizing parsed with
  | nil =>
      have hnil : parsed = [] := (Except.ok.inj h).symm
      rw [hnil]
      exact List.Forall₂.nil
  | cons rule rest ih =>
      rw [List.mapM_cons] at h
      cases hrule : parseRule rule with
      | error e => simp [hrule, bind, Except.bind] at h
      | ok p =>
          cases hrest : rest.mapM parseRule with
          | error e => simp [hrule, hrest, bind, Except.bind] at h
          | ok ps =>
              simp only [hrule, hrest, bind, Except.bind, pure, Except.pure, Except.ok.injEq] at h
              rw [← h]
              exact List.Forall₂.cons hrule (ih ps hrest)

/-- The converse of `foldlM_compileRule`: rules that parse compile. -/
theorem foldlM_of_parsed (parsed : List ParsedRule) (st : BytecodeCompiler)
    (h : List.Forall₂ (fun rule p => parseRule rule = .ok p) rules parsed) :
    rules.foldlM BytecodeCompiler.compileRule st = .ok (compileRules st parsed) := by
  induction h generalizing st with
  | nil => rfl
  | @cons rule p rest ps hrule _ ih =>
      rcases parseRule_ok rule p hrule with ⟨hcondition, haction⟩
      have hstep : BytecodeCompiler.compileRule st rule = .ok (st.compileParsed p.1 p.2) := by
        simp only [BytecodeCompiler.compileRule, hcondition, haction, bind, Except.bind, pure,
          Except.pure]
      rw [List.foldlM_cons, hstep]
      exact ih _

theorem compile_of_parsed (schema : RulesSchema) (parsed : List ParsedRule)
    (h : schema.rules.mapM parseRule = .ok parsed) :
    schema.compile =
      .ok { bytecode := (compileRules schema.initialCompiler parsed).finalize
            hysteresisBands := schema.hysteresisDefaults } := by
  rw [RulesSchema.compile, foldlM_of_parsed schema.rules parsed _ (forall₂_parseRule _ _ h)]
  rfl

/-- Two selections of a list with distinct second components are the same when
    they select the same components. -/
theorem filter_map_snd_inj (rules : List ParsedRule) (p q : ParsedRule → Bool)
    (hnodup : (rules.map Prod.snd).Nodup)
    (h : (rules.filter p).map Prod.snd = (rules.filter q).map Prod.snd) :
    ∀ rule ∈ rules, p rule = q rule := by
  have hincluded : ∀ p q : ParsedRule → Bool,
      (rules.filter p).map Prod.snd = (rules.filter q).map Prod.snd →
      ∀ rule ∈ rules, p rule = true → q rule = true := by
    intro p q heq rule hrule hp
    have hmem : rule.2 ∈ (rules.filter q).map Prod.snd := by
      rw [← heq]
      exact List.mem_map.mpr ⟨rule, List.mem_filter.mpr ⟨hrule, hp⟩, rfl⟩
    rcases List.mem_map.mp hmem with ⟨other, hother, hsnd⟩
    rcases List.mem_filter.mp hother with ⟨hotherMem, hq⟩
    have hsame : other = rule := List.inj_on_of_nodup_map hnodup hotherMem hrule hsnd
    rw [← hsame]
    exact hq
  intro rule hrule
  have hforth := hincluded p q h rule hrule
  have hback := hincluded q p h.symm rule hrule
  exact Bool.eq_iff_iff.mpr ⟨hforth, hback⟩

/-- One evaluation of a compiled schema returns the actions of the rules whose
    conditions are true if the truth values of every rule are faithful, and,
    when no two rules have the same action, only if. -/
theorem evaluate_actions_iff (schema : RulesSchema) (compiled : CompiledRules)
    (ev : RulesEvaluator) (now : Instant) (telemetry : Telemetry) (fuel : Nat)
    (hdefaults : schema.hysteresisDefaults = ∅) (hcompile : schema.compile = .ok compiled)
    (hinstructions : compiled.bytecode.instructions.length ≤ 65535)
    (hvariables : compiled.bytecode.variableMap.entries.length ≤ 65535)
    (hactions : compiled.bytecode.actions.length ≤ 65535)
    (hdue : ev.minEvalInterval ≤ durationSince now ev.lastEval)
    (hfuel : compiled.bytecode.instructions.length ≤ fuel) :
    ∃ rules, schema.rules.mapM parseRule = .ok rules ∧
      ((∀ rule ∈ rules, Faithful (rule.1.truths telemetry)) →
        ((ev.initializeForProgram compiled.bytecode).evaluate fuel now compiled
          telemetry).actionsBuffer = directActions telemetry rules) ∧
      ((rules.map Prod.snd).Nodup →
        ((ev.initializeForProgram compiled.bytecode).evaluate fuel now compiled
          telemetry).actionsBuffer = directActions telemetry rules →
        ∀ rule ∈ rules, Faithful (rule.1.truths telemetry)) := by
  rcases compile_ok schema compiled hcompile with ⟨rules, hparsed, hcode, hflat⟩
  have hinitial : schema.initialCompiler = {} := by
    rw [RulesSchema.initialCompiler, hdefaults]
    rfl
  rw [hinitial] at hcode
  rw [hcode] at hinstructions hvariables hactions hfuel
  have hexecute := execute_compiled telemetry rules
    ((ev.initializeForProgram compiled.bytecode).hysteresisState) fuel
    (Nat.lt_succ_of_le hinstructions) (Nat.lt_succ_of_le hvariables)
    (Nat.lt_succ_of_le hactions) hfuel
  have heffect := rulesEffect_eq telemetry rules hflat []
  -- What the evaluator returns, whether or not it is right.
  have hbuffer : ((ev.initializeForProgram compiled.bytecode).evaluate fuel now compiled
      telemetry).actionsBuffer
        = (rules.filter fun rule => scan (rule.1.truths telemetry) ≠ some false).map Prod.snd := by
    have hlimit : ¬ durationSince now (ev.initializeForProgram compiled.bytecode).lastEval
        < (ev.initializeForProgram compiled.bytecode).minEvalInterval := Nat.not_lt.mpr hdue
    rw [RulesEvaluator.evaluate, if_neg hlimit]
    simp only [RulesEvaluator.initializeForProgram, hcode] at hexecute ⊢
    exact (congrArg Vm.actionsBuffer hexecute).trans (congrArg Frame.actions heffect)
  have hdecides : ∀ rule ∈ rules, Faithful (rule.1.truths telemetry) ↔
      decide (scan (rule.1.truths telemetry) ≠ some false) = rule.1.eval telemetry := by
    intro rule hrule
    rw [Faithful, ← eval_flat telemetry rule.1 (hflat rule hrule)]
    cases rule.1.eval telemetry with
    | false => simp
    | true => simp
  refine ⟨rules, hparsed, fun hfaithful => ?_, fun hnodup heq => ?_⟩
  · rw [hbuffer, directActions]
    refine congrArg (List.map Prod.snd) (List.filter_congr fun rule hrule => ?_)
    exact (hdecides rule hrule).mp (hfaithful rule hrule)
  · intro rule hrule
    rw [hbuffer, directActions] at heq
    exact (hdecides rule hrule).mpr (filter_map_snd_inj rules _ _ hnodup heq rule hrule)

/-- One rule that is a conjunction. -/
def gearSchema : RulesSchema :=
  { schema := "flight.ledmap/1".toList
    rules := [{ when := "gear and flaps".toList, action := "led.indexer.on()".toList }]
    defaults := none }

/-- What `gearSchema` compiles to, in numbers, with what two calls of it do. -/
theorem gearSchema_compiles : ∃ compiled, gearSchema.compile = .ok compiled ∧
    (compiled.bytecode.instructions.length, compiled.bytecode.variableMap.entries.length,
      compiled.bytecode.actions.length, (((RulesEvaluator.new 20000000).initializeForProgram
        compiled.bytecode).evaluate 10 20000000 compiled fun _ => none).actionsBuffer)
      = (10, 2, 1, [.ledOn "indexer".toList]) :=
  exists_ok_of_map (by decide +kernel)

theorem evaluate_actions_both : ∃ compiled, gearSchema.compile = .ok compiled ∧
      (((RulesEvaluator.new 20000000).initializeForProgram compiled.bytecode).evaluate 10 20000000
        compiled fun _ => some (.fin 1)).actionsBuffer = [.ledOn "indexer".toList] := by
  rcases gearSchema_compiles with ⟨compiled, hcompile, hsizes⟩
  simp only [Prod.mk.injEq] at hsizes
  rcases hsizes with ⟨hinstructions, hvariables, hactions, -⟩
  rcases evaluate_actions_iff gearSchema compiled (RulesEvaluator.new 20000000) 20000000
    (fun _ => some (.fin 1)) 10 rfl hcompile (by omega) (by omega) (by omega) (by decide)
    (by omega) with ⟨rules, hparsed, hright, -⟩
  have hfaithful : ((gearSchema.rules.mapM parseRule).toOption.map fun rules =>
      rules.all fun rule => decide (Faithful (rule.1.truths fun _ => some (.fin 1))))
        = some true := by
    decide +kernel
  have hdirect : ((gearSchema.rules.mapM parseRule).toOption.map
      (directActions fun _ => some (.fin 1))) = some [.ledOn "indexer".toList] := by
    decide +kernel
  rw [hparsed] at hfaithful hdirect
  refine ⟨compiled, hcompile, ?_⟩
  rw [hright fun rule hrule => ?_]
  · exact Option.some.inj hdirect
  · exact of_decide_eq_true (List.all_eq_true.mp (Option.some.inj hfaithful) rule hrule)

/-- A conjunction whose variables are both missing lights its panel: the first test leaves nothing
    on the stack, and the test before the action does not jump on an empty stack. -/
theorem evaluate_actions_neither :
    ∃ compiled rules, gearSchema.hysteresisDefaults = ∅ ∧ gearSchema.compile = .ok compiled ∧
      gearSchema.rules.mapM parseRule = .ok rules ∧
      compiled.bytecode.instructions.length ≤ 65535 ∧
      compiled.bytecode.variableMap.entries.length ≤ 65535 ∧
      compiled.bytecode.actions.length ≤ 65535 ∧
      (((RulesEvaluator.new 20000000).initializeForProgram compiled.bytecode).evaluate 10 20000000
        compiled fun _ => none).actionsBuffer ≠ directActions (fun _ => none) rules := by
  have hdirect : ((gearSchema.rules.mapM parseRule).toOption.map
      (directActions fun _ => none)) = some [] := by
    decide +kernel
  rcases exists_ok_of_map hdirect with ⟨rules, hparsed, hnone⟩
  rcases gearSchema_compiles with ⟨compiled, hcompile, hsizes⟩
  simp only [Prod.mk.injEq] at hsizes
  refine ⟨compiled, rules, rfl, hcompile, hparsed, by omega, by omega, by omega, ?_⟩
  rw [hsizes.2.2.2, hnone]
  exact List.cons_ne_nil _ _

end

end OpenFlight.Rules
