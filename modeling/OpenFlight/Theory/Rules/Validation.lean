import OpenFlight.Lib.Checks
import OpenFlight.Theory.Rules.CompilerCorrect

/-!
# Validation and Compilation

A schema passes validation exactly when it compiles.

The two run the same parsers in different surroundings: validation gives each
rule a fresh compiler and asks beforehand that its texts are not blank, while
compilation threads one compiler through all rules. Neither makes a difference.
Emitting code never fails, so whether a rule compiles depends on its two texts
alone, and the parsers reject blank texts themselves.

## Main definitions

* `Rule.Parses`: Both texts of a rule are accepted.

## Theorems

* `parseCondition_blank`, `parseAction_blank`: Blank texts do not parse.
* `validate_iff_compile`: They agree.
-/

namespace OpenFlight.Rules

/-- The parsers accept the condition and the action. -/
def Rule.Parses (rule : Rule) : Prop :=
  (∃ condition, parseCondition rule.when = .ok condition) ∧
    ∃ action, parseAction rule.action = .ok action

/-- A rule compiles from any state if its texts parse. -/
theorem compileRule_ok_iff (st : BytecodeCompiler) (rule : Rule) :
    (∃ st', st.compileRule rule = .ok st') ↔ rule.Parses := by
  unfold BytecodeCompiler.compileRule Rule.Parses
  cases parseCondition rule.when <;> cases parseAction rule.action <;>
    simp [bind, Except.bind, pure, Except.pure]

theorem foldlM_compileRule_ok_iff (rules : List Rule) (st : BytecodeCompiler) :
    (∃ st', rules.foldlM BytecodeCompiler.compileRule st = .ok st') ↔
      ∀ rule ∈ rules, rule.Parses := by
  induction rules generalizing st with
  | nil => exact ⟨fun _ rule h => absurd h List.not_mem_nil, fun _ => ⟨st, rfl⟩⟩
  | cons rule rest ih =>
      rw [List.foldlM_cons, List.forall_mem_cons, ← compileRule_ok_iff st rule]
      cases st.compileRule rule with
      | error e => simp [bind, Except.bind]
      | ok next =>
          -- Whatever the first rule has left in the compiler, the rest is judged the same.
          simp only [bind, Except.bind, ih next, Except.ok.injEq, exists_eq', true_and]

theorem compile_ok_iff (schema : RulesSchema) :
    (∃ compiled, schema.compile = .ok compiled) ↔ ∀ rule ∈ schema.rules, rule.Parses := by
  rw [← foldlM_compileRule_ok_iff schema.rules schema.initialCompiler]
  unfold RulesSchema.compile
  cases schema.rules.foldlM BytecodeCompiler.compileRule schema.initialCompiler <;>
    simp [bind, Except.bind, pure, Except.pure]

theorem parseCondition_blank (s : Text) (h : trim s = []) (condition : Condition) :
    parseCondition s ≠ .ok condition := by
  simp [parseCondition, parseFuel, h]

/-- None of the words that an action is recognised by occurs in the empty text. -/
theorem parseAction_blank (s : Text) (h : trim s = []) (action : Action) :
    parseAction s ≠ .ok action := by
  have hpanel : parsePanel [] = none := by decide
  have hindexer : parseIndexer [] = none := by decide
  simp [parseAction, h, hpanel, hindexer]

theorem validateRule_ok_iff (rule : Rule) :
    RulesSchema.validateRule rule = .ok () ↔ rule.Parses := by
  have hparses := compileRule_ok_iff {} rule
  unfold RulesSchema.validateRule
  rw [reject_ok_iff, reject_ok_iff]
  rcases hcompile : BytecodeCompiler.compileRule {} rule with ⟨message⟩ | st
  · rw [hcompile] at hparses
    simp only [reduceCtorEq, exists_false, false_iff] at hparses
    exact ⟨fun h => absurd h.2.2 (by simp), fun h => absurd h hparses⟩
  · rw [hcompile] at hparses
    have hrule : rule.Parses := hparses.mp ⟨st, rfl⟩
    refine ⟨fun _ => hrule, fun _ => ⟨fun hblank => ?_, fun hblank => ?_, rfl⟩⟩
    · exact parseCondition_blank rule.when hblank _ hrule.1.choose_spec
    · exact parseAction_blank rule.action hblank _ hrule.2.choose_spec

theorem validate_ok_iff (schema : RulesSchema) : schema.validate = .ok () ↔
      schema.schema = "flight.ledmap/1".toList ∧ ∀ rule ∈ schema.rules, rule.Parses := by
  unfold RulesSchema.validate
  rw [reject_ok_iff, not_not]
  refine and_congr_right fun _ => forM_zipIdx_ok_iff _ _ (fun rule index => ?_) _
  rw [← validateRule_ok_iff]
  cases hrule : RulesSchema.validateRule rule with
  | error message => simp [hrule]
  | ok u => simp [hrule]

/-- A schema of the supported version passes validation exactly when it compiles. -/
theorem validate_iff_compile (schema : RulesSchema)
    (hversion : schema.schema = "flight.ledmap/1".toList) :
    schema.validate = .ok () ↔ ∃ compiled, schema.compile = .ok compiled := by
  rw [validate_ok_iff, compile_ok_iff, and_iff_right hversion]

theorem validate_iff_compile_gear : gearSchema.schema = "flight.ledmap/1".toList ∧
      (gearSchema.validate = .ok () ↔ ∃ compiled, gearSchema.compile = .ok compiled) :=
  ⟨rfl, validate_iff_compile gearSchema rfl⟩

end OpenFlight.Rules
