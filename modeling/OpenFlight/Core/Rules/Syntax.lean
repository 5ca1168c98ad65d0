import OpenFlight.Core.Rules.Text

/-!
# Syntax of the Rules Language

Conditions and actions of a rule, and the parser that reads them from the
texts of the schema.

The parser of conditions cuts at `" or "` first and at `" and "` second, and
calls itself on the pieces. A piece is shorter than the text it was cut from,
so the recursion is bounded by the length of the text, and the model carries
that bound as fuel: `parseFuel_eq` says that any larger bound gives the same
result, so running out of it never shows. There is no bracketing, and a piece
does not contain the word it was cut at, so what comes out is at most an `Or`
of `And`s of leaves.

## Main definitions

* `CompareOp`, `Condition`, `Action`: The syntax.
* `parseCondition`, `parseAction`: The parsers.

## Theorems

* `parseFuel_eq`: The fuel is enough.
* `parseCondition_isFlat`: The parser produces flat conditions.
-/

namespace OpenFlight.Rules

/-- `RulesError::Validation`. -/
inductive RulesError
  | validation (message : String)
deriving DecidableEq

/-- The comparisons. -/
inductive CompareOp
  | equal
  | notEqual
  | greater
  | greaterEqual
  | less
  | lessEqual
deriving DecidableEq

/-- A condition as it is parsed. -/
inductive Condition
  | compare (var : Text) (operator : CompareOp) (value : F32)
  | boolean (var : Text) (negate : Bool)
  | and (conditions : List Condition)
  | or (conditions : List Condition)

/-- What a rule does. -/
inductive Action
  | ledOn (target : Text)
  | ledOff (target : Text)
  | ledBlink (target : Text) (rateHz : F32)
  | ledBrightness (target : Text) (brightness : F32)
deriving DecidableEq

/-- A comparison with a number, cut at the operator. -/
def parseComparison (operator : CompareOp) (parts : Text × Text) : Except RulesError Condition :=
  match parseF32 (trim parts.2) with
  | some value => .ok (.compare (trim parts.1) operator value)
  | none => .error (.validation ("Invalid number: " ++ String.ofList (trim parts.2)))

/-- A comparison that reads as a named state when the right side is no number. -/
def parseStateComparison (operator : CompareOp) (negate : Bool) (parts : Text × Text) : Condition :=
  match parseF32 (trim parts.2) with
  | some value => .compare (trim parts.1) operator value
  | none => .boolean (trim parts.1 ++ '_' :: trim parts.2) negate

/-- Whether a text has one of the characters that comparisons are made of. -/
def hasOperator (s : Text) : Bool :=
  s.any fun c => c == '>' || c == '<' || c == '='

/-- The comparisons, the operators tried in the source's order. -/
def parseOperators (s : Text) : Except RulesError Condition :=
  match splitOnce " >= ".toList s with
  | some parts => parseComparison .greaterEqual parts
  | none =>
  match splitOnce " <= ".toList s with
  | some parts => parseComparison .lessEqual parts
  | none =>
  match splitOnce " != ".toList s with
  | some parts => .ok (parseStateComparison .notEqual true parts)
  | none =>
  match splitOnce " == ".toList s with
  | some parts => .ok (parseStateComparison .equal false parts)
  | none =>
  match splitOnce " > ".toList s with
  | some parts => parseComparison .greater parts
  | none =>
  match splitOnce " < ".toList s with
  | some parts => parseComparison .less parts
  | none => .error (.validation ("Unsupported condition syntax: " ++ String.ofList s))

/-- The part of `parse_condition` after the connectives. -/
def parseLeaf (s : Text) : Except RulesError Condition :=
  if hasOperator s then parseOperators s
  else match s with
    | '!' :: rest => .ok (.boolean (trim rest) true)
    | _ => .ok (.boolean s false)

/-- The word between the parts of a disjunction. -/
def orWord : Text := " or ".toList

/-- The word between the parts of a conjunction. -/
def andWord : Text := " and ".toList

/-- `parse_condition`, with a bound on the depth of its calls to itself. -/
def parseFuel : Nat → Text → Except RulesError Condition
  | 0, _ => .error (.validation "condition string is empty")
  | fuel + 1, s =>
      let s := trim s
      if s = [] then .error (.validation "condition string is empty")
      else
        -- A disjunction is cut first, so `and` binds tighter.
        let orParts := splitAll orWord s
        if 1 < orParts.length then
          (orParts.mapM fun part => parseFuel fuel (trim part)).map Condition.or
        else
          let andParts := splitAll andWord s
          if 1 < andParts.length then
            (andParts.mapM fun part => parseFuel fuel (trim part)).map Condition.and
          else parseLeaf s

/-- A text as a condition. -/
def parseCondition (s : Text) : Except RulesError Condition :=
  parseFuel (s.length + 1) s

/-- The number up to the closing bracket, with the word for it in the error. -/
def parseArgument (what : String) (s : Text) : Option (Except RulesError F32) :=
  (splitOnce [')'] s).map fun parts =>
    match parseF32 parts.1 with
    | some value => .ok value
    | none => .error (.validation ("Invalid " ++ what ++ ": " ++ String.ofList parts.1))

/-- What follows a panel's target. -/
def parsePanelSuffix (target suffix : Text) : Option (Except RulesError Action) :=
  if suffix = ".on()".toList then some (.ok (.ledOn target))
  else if suffix = ".off()".toList then some (.ok (.ledOff target))
  else
    match (splitOnce "rate_hz=".toList suffix).bind fun parts => parseArgument "rate" parts.2 with
    | some rate => some (rate.map (Action.ledBlink target))
    | none =>
        ((splitOnce ".brightness(".toList suffix).bind fun parts =>
          parseArgument "brightness" parts.2).map fun value =>
            value.map (Action.ledBrightness target)

/-- `led.panel('TARGET')` and what follows it. -/
def parsePanel (s : Text) : Option (Except RulesError Action) :=
  (splitOnce "led.panel('".toList s).bind fun parts =>
    (splitOnce "')".toList parts.2).bind fun parts => parsePanelSuffix parts.1 parts.2

/-- `led.indexer.` and what follows it. -/
def parseIndexer (s : Text) : Option (Except RulesError Action) :=
  if s = "led.indexer.on()".toList then some (.ok (.ledOn "indexer".toList))
  else if s = "led.indexer.off()".toList then some (.ok (.ledOff "indexer".toList))
  else if "led.indexer.blink(".toList.isPrefixOf s then
    ((splitOnce "rate_hz=".toList s).bind fun parts => parseArgument "rate" parts.2).map
      fun rate => rate.map (Action.ledBlink "indexer".toList)
  else none

/-- A text as an action. -/
def parseAction (s : Text) : Except RulesError Action :=
  let s := trim s
  match parsePanel s with
  | some result => result
  | none =>
      match parseIndexer s with
      | some result => result
      | none => .error (.validation ("Unsupported action syntax: " ++ String.ofList s))

namespace Condition

/-- A condition without connectives. -/
def IsLeaf : Condition → Prop
  | .compare _ _ _ => True
  | .boolean _ _ => True
  | _ => False

/-- A leaf, or the conjunction of at least two. -/
def IsClause : Condition → Prop
  | .and conditions => 2 ≤ conditions.length ∧ ∀ c ∈ conditions, c.IsLeaf
  | c => c.IsLeaf

/-- A clause, or the disjunction of at least two. -/
def IsFlat : Condition → Prop
  | .or conditions => 2 ≤ conditions.length ∧ ∀ c ∈ conditions, c.IsClause
  | c => c.IsClause

theorem IsClause.leaf_or_and {c : Condition} (h : c.IsClause) :
    c.IsLeaf ∨ ∃ first second rest, c = .and (first :: second :: rest) ∧ first.IsLeaf ∧
      second.IsLeaf ∧ ∀ d ∈ rest, d.IsLeaf := by
  cases c with
  | and conditions =>
      rcases h with ⟨htwo, hleaves⟩
      rcases conditions with _ | ⟨first, _ | ⟨second, rest⟩⟩
      · exact absurd htwo (by simp)
      · exact absurd htwo (by simp)
      · rw [List.forall_mem_cons, List.forall_mem_cons] at hleaves
        exact Or.inr ⟨first, second, rest, rfl, hleaves⟩
  | _ => exact Or.inl h

end Condition

/-- A result is there if something was computed from it. -/
theorem exists_ok_of_map {α β ε : Type} {x : Except ε α} {f : α → β} {b : β}
    (h : x.toOption.map f = some b) : ∃ a, x = .ok a ∧ f a = b := by
  cases x with
  | error e => exact absurd h (by simp [Except.toOption])
  | ok a => exact ⟨a, rfl, Option.some.inj h⟩

/-- A fallible function that succeeds on a whole list gives as many results,
    each from an element of the list. -/
theorem map_mapM_eq_ok {α β γ ε : Type} (f : α → Except ε β) (g : List β → γ) (l : List α) (c : γ)
    (h : (l.mapM f).map g = .ok c) :
    ∃ r, c = g r ∧ r.length = l.length ∧ ∀ b ∈ r, ∃ a ∈ l, f a = .ok b := by
  induction l generalizing g with
  | nil => exact ⟨[], (Except.ok.inj h).symm, rfl, by simp⟩
  | cons a rest ih =>
      rw [List.mapM_cons] at h
      cases ha : f a with
      | error e => simp [ha, bind, Except.bind, Except.map] at h
      | ok b =>
          cases hrest : rest.mapM f with
          | error e => simp [ha, hrest, bind, Except.bind, Except.map] at h
          | ok bs =>
              simp only [ha, hrest, bind, Except.bind, pure, Except.pure, Except.map,
                Except.ok.injEq] at h
              rcases ih (fun bs => g (b :: bs)) (by simp [hrest, Except.map, h]) with
                ⟨r, hc, hlength, hmem⟩
              refine ⟨b :: r, hc, by simp [hlength], fun d hd => ?_⟩
              rcases List.mem_cons.mp hd with rfl | hd
              · exact ⟨a, List.mem_cons_self, ha⟩
              · rcases hmem d hd with ⟨a', ha', hfa'⟩
                exact ⟨a', List.mem_cons_of_mem a ha', hfa'⟩

theorem mapM_congr_of_mem {α β ε : Type} (f g : α → Except ε β) (l : List α)
    (h : ∀ a ∈ l, f a = g a) : l.mapM f = l.mapM g := by
  induction l with
  | nil => rfl
  | cons a rest ih =>
      rw [List.mapM_cons, List.mapM_cons, h a List.mem_cons_self,
        ih fun b hb => h b (List.mem_cons_of_mem a hb)]

theorem trim_within (s : Text) : trim s <:+: s :=
  trimBy_within isWhitespace s

/-- The pieces of a trimmed text, trimmed, are shorter than the text. -/
theorem trim_piece_length (sep s piece : Text) (hsep : sep ≠ [])
    (hmany : 1 < (splitAll sep (trim s)).length) (h : piece ∈ splitAll sep (trim s)) :
    (trim piece).length < s.length := by
  have hcut := splitAll_shorter sep (trim s) piece hsep hmany h
  have hpiece := (trim_within piece).length_le
  have hwhole := (trim_within s).length_le
  omega

/-- Fuel beyond the length of the text does not change the result. -/
theorem parseFuel_eq (fuel fuel' : Nat) (s : Text) (h : s.length < fuel) (h' : s.length < fuel') :
    parseFuel fuel s = parseFuel fuel' s := by
  induction fuel generalizing fuel' s with
  | zero => omega
  | succ fuel ih =>
      cases fuel' with
      | zero => omega
      | succ fuel' =>
          -- Both runs cut the text at the same places and go on with shorter ones.
          have hpieces : ∀ sep : Text, sep ≠ [] → 1 < (splitAll sep (trim s)).length →
              ((splitAll sep (trim s)).mapM fun part => parseFuel fuel (trim part))
                = (splitAll sep (trim s)).mapM fun part => parseFuel fuel' (trim part) := by
            intro sep hsep hmany
            refine mapM_congr_of_mem _ _ _ fun part hpart => ?_
            have hlength := trim_piece_length sep s part hsep hmany hpart
            exact ih fuel' (trim part) (by omega) (by omega)
          simp only [parseFuel]
          by_cases hor : 1 < (splitAll orWord (trim s)).length
          · simp only [hor, if_true, hpieces orWord (by decide) hor]
          · by_cases hand : 1 < (splitAll andWord (trim s)).length
            · simp only [hor, hand, if_true, if_false, hpieces andWord (by decide) hand]
            · simp only [hor, hand, if_false]

/-- What holds of all comparisons and all booleans holds of what is parsed. -/
theorem parseOperators_of (s : Text) (c : Condition) (h : parseOperators s = .ok c)
    (P : Condition → Prop)
    (hcompare : ∀ var operator value text, parseF32 text = some value →
      P (.compare var operator value))
    (hboolean : ∀ var negate, P (.boolean var negate)) : P c := by
  have hcomparison : ∀ operator parts, parseComparison operator parts = .ok c → P c := by
    intro operator parts hc
    unfold parseComparison at hc
    split at hc
    · rename_i value hvalue
      rw [← Except.ok.inj hc]
      exact hcompare _ _ value _ hvalue
    · exact absurd hc (by simp)
  have hstate : ∀ operator negate parts,
      (.ok (parseStateComparison operator negate parts) : Except RulesError Condition) = .ok c →
        P c := by
    intro operator negate parts hc
    rw [← Except.ok.inj hc]
    unfold parseStateComparison
    split
    · rename_i value hvalue
      exact hcompare _ _ value _ hvalue
    · exact hboolean _ _
  unfold parseOperators at h
  split at h
  · exact hcomparison _ _ h
  split at h
  · exact hcomparison _ _ h
  split at h
  · exact hstate _ _ _ h
  split at h
  · exact hstate _ _ _ h
  split at h
  · exact hcomparison _ _ h
  split at h
  · exact hcomparison _ _ h
  · exact absurd h (by simp)

/-- The same for a text without connectives. -/
theorem parseLeaf_of (s : Text) (c : Condition) (h : parseLeaf s = .ok c) (P : Condition → Prop)
    (hcompare : ∀ var operator value text, parseF32 text = some value →
      P (.compare var operator value))
    (hboolean : ∀ var negate, P (.boolean var negate)) : P c := by
  unfold parseLeaf at h
  split_ifs at h
  · exact parseOperators_of s c h P hcompare hboolean
  · split at h
    · rw [← Except.ok.inj h]
      exact hboolean _ _
    · rw [← Except.ok.inj h]
      exact hboolean _ _

theorem parseLeaf_isLeaf (s : Text) (c : Condition) (h : parseLeaf s = .ok c) : c.IsLeaf :=
  parseLeaf_of s c h Condition.IsLeaf (fun _ _ _ _ _ => trivial) fun _ _ => trivial

theorem isClause_of_isLeaf (c : Condition) (h : c.IsLeaf) : c.IsClause := by
  cases c with
  | compare var operator value => exact h
  | boolean var negate => exact h
  | and conditions => exact absurd h (by simp [Condition.IsLeaf])
  | or conditions => exact absurd h (by simp [Condition.IsLeaf])

theorem isFlat_of_isClause (c : Condition) (h : c.IsClause) : c.IsFlat := by
  cases c with
  | compare var operator value => exact h
  | boolean var negate => exact h
  | and conditions => exact h
  | or conditions => exact absurd h (by simp [Condition.IsClause, Condition.IsLeaf])

/-- A text in which neither connective occurs is parsed as a leaf. -/
theorem parseFuel_isLeaf (fuel : Nat) (s : Text) (c : Condition) (hor : ¬ orWord <:+: trim s)
    (hand : ¬ andWord <:+: trim s) (h : parseFuel fuel s = .ok c) : c.IsLeaf := by
  cases fuel with
  | zero => exact absurd h (by simp [parseFuel])
  | succ fuel =>
      have hnoOr := splitAll_of_absent orWord (trim s) hor
      have hnoAnd := splitAll_of_absent andWord (trim s) hand
      simp only [parseFuel, hnoOr, hnoAnd, List.length_singleton, Nat.lt_irrefl, if_false] at h
      split_ifs at h
      exact parseLeaf_isLeaf _ c h

/-- A text in which `" or "` does not occur is parsed as a clause. -/
theorem parseFuel_isClause (fuel : Nat) (s : Text) (c : Condition) (hor : ¬ orWord <:+: trim s)
    (h : parseFuel fuel s = .ok c) : c.IsClause := by
  cases fuel with
  | zero => exact absurd h (by simp [parseFuel])
  | succ fuel =>
      have hnoOr := splitAll_of_absent orWord (trim s) hor
      simp only [parseFuel, hnoOr, List.length_singleton, Nat.lt_irrefl, if_false] at h
      split_ifs at h with hempty hmany
      · rcases map_mapM_eq_ok _ _ _ _ h with ⟨conditions, rfl, hlength, hmem⟩
        refine ⟨by omega, fun d hd => ?_⟩
        rcases hmem d hd with ⟨part, hpart, hparse⟩
        rcases splitAll_spec andWord (trim s) part (by decide) hpart with ⟨hwithin, hclean⟩
        -- The pieces of the conjunction contain neither connective.
        have hinside : trim (trim part) <:+: part :=
          (trim_within (trim part)).trans (trim_within part)
        refine parseFuel_isLeaf fuel (trim part) d ?_ ?_ hparse
        · exact fun hoccurs => hor ((hoccurs.trans hinside).trans hwithin)
        · exact fun hoccurs => hclean (hoccurs.trans hinside)
      · exact isClause_of_isLeaf c (parseLeaf_isLeaf _ c h)

/-- What the parser produces is flat. -/
theorem parseCondition_isFlat (s : Text) (c : Condition) (h : parseCondition s = .ok c) :
    c.IsFlat := by
  by_cases hmany : 1 < (splitAll orWord (trim s)).length
  · unfold parseCondition at h
    simp only [parseFuel, hmany, if_true] at h
    split_ifs at h with hempty
    rcases map_mapM_eq_ok _ _ _ _ h with ⟨conditions, rfl, hlength, hmem⟩
    refine ⟨by omega, fun d hd => ?_⟩
    rcases hmem d hd with ⟨part, hpart, hparse⟩
    have hclean := (splitAll_spec orWord (trim s) part (by decide) hpart).2
    refine parseFuel_isClause _ (trim part) d (fun hoccurs => hclean ?_) hparse
    exact hoccurs.trans ((trim_within (trim part)).trans (trim_within part))
  · have hor := not_infix_of_splitAll orWord (trim s) (by decide) hmany
    exact isFlat_of_isClause c (parseFuel_isClause _ s c hor h)

end OpenFlight.Rules
