import OpenFlight.Core.Rules.Syntax
import OpenFlight.Lib.Words

/-!
# Parsing What Was Printed

Conditions written out in the rules language, and that the parser reads them
back.

A printed leaf is a variable, a variable behind an exclamation mark, or a
variable, an operator and a number with blanks between them; clauses and
disjunctions put `and` and `or` between those. A number may be printed in any
way that reads as the same number, so printing is a relation.

The parser finds connectives and operators by looking for their texts with the
blanks around them. Everything printed is words with one blank between any
two, so it can only find a whole word, and the words that are variables or
numbers are none of those it looks for: they have no character of an operator,
and no variable is named like a connective.

## Main definitions

* `IsVariable`: The names of variables.
* `PrintsLeaf`, `PrintsClause`, `Prints`: The texts of a condition.

## Theorems

* `parseFuel_leaf`, `parseFuel_clause`: Leaves and clauses are read back.
* `parseCondition_prints`: Every printed condition is read back.
-/

namespace OpenFlight.Rules

/-- The characters of variables and of numbers. -/
def isTokenChar (c : Char) : Bool :=
  c.isAlphanum || c == '_' || c == '+' || c == '-' || c == '.'

/-- `[A-Za-z_][A-Za-z0-9_]*`, and not a connective. -/
structure IsVariable (v : Text) : Prop where
  start : ∃ c rest, v = c :: rest ∧ (c.isAlpha || c == '_') = true ∧
    rest.all (fun c => c.isAlphanum || c == '_') = true
  ne_or : v ≠ "or".toList
  ne_and : v ≠ "and".toList

/-- The operators. -/
def CompareOp.symbol : CompareOp → Text
  | .equal => "==".toList
  | .notEqual => "!=".toList
  | .greater => ">".toList
  | .greaterEqual => ">=".toList
  | .less => "<".toList
  | .lessEqual => "<=".toList

/-- The texts of a leaf. -/
inductive PrintsLeaf : Condition → Text → Prop
  | boolean (v : Text) (hv : IsVariable v) : PrintsLeaf (.boolean v false) v
  | negated (v : Text) (hv : IsVariable v) : PrintsLeaf (.boolean v true) ('!' :: v)
  | compare (v number : Text) (operator : CompareOp) (value : F32) (hv : IsVariable v)
      (hnumber : parseF32 number = some value) :
      PrintsLeaf (.compare v operator value) (v ++ blankWord ' ' operator.symbol ++ number)

/-- The texts of a leaf or of a conjunction of leaves. -/
inductive PrintsClause : Condition → Text → Prop
  | leaf (c : Condition) (s : Text) (h : PrintsLeaf c s) : PrintsClause c s
  | and (conditions : List Condition) (texts : List Text) (hmany : 2 ≤ conditions.length)
      (h : List.Forall₂ PrintsLeaf conditions texts) :
      PrintsClause (.and conditions) (andWord.intercalate texts)

/-- The texts of a clause or of a disjunction of clauses. -/
inductive Prints : Condition → Text → Prop
  | clause (c : Condition) (s : Text) (h : PrintsClause c s) : Prints c s
  | or (conditions : List Condition) (texts : List Text) (hmany : 2 ≤ conditions.length)
      (h : List.Forall₂ PrintsClause conditions texts) :
      Prints (.or conditions) (orWord.intercalate texts)

section

/-- A variable or a number: not empty, and all of its characters are such. -/
def IsToken (s : Text) : Prop :=
  s ≠ [] ∧ ∀ c ∈ s, isTokenChar c = true

variable (c : Char)

theorem isDigit_range : c.isDigit = true ↔ 48 ≤ c.toNat ∧ c.toNat ≤ 57 := by
  simp only [Char.isDigit, ge_iff_le, Bool.and_eq_true, decide_eq_true_eq,
    UInt32.le_iff_toNat_le]
  exact Iff.rfl

theorem isAlpha_range : c.isAlpha = true ↔
    (65 ≤ c.toNat ∧ c.toNat ≤ 90) ∨ (97 ≤ c.toNat ∧ c.toNat ≤ 122) := by
  have hshape : c.isAlpha = (decide (c.val ≥ 'A'.val ∧ c.val ≤ 'Z'.val) ||
      (decide (c.val ≥ 'a'.val) && decide (c.val ≤ 'z'.val))) := rfl
  simp only [hshape, ge_iff_le, Bool.or_eq_true, Bool.and_eq_true, decide_eq_true_eq,
    UInt32.le_iff_toNat_le]
  exact Iff.rfl

/-- The characters of variables and numbers are letters, digits and four more;
    blanks and the characters of operators are in none of the ranges. -/
theorem isTokenChar_range (h : isTokenChar c = true) :
    (43 ≤ c.toNat ∧ c.toNat ≤ 57) ∨ (65 ≤ c.toNat ∧ c.toNat ≤ 90) ∨
      (95 ≤ c.toNat ∧ c.toNat ≤ 122) := by
  simp only [isTokenChar, Char.isAlphanum, Bool.or_eq_true, beq_iff_eq, isDigit_range,
    isAlpha_range] at h
  rcases h with (((((hupper | hlower) | hdigit) | rfl) | rfl) | rfl) | rfl
  · exact .inr (.inl hupper)
  · exact .inr (.inr ⟨by omega, hlower.2⟩)
  · exact .inl ⟨by omega, hdigit.2⟩
  · decide
  · decide
  · decide
  · decide

theorem isWhitespace_of_isTokenChar (h : isTokenChar c = true) : isWhitespace c = false := by
  have hrange := isTokenChar_range c h
  simp only [isWhitespace, Bool.or_eq_false_iff, Bool.and_eq_false_iff, decide_eq_false_iff_not,
    beq_eq_false_iff_ne]
  omega

/-- A character of operators or of a negation is in no token. -/
theorem isTokenChar_mark (h : c = '>' ∨ c = '<' ∨ c = '=' ∨ c = '!') : isTokenChar c = false := by
  rcases h with rfl | rfl | rfl | rfl <;> decide

theorem IsVariable.isToken {v : Text} (h : IsVariable v) : IsToken v := by
  rcases h.start with ⟨c, rest, rfl, hc, hrest⟩
  refine ⟨List.cons_ne_nil c rest, fun d hd => ?_⟩
  unfold isTokenChar
  rcases List.mem_cons.mp hd with rfl | hd
  · simp only [Bool.or_eq_true] at hc
    rcases hc with hc | hc
    · simp [Char.isAlphanum, hc]
    · simp [hc]
  · have hd' := List.all_eq_true.mp hrest d hd
    simp only [Bool.or_eq_true] at hd'
    rcases hd' with hd' | hd'
    · simp [hd']
    · simp [hd']

end

section

theorem isTokenChar_of_isDigit (c : Char) (h : c.isDigit = true) : isTokenChar c = true := by
  simp [isTokenChar, Char.isAlphanum, h]

/-- A letter is lowered to a letter, and only a letter is. -/
theorem isAlpha_of_toLower (c : Char) (h : c.toLower.isAlpha = true) : c.isAlpha = true := by
  by_cases hupper : c.val ≥ 'A'.val ∧ c.val ≤ 'Z'.val
  · have hletter : c.isUpper = true := decide_eq_true hupper
    have hshape : c.isAlpha = (c.isUpper || c.isLower) := rfl
    rw [hshape, hletter, Bool.true_or]
  · have hsame : c.toLower = c := dif_neg hupper
    rw [← hsame]
    exact h

variable (s : Text)

theorem takeSign_tokens (h : ∀ c ∈ (takeSign s).2, isTokenChar c = true) :
    ∀ c ∈ s, isTokenChar c = true := by
  unfold takeSign at h
  split at h
  · exact List.forall_mem_cons.mpr ⟨by decide, h⟩
  · exact List.forall_mem_cons.mpr ⟨by decide, h⟩
  · exact h

theorem parseExponent_tokens (e : ℤ) (h : parseExponent s = some e) :
    ∀ c ∈ s, isTokenChar c = true := by
  cases s with
  | nil => simp
  | cons c rest =>
      unfold parseExponent at h
      dsimp only at h
      by_cases hexp : (c = 'e' ∨ c = 'E') ∧ (takeSign rest).2 ≠ [] ∧
          (takeSign rest).2.all Char.isDigit = true
      · rcases hexp with ⟨hc, -, hdigits⟩
        refine List.forall_mem_cons.mpr ⟨?_, takeSign_tokens rest fun d hd => ?_⟩
        · rcases hc with rfl | rfl
          · decide
          · decide
        · exact isTokenChar_of_isDigit d (List.all_eq_true.mp hdigits d hd)
      · rw [if_neg hexp] at h
        cases h

theorem takeWhile_isDigit_tokens :
    ∀ c ∈ s.takeWhile Char.isDigit, isTokenChar c = true := fun c hc =>
  isTokenChar_of_isDigit c (List.mem_takeWhile_imp hc)

theorem parseNumber_tokens (q : ℚ) (h : parseNumber s = some q) :
    ∀ c ∈ s, isTokenChar c = true := by
  unfold parseNumber at h
  dsimp only at h
  split_ifs at h
  rcases Option.map_eq_some_iff.mp h with ⟨e, hexp, -⟩
  have hexponent := parseExponent_tokens _ e hexp
  intro c hc
  rw [← List.takeWhile_append_dropWhile (p := Char.isDigit) (l := s)] at hc
  rcases List.mem_append.mp hc with hc | hc
  · exact takeWhile_isDigit_tokens s c hc
  · -- Behind the digits comes a point with more digits, or the exponent at once.
    split at hexponent
    · rename_i more hmore
      rw [hmore] at hc
      rcases List.mem_cons.mp hc with rfl | hc
      · decide
      · rw [← List.takeWhile_append_dropWhile (p := Char.isDigit) (l := more)] at hc
        rcases List.mem_append.mp hc with hc | hc
        · exact takeWhile_isDigit_tokens more c hc
        · exact hexponent c hc
    · exact hexponent c hc

theorem parseMagnitude_tokens (x : F32) (h : parseMagnitude s = some x) :
    ∀ c ∈ s, isTokenChar c = true := by
  have hword : ∀ w : Text, w.all Char.isAlpha = true → s.map Char.toLower = w →
      ∀ c ∈ s, isTokenChar c = true := by
    intro w hw heq c hc
    have hlower := List.all_eq_true.mp hw c.toLower (heq ▸ List.mem_map_of_mem hc)
    have halpha := isAlpha_of_toLower c hlower
    simp [isTokenChar, Char.isAlphanum, halpha]
  unfold parseMagnitude at h
  dsimp only at h
  split_ifs at h with hinf hnan
  · -- The words for an infinity and for no number are letters, in any case.
    rcases hinf with hinf | hinf
    · exact hword _ (by decide) hinf
    · exact hword _ (by decide) hinf
  · exact hword _ (by decide) hnan
  · rcases Option.map_eq_some_iff.mp h with ⟨q, hq, -⟩
    exact parseNumber_tokens s q hq

/-- What reads as a number is a token, and no connective. -/
theorem isToken_of_parseF32 (x : F32) (h : parseF32 s = some x) :
    IsToken s ∧ s ≠ "or".toList ∧ s ≠ "and".toList := by
  -- A text that does not read as a number is not this one.
  have hnot : ∀ w : Text, parseF32 w = none → s ≠ w := by
    rintro w hw rfl
    rw [hw] at h
    cases h
  refine ⟨⟨hnot [] (by decide), ?_⟩, hnot _ (by decide), hnot _ (by decide)⟩
  rcases Option.map_eq_some_iff.mp h with ⟨y, hy, -⟩
  exact takeSign_tokens s (parseMagnitude_tokens _ y hy)

end

section

variable {s : Text}

theorem blank_of_isToken (h : IsToken s) : ' ' ∉ s := fun hmem =>
  absurd (h.2 ' ' hmem) (by decide)

theorem spelled_of_isToken {test : Text → Prop} (h : IsToken s) (htest : test s) :
    Spelled ' ' test s :=
  .word s h.1 (blank_of_isToken h) htest

theorem trim_of_isToken (h : IsToken s) : trim s = s := by
  have hspelled : Spelled ' ' (fun w => ∀ c ∈ w, isWhitespace c = false) s :=
    spelled_of_isToken h fun c hc => isWhitespace_of_isTokenChar c (h.2 c hc)
  exact trimBy_of_spelled isWhitespace hspelled

theorem hasOperator_of_isToken (h : IsToken s) : hasOperator s = false := by
  rw [hasOperator, List.any_eq_false]
  intro c hc hmark
  simp only [Bool.or_eq_true, beq_iff_eq] at hmark
  have hfalse := isTokenChar_mark c (by
    rcases hmark with (h | h) | h
    · exact .inl h
    · exact .inr (.inl h)
    · exact .inr (.inr (.inl h)))
  rw [h.2 c hc] at hfalse
  cases hfalse

variable (operator : CompareOp)

theorem blank_symbol : operator.symbol ≠ [] ∧ ' ' ∉ operator.symbol := by
  cases operator <;> decide

theorem symbol_injective (operator' : CompareOp) (h : operator.symbol = operator'.symbol) :
    operator = operator' := by
  revert h
  cases operator <;> cases operator' <;> decide

theorem isToken_ne_symbol (h : IsToken s) (operator : CompareOp) : s ≠ operator.symbol := by
  rintro rfl
  -- Every operator has a character that is in no token.
  have hmark : (operator.symbol.any fun c => !isTokenChar c) = true := by
    cases operator <;> decide
  rcases List.any_eq_true.mp hmark with ⟨c, hc, hfalse⟩
  rw [h.2 c hc] at hfalse
  exact absurd hfalse (by decide)

/-- A printed comparison is cut at its operator and at no other. -/
theorem splitOnce_symbol {v number : Text} (hv : IsToken v) (hnumber : IsToken number)
    (operator operator' : CompareOp) :
    splitOnce (blankWord ' ' operator'.symbol) (v ++ blankWord ' ' operator.symbol ++ number)
      = if operator = operator' then some (v, number) else none := by
  -- Only the operator between the two words can be the one that is looked for.
  have hv' : Spelled ' ' (· ≠ operator'.symbol) v :=
    spelled_of_isToken hv (isToken_ne_symbol hv operator')
  by_cases hsame : operator = operator'
  · rw [if_pos hsame, hsame]
    exact splitOnce_of_spelled number hv' (blank_symbol operator').2
  · rw [if_neg hsame]
    refine splitOnce_eq_none_of_spelled ?_ (blank_symbol operator').2
    exact hv'.join (blank_symbol operator).1 (blank_symbol operator).2
      (fun heq => hsame (symbol_injective operator operator' heq))
      (spelled_of_isToken hnumber (isToken_ne_symbol hnumber operator'))

/-- A comparison is cut at its own operator. -/
theorem parseOperators_printed {v number : Text} {value : F32} (hv : IsToken v)
    (hnumber : IsToken number) (hvalue : parseF32 number = some value) (operator : CompareOp) :
    parseOperators (v ++ blankWord ' ' operator.symbol ++ number)
      = .ok (.compare v operator value) := by
  -- The parser looks for one operator after the other, and only the printed one is there.
  have hge := splitOnce_symbol hv hnumber operator .greaterEqual
  have hle := splitOnce_symbol hv hnumber operator .lessEqual
  have hne := splitOnce_symbol hv hnumber operator .notEqual
  have heq := splitOnce_symbol hv hnumber operator .equal
  have hgt := splitOnce_symbol hv hnumber operator .greater
  have hlt := splitOnce_symbol hv hnumber operator .less
  change splitOnce " >= ".toList _ = _ at hge
  change splitOnce " <= ".toList _ = _ at hle
  change splitOnce " != ".toList _ = _ at hne
  change splitOnce " == ".toList _ = _ at heq
  change splitOnce " > ".toList _ = _ at hgt
  change splitOnce " < ".toList _ = _ at hlt
  have htrimv := trim_of_isToken hv
  have htrim := trim_of_isToken hnumber
  unfold parseOperators
  rw [hge, hle, hne, heq, hgt, hlt]
  cases operator <;>
    simp [parseComparison, parseStateComparison, htrimv, htrim, hvalue]

theorem hasOperator_printed (v number : Text) (operator : CompareOp) :
    hasOperator (v ++ blankWord ' ' operator.symbol ++ number) = true := by
  rw [hasOperator, List.any_append, List.any_append]
  cases operator <;> simp [CompareOp.symbol, blankWord]

/-- A word that is neither blank nor a connective. -/
def IsLeafWord (w : Text) : Prop :=
  (∀ c ∈ w, isWhitespace c = false) ∧ w ≠ "or".toList ∧ w ≠ "and".toList

theorem solid_of_all {w : Text} (h : (w.all fun c => !isWhitespace c) = true) :
    ∀ c ∈ w, isWhitespace c = false := by
  simpa using h

theorem isLeafWord_symbol : IsLeafWord operator.symbol := by
  refine ⟨solid_of_all ?_, ?_, ?_⟩ <;> cases operator <;> decide

theorem IsToken.isLeafWord (h : IsToken s) (hor : s ≠ "or".toList) (hand : s ≠ "and".toList) :
    IsLeafWord s :=
  ⟨fun c hc => isWhitespace_of_isTokenChar c (h.2 c hc), hor, hand⟩

/-- A printed leaf is words, none of them a connective. -/
theorem PrintsLeaf.spelled {c : Condition} (h : PrintsLeaf c s) : Spelled ' ' IsLeafWord s := by
  cases h with
  | boolean v hv =>
      exact spelled_of_isToken hv.isToken (hv.isToken.isLeafWord hv.ne_or hv.ne_and)
  | negated v hv =>
      -- The exclamation mark and its variable are one word.
      refine .word _ (List.cons_ne_nil _ _) ?_ ⟨?_, ?_, ?_⟩
      · rw [List.mem_cons, not_or]
        exact ⟨by decide, blank_of_isToken hv.isToken⟩
      · refine List.forall_mem_cons.mpr ⟨by decide, fun c hc => ?_⟩
        exact isWhitespace_of_isTokenChar c (hv.isToken.2 c hc)
      · intro heq
        exact absurd (List.cons.inj heq).1 (by decide)
      · intro heq
        exact absurd (List.cons.inj heq).1 (by decide)
  | compare v number operator value hv hnumber =>
      rcases isToken_of_parseF32 number value hnumber with ⟨htoken, hor, hand⟩
      exact (spelled_of_isToken hv.isToken (hv.isToken.isLeafWord hv.ne_or hv.ne_and)).join
        (blank_symbol operator).1 (blank_symbol operator).2 (isLeafWord_symbol operator)
        (spelled_of_isToken htoken (htoken.isLeafWord hor hand))

theorem parseLeaf_printed {c : Condition} (h : PrintsLeaf c s) : parseLeaf s = .ok c := by
  cases h with
  | boolean v hv =>
      rcases hv.start with ⟨d, rest, rfl, hd, -⟩
      unfold parseLeaf
      rw [hasOperator_of_isToken hv.isToken, if_neg Bool.false_ne_true]
      split
      · -- A variable does not start with an exclamation mark.
        rename_i heq
        rw [List.cons.injEq] at heq
        rw [heq.1] at hd
        exact absurd hd (by decide)
      · rfl
  | negated v hv =>
      -- An exclamation mark alone is not taken for an operator.
      have hno : hasOperator ('!' :: v) = false := by
        rw [hasOperator, List.any_cons, ← hasOperator, hasOperator_of_isToken hv.isToken]
        decide
      unfold parseLeaf
      rw [hno, if_neg Bool.false_ne_true]
      simp only [trim_of_isToken hv.isToken]
  | compare v number operator value hv hnumber =>
      unfold parseLeaf
      rw [hasOperator_printed, if_pos rfl]
      exact parseOperators_printed hv.isToken (isToken_of_parseF32 number value hnumber).1 hnumber
        operator

end

section

theorem orWord_eq : orWord = blankWord ' ' "or".toList := by decide

theorem andWord_eq : andWord = blankWord ' ' "and".toList := by decide

theorem trim_spelled {s : Text} (h : Spelled ' ' (fun w => ∀ c ∈ w, isWhitespace c = false) s) :
    trim s = s :=
  trimBy_of_spelled isWhitespace h

variable {P : Condition → Text → Prop}

theorem forall_mem_of_forall₂ {Q : Text → Prop} {conditions : List Condition} {texts : List Text}
    (h : List.Forall₂ P conditions texts) (himp : ∀ c s, P c s → Q s) : ∀ s ∈ texts, Q s := by
  induction h with
  | nil => simp
  | cons hhead _ ih => exact List.forall_mem_cons.mpr ⟨himp _ _ hhead, ih⟩

/-- Texts of at least two conditions are not no texts. -/
theorem ne_nil_of_forall₂ {conditions : List Condition} {texts : List Text}
    (h : List.Forall₂ P conditions texts) (hmany : 2 ≤ conditions.length) : texts ≠ [] := by
  rintro rfl
  rw [h.length_eq] at hmany
  simp at hmany

/-- A printed clause is words, none of them an `or`. -/
theorem PrintsClause.spelled {c : Condition} {s : Text} (h : PrintsClause c s) :
    Spelled ' ' (fun w => (∀ c ∈ w, isWhitespace c = false) ∧ w ≠ "or".toList) s := by
  cases h with
  | leaf c s h => exact h.spelled.mono fun w hw => ⟨hw.1, hw.2.1⟩
  | and conditions texts hmany h =>
      rw [andWord_eq]
      have hand : (∀ c ∈ "and".toList, isWhitespace c = false) ∧ "and".toList ≠ "or".toList :=
        ⟨solid_of_all (by decide), by decide⟩
      exact spelled_intercalate _ texts (ne_nil_of_forall₂ h hmany) (by decide) (by decide) hand
        (forall_mem_of_forall₂ h fun _ _ hleaf =>
          hleaf.spelled.mono fun w hw => ⟨hw.1, hw.2.1⟩)

/-- Texts that are each read back are read back one after the other. -/
theorem mapM_printed (fuel : Nat) (conditions : List Condition) (texts : List Text)
    (h : List.Forall₂ P conditions texts)
    (hparse : ∀ c s, P c s → trim s = s ∧ parseFuel fuel s = .ok c) :
    (texts.mapM fun part => parseFuel fuel (trim part)) = .ok conditions := by
  induction h with
  | nil => rfl
  | cons hhead _ ih =>
      rcases hparse _ _ hhead with ⟨htrim, hok⟩
      rw [List.mapM_cons, htrim, hok, ih]
      rfl

theorem parseFuel_leaf {c : Condition} {s : Text} (h : PrintsLeaf c s) (fuel : Nat) :
    trim s = s ∧ parseFuel (fuel + 1) s = .ok c := by
  have htrim := trim_spelled (h.spelled.mono fun w hw => hw.1)
  -- No connective is among the words, so neither split finds one.
  have hor : splitAll orWord s = [s] := by
    rw [orWord_eq]
    exact splitAll_of_spelled (h.spelled.mono fun w hw => hw.2.1) (by decide)
  have hand : splitAll andWord s = [s] := by
    rw [andWord_eq]
    exact splitAll_of_spelled (h.spelled.mono fun w hw => hw.2.2) (by decide)
  refine ⟨htrim, ?_⟩
  rw [parseFuel]
  simp only [htrim, h.spelled.ne_nil, if_false, hor, hand, List.length_singleton, lt_irrefl]
  exact parseLeaf_printed h

theorem parseFuel_clause {c : Condition} {s : Text} (h : PrintsClause c s) (fuel : Nat) :
    trim s = s ∧ parseFuel (fuel + 2) s = .ok c := by
  have htrim := trim_spelled (h.spelled.mono fun w hw => hw.1)
  have hne := h.spelled.ne_nil
  -- No `or` is among the words of a clause, so the search for `and` comes next.
  have hor : splitAll orWord s = [s] := by
    rw [orWord_eq]
    exact splitAll_of_spelled (h.spelled.mono fun w hw => hw.2) (by decide)
  refine ⟨htrim, ?_⟩
  cases h with
  | leaf c s h => exact (parseFuel_leaf h (fuel + 1)).2
  | and conditions texts hmany h =>
      have hlength := h.length_eq
      have hand : splitAll andWord (andWord.intercalate texts) = texts := by
        rw [andWord_eq]
        exact splitAll_intercalate _ texts (ne_nil_of_forall₂ h hmany) (by decide)
          (forall_mem_of_forall₂ h fun _ _ hleaf => hleaf.spelled.mono fun w hw => hw.2.2)
      rw [parseFuel]
      simp only [htrim, hne, if_false, hor, List.length_singleton, lt_irrefl, hand]
      rw [if_pos (by omega), mapM_printed (fuel + 1) conditions texts h
        fun c s hleaf => parseFuel_leaf hleaf fuel]
      rfl

end

/-- Every flat condition over variables and numbers, however it is printed, is read back. -/
theorem parseCondition_prints (c : Condition) (s : Text) (h : Prints c s) :
    parseCondition s = .ok c := by
  -- More fuel than the length of the text is as good as that.
  have hfuel : parseCondition s = parseFuel (s.length + 3) s :=
    parseFuel_eq _ _ s (by omega) (by omega)
  rw [hfuel]
  cases h with
  | clause c s h => exact (parseFuel_clause h (s.length + 1)).2
  | or conditions texts hmany h =>
      have hlength := h.length_eq
      have hspelled : Spelled ' ' (fun w => ∀ c ∈ w, isWhitespace c = false)
          (orWord.intercalate texts) := by
        rw [orWord_eq]
        exact spelled_intercalate _ texts (ne_nil_of_forall₂ h hmany) (by decide) (by decide)
          (solid_of_all (by decide)) (forall_mem_of_forall₂ h fun _ _ hclause =>
            hclause.spelled.mono fun w hw => hw.1)
      -- The first split takes the disjunction apart where it was put together.
      have hor : splitAll orWord (orWord.intercalate texts) = texts := by
        rw [orWord_eq]
        exact splitAll_intercalate _ texts (ne_nil_of_forall₂ h hmany) (by decide)
          (forall_mem_of_forall₂ h fun _ _ hclause => hclause.spelled.mono fun w hw => hw.2)
      rw [parseFuel]
      simp only [trim_spelled hspelled, hspelled.ne_nil, if_false, hor]
      rw [if_pos (by omega), mapM_printed _ conditions texts h
        fun c s hclause => parseFuel_clause hclause (orWord.intercalate texts).length]
      rfl

/-- `gear_down and ias >= 1.5e2 or !flaps`, read back. -/
theorem parseCondition_prints_example :
    parseCondition "gear_down and ias >= 1.5e2 or !flaps".toList =
      .ok (.or [.and [.boolean "gear_down".toList false,
        .compare "ias".toList .greaterEqual (.fin 150)], .boolean "flaps".toList true]) := by
  have hgear : IsVariable "gear_down".toList := ⟨⟨'g', _, rfl, by decide, by decide⟩,
    by decide, by decide⟩
  have hias : IsVariable "ias".toList := ⟨⟨'i', _, rfl, by decide, by decide⟩,
    by decide, by decide⟩
  have hflaps : IsVariable "flaps".toList := ⟨⟨'f', _, rfl, by decide, by decide⟩,
    by decide, by decide⟩
  have hnumber : parseF32 "1.5e2".toList = some (.fin 150) := by decide +kernel
  exact parseCondition_prints _ _ (.or _ [_, _] (by decide)
    (.cons (.and _ [_, _] (by decide) (.cons (.boolean _ hgear)
      (.cons (.compare _ _ .greaterEqual _ hias hnumber) .nil)))
      (.cons (.leaf _ _ (.negated _ hflaps)) .nil)))

end OpenFlight.Rules
