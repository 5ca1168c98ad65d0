import OpenFlight.Lib.JsonLexer

/-!
# Reading JSON

The values of JSON, and which text is read as which of them.

A value is written with brackets, commas, colons and literals in one way, `Value.tokens`,
and the tokens of a value end where the value does. So a text is read as a value if its
tokens are those of the value, and it is read as one value at most.

Members of an object may have the same key. They are all kept, and the last one is the
field.

## Main definitions

* `Json.Value`, `Json.Value.tokens`: Values, and how they are written.

## Theorems

* `Json.tokens_append_inj`: Where the tokens of a value end.
-/

namespace OpenFlight.Json

inductive Value
  | null
  | bool (b : Bool)
  | number (text : List Char)
  | string (s : List Char)
  | array (items : List Value)
  | object (members : List (List Char × Value))

mutual

/-- The tokens that a value is written with. -/
def Value.tokens : Value → List Token
  | .null => [.null]
  | .bool b => [.bool b]
  | .number text => [.number text]
  | .string s => [.string s]
  | .array [] => [.openArray, .closeArray]
  | .array (v :: rest) => .openArray :: (v.tokens ++ tokensOfItems rest)
  | .object [] => [.openObject, .closeObject]
  | .object ((key, v) :: rest) =>
      .openObject :: .string key :: .colon :: (v.tokens ++ tokensOfMembers rest)

/-- The items after the first one, and the end of the array. -/
def tokensOfItems : List Value → List Token
  | [] => [.closeArray]
  | v :: rest => .comma :: (v.tokens ++ tokensOfItems rest)

/-- The members after the first one, and the end of the object. -/
def tokensOfMembers : List (List Char × Value) → List Token
  | [] => [.closeObject]
  | (key, v) :: rest => .comma :: .string key :: .colon :: (v.tokens ++ tokensOfMembers rest)

end

/-- The field of an object; of several members with the key it is the last one. -/
def Value.field (key : List Char) : Value → Option Value
  | .object members => members.reverse.lookup key
  | _ => none

/-- The text is read as the value. -/
def Reads (text : List Char) (v : Value) : Prop :=
  lex text = some v.tokens

/-- No value starts with the end of an array. -/
theorem tokens_ne_closeArray (v : Value) (rest rest' : List Token) :
    v.tokens ++ rest ≠ .closeArray :: rest' := by
  intro h
  cases v with
  | array items => cases items <;> cases h
  | object members => cases members <;> cases h
  | _ => cases h

mutual

/-- The tokens of a value end where the value does. -/
theorem tokens_append_inj (v w : Value) (rest rest' : List Token)
    (h : v.tokens ++ rest = w.tokens ++ rest') : v = w ∧ rest = rest' := by
  cases v with
  | array items =>
      rcases items with _ | ⟨v, items⟩
      all_goals
        rcases w with _ | _ | _ | _ | (_ | ⟨w, items'⟩) | (_ | _)
        all_goals
          simp only [Value.tokens, List.cons_append, List.nil_append, List.append_assoc,
            List.cons.injEq, reduceCtorEq, false_and, true_and] at h
      · exact ⟨rfl, h⟩
      · exact absurd h.symm (tokens_ne_closeArray w _ _)
      · exact absurd h (tokens_ne_closeArray v _ _)
      · rcases tokens_append_inj v w _ _ h with ⟨rfl, htail⟩
        rcases items_append_inj items items' _ _ htail with ⟨rfl, hrest⟩
        exact ⟨rfl, hrest⟩
  | object members =>
      rcases members with _ | ⟨⟨name, v⟩, members⟩
      all_goals
        rcases w with _ | _ | _ | _ | (_ | _) | (_ | ⟨⟨name', w⟩, members'⟩)
        all_goals
          simp only [Value.tokens, List.cons_append, List.nil_append, List.append_assoc,
            List.cons.injEq, Token.string.injEq, reduceCtorEq, false_and, true_and] at h
      · exact ⟨rfl, h⟩
      · rcases tokens_append_inj v w _ _ h.2 with ⟨rfl, htail⟩
        rcases members_append_inj members members' _ _ htail with ⟨rfl, hrest⟩
        exact ⟨by rw [h.1], hrest⟩
  | _ =>
      rcases w with _ | _ | _ | _ | (_ | _) | (_ | _) <;> cases h
      exact ⟨rfl, rfl⟩

theorem items_append_inj (items items' : List Value) (rest rest' : List Token)
    (h : tokensOfItems items ++ rest = tokensOfItems items' ++ rest') :
    items = items' ∧ rest = rest' := by
  rcases items with _ | ⟨v, items⟩ <;> rcases items' with _ | ⟨w, items'⟩
  all_goals
    simp only [tokensOfItems, List.cons_append, List.nil_append, List.append_assoc,
      List.cons.injEq, reduceCtorEq, false_and, true_and] at h
  · exact ⟨rfl, h⟩
  · rcases tokens_append_inj v w _ _ h with ⟨rfl, htail⟩
    rcases items_append_inj items items' _ _ htail with ⟨rfl, hrest⟩
    exact ⟨rfl, hrest⟩

theorem members_append_inj (members members' : List (List Char × Value)) (rest rest' : List Token)
    (h : tokensOfMembers members ++ rest = tokensOfMembers members' ++ rest') :
    members = members' ∧ rest = rest' := by
  rcases members with _ | ⟨⟨name, v⟩, members⟩ <;> rcases members' with _ | ⟨⟨name', w⟩, members'⟩
  all_goals
    simp only [tokensOfMembers, List.cons_append, List.nil_append, List.append_assoc,
      List.cons.injEq, Token.string.injEq, reduceCtorEq, false_and, true_and] at h
  · exact ⟨rfl, h⟩
  · rcases tokens_append_inj v w _ _ h.2 with ⟨rfl, htail⟩
    rcases members_append_inj members members' _ _ htail with ⟨rfl, hrest⟩
    exact ⟨by rw [h.1], hrest⟩

end

/-- A text is read as one value at most. -/
theorem reads_unique {text : List Char} {v w : Value} (hv : Reads text v) (hw : Reads text w) :
    v = w := by
  have htokens : v.tokens = w.tokens := Option.some.inj (hv.symm.trans hw)
  exact (tokens_append_inj v w [] [] (by rw [htokens])).1

section

/-- A string stands behind a name and a colon. -/
def Named (tokens : List Token) (name s : List Char) : Prop :=
  [.string name, .colon, .string s] <:+: tokens

variable {v : Value}

theorem infix_tokensOfItems {items : List Value} (h : v ∈ items) :
    v.tokens <:+: tokensOfItems items := by
  induction items with
  | nil => exact absurd h List.not_mem_nil
  | cons w items ih =>
      rw [tokensOfItems]
      refine List.infix_cons ?_
      rcases List.mem_cons.mp h with rfl | hmem
      · exact List.infix_append_left
      · exact List.infix_append_of_infix_right (ih hmem)

theorem infix_array {items : List Value} (h : v ∈ items) :
    v.tokens <:+: (Value.array items).tokens := by
  cases items with
  | nil => exact absurd h List.not_mem_nil
  | cons w items =>
      rw [Value.tokens]
      refine List.infix_cons ?_
      rcases List.mem_cons.mp h with rfl | hmem
      · exact List.infix_append_left
      · exact List.infix_append_of_infix_right (infix_tokensOfItems hmem)

theorem infix_member (name : List Char) (v : Value) (rest : List Token) :
    Token.string name :: .colon :: v.tokens <:+: .string name :: .colon :: (v.tokens ++ rest) :=
  ⟨[], rest, rfl⟩

variable {name : List Char}

theorem infix_tokensOfMembers {members : List (List Char × Value)} (h : (name, v) ∈ members) :
    Token.string name :: .colon :: v.tokens <:+: tokensOfMembers members := by
  induction members with
  | nil => exact absurd h List.not_mem_nil
  | cons m members ih =>
      rcases m with ⟨k, w⟩
      rw [tokensOfMembers]
      refine List.infix_cons ?_
      rcases List.mem_cons.mp h with heq | hmem
      · rw [Prod.mk.injEq] at heq
        rw [heq.1, heq.2]
        exact infix_member k w _
      · exact List.infix_cons (List.infix_cons (List.infix_append_of_infix_right (ih hmem)))

theorem infix_object {members : List (List Char × Value)} (h : (name, v) ∈ members) :
    Token.string name :: .colon :: v.tokens <:+: (Value.object members).tokens := by
  cases members with
  | nil => exact absurd h List.not_mem_nil
  | cons m members =>
      rcases m with ⟨k, w⟩
      rw [Value.tokens]
      refine List.infix_cons ?_
      rcases List.mem_cons.mp h with heq | hmem
      · rw [Prod.mk.injEq] at heq
        rw [heq.1, heq.2]
        exact infix_member k w _
      · refine List.infix_cons (List.infix_cons ?_)
        exact List.infix_append_of_infix_right (infix_tokensOfMembers hmem)

/-- A field stands in the tokens behind its name. -/
theorem named_of_field {s : List Char} (h : v.field name = some (.string s)) :
    Named v.tokens name s := by
  cases v with
  | object members =>
      rcases List.lookup_eq_some_iff.mp h with ⟨later, earlier, hsplit, -⟩
      have hmem : (name, Value.string s) ∈ members.reverse := by
        rw [hsplit]
        exact List.mem_append_right later List.mem_cons_self
      exact infix_object (List.mem_reverse.mp hmem)
  | _ => cases h

/-- The last token of a suffix. -/
theorem eq_of_suffix_concat {tokens : List Token} {a b c t : Token}
    (h : [a, b, c] <:+ tokens ++ [t]) : c = t ∧ [a, b] <:+ tokens := by
  rcases List.suffix_concat_iff.mp h with hnil | ⟨front, hfront, hsuffix⟩
  · cases hnil
  · have hlast : [a, b] ++ [c] = front ++ [t] := hfront
    rcases List.append_inj' hlast rfl with ⟨rfl, hc⟩
    exact ⟨List.head_eq_of_cons_eq hc, hsuffix⟩

/-- A string that stands behind a name in two parts stands there in the first one, or
    it is in the second one. -/
theorem named_append {first second : List Token} {s : List Char}
    (h : Named (first ++ second) name s) : Named first name s ∨ .string s ∈ second := by
  induction second using List.reverseRecOn with
  | nil => exact Or.inl (by rwa [List.append_nil] at h)
  | append_singleton second t ih =>
      rw [Named, ← List.append_assoc] at h
      rcases List.infix_concat_iff.mp h with hsuffix | hinfix
      · rw [(eq_of_suffix_concat hsuffix).1]
        exact Or.inr (List.mem_append_right _ List.mem_cons_self)
      · exact (ih hinfix).imp_right (List.mem_append_left _)

/-- A member is behind its own name. -/
theorem named_member {tokens : List Token} {member s : List Char} {t : Token}
    (h : Named (tokens ++ [.string member, .colon, t]) name s) :
    Named tokens name s ∨ name = member ∨ s = member := by
  have hsplit : tokens ++ [.string member, .colon, t] =
      (tokens ++ [.string member, .colon]) ++ [t] := by
    rw [List.append_assoc]
    rfl
  rw [Named, hsplit] at h
  rcases List.infix_concat_iff.mp h with hsuffix | hinfix
  · have hfront := (eq_of_suffix_concat hsuffix).2
    have hname : [Token.string name, .colon] = [.string member, .colon] :=
      (List.suffix_or_suffix_of_suffix hfront (List.suffix_append tokens _)).elim
        (fun hs => hs.eq_of_length rfl) fun hs => (hs.eq_of_length rfl).symm
    rw [List.cons.injEq, Token.string.injEq] at hname
    exact Or.inr (Or.inl hname.1)
  · rcases named_append hinfix with hfirst | hmem
    · exact Or.inl hfirst
    · simp only [List.mem_cons, Token.string.injEq, List.not_mem_nil, reduceCtorEq,
        or_false] at hmem
      exact Or.inr (Or.inr hmem)

end

end OpenFlight.Json
