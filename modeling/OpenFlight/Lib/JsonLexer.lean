import Mathlib.Algebra.GroupWithZero.Nat
import OpenFlight.Lib.Json

/-!
# The Tokens of JSON

Cutting a JSON text into brackets, separators, literals, numbers and strings.

The lexer goes through the text one character at a time, and `lexFrom` says in which
mode it comes out and which tokens it has seen on the way. So the parts of a text can be
read one after the other. A word is what stands between two characters that no literal
and no number has in it, and it has to be one of them as a whole. In a string a
backslash starts an escape, a control character is refused, and four digits after `\u`
are a character or, two such escapes together, a character outside of the first plane.

A character of a string is written with one character or with more, and a quote, a
backslash and a control character are never written with one. So a string that has one
of them takes more room in a text than its characters.

## Main definitions

* `Json.Token`, `Json.LexMode`: What is seen, and where the lexer is.
* `Json.lexChar`, `Json.lexFrom`, `Json.lex`: One character, a part, and a whole text.

## Theorems

* `Json.writtenLength_le`: No string is longer than what it was read from.
* `Json.inside_of_separator`: A separator of members that are strings stands behind
  a string.
-/

namespace OpenFlight.Json

inductive Token
  | openArray
  | closeArray
  | openObject
  | closeObject
  | comma
  | colon
  | null
  | bool (b : Bool)
  | number (text : List Char)
  | string (s : List Char)

/-- Outside of words and strings, in one of them, or in an escape. -/
inductive LexMode
  | outside
  | word (text : List Char)
  | inside (s : List Char)
  | escape (s : List Char)
  | digits (s : List Char) (high : Option Nat) (value left : Nat)
  | pair (s : List Char) (high : Nat)
  | pairEscape (s : List Char) (high : Nat)

def readsDigits (s : List Char) : Bool :=
  s ≠ [] && s.all Char.isDigit

/-- An exponent, or nothing. -/
def readsExponent : List Char → Bool
  | [] => true
  | e :: rest =>
      (e = 'e' || e = 'E') &&
        readsDigits (if rest.head? = some '+' ∨ rest.head? = some '-' then rest.tail else rest)

/-- A fraction, or none, and what may come after it. -/
def readsFraction : List Char → Bool
  | [] => true
  | c :: rest =>
      if c = '.' then
        readsDigits (rest.takeWhile Char.isDigit) && readsExponent (rest.dropWhile Char.isDigit)
      else readsExponent (c :: rest)

/-- An integer without leading zeros, and what may come after it. -/
def readsInteger (s : List Char) : Bool :=
  readsDigits (s.takeWhile Char.isDigit) &&
    (s.head? ≠ some '0' || s.takeWhile Char.isDigit = ['0']) &&
    readsFraction (s.dropWhile Char.isDigit)

/-- The whole word is a number. -/
def readsNumber (s : List Char) : Bool :=
  readsInteger (if s.head? = some '-' then s.tail else s)

theorem readsNumber_toDigits (n : Nat) : readsNumber (Nat.toDigits 10 n) = true := by
  have hdigits : ∀ c ∈ Nat.toDigits 10 n, c.isDigit = true :=
    fun c hc => Nat.isDigit_of_mem_toDigits (by omega) (by omega) hc
  have hsign : (Nat.toDigits 10 n).head? ≠ some '-' := by
    intro h
    exact absurd (hdigits _ (List.mem_of_head? h)) (by decide)
  have hzero := toDigits_eq_zero n
  have hnone : (Nat.toDigits 10 n).dropWhile Char.isDigit = [] :=
    List.dropWhile_eq_nil_iff.mpr hdigits
  have hall : (Nat.toDigits 10 n).takeWhile Char.isDigit = Nat.toDigits 10 n :=
    List.takeWhile_eq_self_iff.mpr hdigits
  rw [readsNumber, if_neg hsign, readsInteger, hall, hnone]
  simp only [readsDigits, List.all_eq_true.mpr hdigits, readsFraction, Bool.and_true,
    Bool.and_eq_true, Bool.or_eq_true, decide_eq_true_eq]
  exact ⟨Nat.toDigits_ne_nil, or_iff_not_imp_left.mpr fun h => hzero (not_not.mp h)⟩

/-- A character that literals and numbers have in them. -/
def isWordChar (c : Char) : Bool :=
  c.isAlphanum || c = '-' || c = '+' || c = '.'

def punctuation (c : Char) : Option Token :=
  if c = '[' then some .openArray
  else if c = ']' then some .closeArray
  else if c = '{' then some .openObject
  else if c = '}' then some .closeObject
  else if c = ',' then some .comma
  else if c = ':' then some .colon
  else none

def readWord (text : List Char) : Option Token :=
  if text = "null".toList then some .null
  else if text = "true".toList then some (.bool true)
  else if text = "false".toList then some (.bool false)
  else if readsNumber text then some (.number text)
  else none

/-- A character where a token may start. -/
def startToken (c : Char) : Option (LexMode × List Token) :=
  if isSpace c then some (.outside, [])
  else if c = '"' then some (.inside [], [])
  else if isWordChar c then some (.word [c], [])
  else (punctuation c).map fun t => (.outside, [t])

def isHighSurrogate (unit : Nat) : Bool :=
  0xD800 ≤ unit && unit < 0xDC00

def isLowSurrogate (unit : Nat) : Bool :=
  0xDC00 ≤ unit && unit < 0xE000

/-- The four digits of an escape have been read. A surrogate has to come with its other half. -/
def codeUnit (s : List Char) (high : Option Nat) (unit : Nat) : Option LexMode :=
  match high with
  | none =>
      if isHighSurrogate unit then some (.pair s unit)
      else if isLowSurrogate unit then none
      else some (.inside (s ++ [Char.ofNat unit]))
  | some h =>
      if isLowSurrogate unit then
        some (.inside (s ++ [Char.ofNat (0x10000 + (h - 0xD800) * 0x400 + (unit - 0xDC00))]))
      else none

def lexChar : LexMode → Char → Option (LexMode × List Token)
  | .outside, c => startToken c
  | .word text, c =>
      if isWordChar c then some (.word (text ++ [c]), [])
      else
        (readWord text).bind fun t => (startToken c).map fun r => (r.1, t :: r.2)
  | .inside s, c =>
      if c = '"' then some (.outside, [.string s])
      else if c = '\\' then some (.escape s, [])
      else if c.toNat < 0x20 then none
      else some (.inside (s ++ [c]), [])
  | .escape s, c =>
      if c = 'u' then some (.digits s none 0 3, [])
      else (unescapeChar c).map fun d => (.inside (s ++ [d]), [])
  | .digits s high value left, c =>
      (hexValue c).bind fun n =>
        match left with
        | 0 => (codeUnit s high (value * 16 + n)).map fun m => (m, [])
        | left + 1 => some (.digits s high (value * 16 + n) left, [])
  | .pair s high, c => if c = '\\' then some (.pairEscape s high, []) else none
  | .pairEscape s high, c => if c = 'u' then some (.digits s (some high) 0 3, []) else none

/-- The mode after a part of a text, and the tokens that end in it. -/
def lexFrom : LexMode → List Char → Option (LexMode × List Token)
  | m, [] => some (m, [])
  | m, c :: rest =>
      (lexChar m c).bind fun r => (lexFrom r.1 rest).map fun q => (q.1, r.2 ++ q.2)

/-- The end of a text, which ends a word. -/
def finish : LexMode → Option (List Token)
  | .outside => some []
  | .word text => (readWord text).map fun t => [t]
  | _ => none

def lex (text : List Char) : Option (List Token) :=
  (lexFrom .outside text).bind fun r => (finish r.1).map fun last => r.2 ++ last

section

/-- A part of a text is read. -/
def Lexes (m : LexMode) (text : List Char) (m' : LexMode) (tokens : List Token) : Prop :=
  lexFrom m text = some (m', tokens)

variable {tokens : List Token} {m m' : LexMode}

theorem lexes_nil_iff : Lexes m [] m' tokens ↔ m' = m ∧ tokens = [] := by
  simp only [Lexes, lexFrom, Option.some.injEq, Prod.mk.injEq, eq_comm]

theorem lexes_cons_iff {c : Char} {rest : List Char} :
    Lexes m (c :: rest) m' tokens ↔ ∃ m1 first later, lexChar m c = some (m1, first) ∧
      Lexes m1 rest m' later ∧ tokens = first ++ later := by
  simp only [Lexes, lexFrom, Option.bind_eq_some_iff, Option.map_eq_some_iff, Prod.exists,
    Prod.mk.injEq]
  constructor
  · rintro ⟨m1, first, hchar, m2, later, hrest, rfl, rfl⟩
    exact ⟨m1, first, later, hchar, hrest, rfl⟩
  · rintro ⟨m1, first, later, hchar, hrest, rfl⟩
    exact ⟨m1, first, hchar, m', later, hrest, rfl, rfl⟩

variable {second first : List Char}

/-- The parts of a text. -/
theorem lexes_append_iff :
    Lexes m (first ++ second) m' tokens ↔ ∃ m1 before after, Lexes m first m1 before ∧
      Lexes m1 second m' after ∧ tokens = before ++ after := by
  induction first generalizing m tokens with
  | nil =>
      constructor
      · intro h
        exact ⟨m, [], tokens, lexes_nil_iff.mpr ⟨rfl, rfl⟩, h, rfl⟩
      · rintro ⟨m1, before, after, hfirst, hsecond, rfl⟩
        rcases lexes_nil_iff.mp hfirst with ⟨rfl, rfl⟩
        exact hsecond
  | cons c first ih =>
      rw [List.cons_append, lexes_cons_iff]
      constructor
      · rintro ⟨m1, here, later, hchar, hrest, rfl⟩
        rcases ih.mp hrest with ⟨m2, before, after, hfirst, hsecond, rfl⟩
        refine ⟨m2, here ++ before, after, ?_, hsecond, (List.append_assoc _ _ _).symm⟩
        exact lexes_cons_iff.mpr ⟨m1, here, before, hchar, hfirst, rfl⟩
      · rintro ⟨m2, before, after, hfirst, hsecond, rfl⟩
        rcases lexes_cons_iff.mp hfirst with ⟨m1, here, later, hchar, hrest, rfl⟩
        refine ⟨m1, here, later ++ after, hchar, ?_, List.append_assoc _ _ _⟩
        exact ih.mpr ⟨m2, later, after, hrest, hsecond, rfl⟩

theorem Lexes.append {m1 : LexMode} {before after : List Token} (hfirst : Lexes m first m1 before)
    (hsecond : Lexes m1 second m' after) : Lexes m (first ++ second) m' (before ++ after) :=
  lexes_append_iff.mpr ⟨m1, before, after, hfirst, hsecond, rfl⟩

theorem Lexes.unique {m1 m2 : LexMode} {text : List Char} {first second : List Token}
    (h1 : Lexes m text m1 first) (h2 : Lexes m text m2 second) : m1 = m2 ∧ first = second := by
  have heq := h1.symm.trans h2
  rw [Option.some.injEq, Prod.mk.injEq] at heq
  exact heq

/-- A part that is known is taken off the front. -/
theorem Lexes.of_append {m1 : LexMode} {before : List Token} (hfirst : Lexes m first m1 before)
    (h : Lexes m (first ++ second) m' tokens) :
    ∃ after, Lexes m1 second m' after ∧ tokens = before ++ after := by
  rcases lexes_append_iff.mp h with ⟨m2, other, after, hother, hsecond, rfl⟩
  rcases hfirst.unique hother with ⟨rfl, rfl⟩
  exact ⟨after, hsecond, rfl⟩

theorem lex_eq_some_iff {text : List Char} :
    lex text = some tokens ↔ ∃ m seen last, Lexes .outside text m seen ∧
      finish m = some last ∧ tokens = seen ++ last := by
  simp only [lex, Lexes, Option.bind_eq_some_iff, Option.map_eq_some_iff, Prod.exists]
  constructor
  · rintro ⟨m, seen, hseen, last, hlast, rfl⟩
    exact ⟨m, seen, last, hseen, hlast, rfl⟩
  · rintro ⟨m, seen, last, hseen, hlast, rfl⟩
    exact ⟨m, seen, hseen, last, hlast, rfl⟩

end

section

/-- A character that is written as it is. -/
def isVerbatim (c : Char) : Bool :=
  c ≠ '"' && c ≠ '\\' && 0x20 ≤ c.toNat

/-- A string that is written as it is. -/
def Verbatim (s : List Char) : Prop :=
  ∀ c ∈ s, isVerbatim c = true

instance decidableVerbatim (s : List Char) : Decidable (Verbatim s) :=
  List.decidableBAll _ s

theorem lexChar_inside {c : Char} (hc : isVerbatim c = true) (s : List Char) :
    lexChar (.inside s) c = some (.inside (s ++ [c]), []) := by
  simp only [isVerbatim, Bool.and_eq_true, decide_eq_true_eq] at hc
  rw [lexChar, if_neg hc.1.1, if_neg hc.1.2, if_neg (by omega)]

/-- A string that is written as it is. -/
theorem lexes_inside {body : List Char} (h : Verbatim body) (s : List Char) :
    Lexes (.inside s) body (.inside (s ++ body)) [] := by
  induction body generalizing s with
  | nil => exact lexes_nil_iff.mpr ⟨by rw [List.append_nil], rfl⟩
  | cons c body ih =>
      rw [Verbatim, List.forall_mem_cons] at h
      have hrest := ih h.2 (s ++ [c])
      rw [List.append_assoc, List.singleton_append] at hrest
      exact lexes_cons_iff.mpr ⟨_, [], [], lexChar_inside h.1 s, hrest, rfl⟩

theorem lexes_close (s : List Char) : Lexes (.inside s) ['"'] .outside [.string s] :=
  rfl

/-- A string that is written as it is, with its quotes. -/
theorem lexes_quoted {body : List Char} (h : Verbatim body) :
    Lexes .outside (quoted body) .outside [.string body] := by
  have hopen : Lexes .outside ['"'] (.inside []) [] := rfl
  exact hopen.append ((lexes_inside h []).append (lexes_close body))

/-- The characters that a character of a string takes at least. -/
def writtenChar (c : Char) : Nat :=
  if isVerbatim c then 1 else 2

/-- The characters that a string takes at least between its quotes. -/
def writtenLength (s : List Char) : Nat :=
  (s.map writtenChar).sum

theorem writtenChar_le (c : Char) : writtenChar c ≤ 2 := by
  unfold writtenChar
  split_ifs <;> omega

theorem writtenLength_concat (s : List Char) (c : Char) :
    writtenLength (s ++ [c]) = writtenLength s + writtenChar c := by
  simp only [writtenLength, List.map_append, List.sum_append, List.map_cons, List.map_nil,
    List.sum_singleton]

theorem length_le_writtenLength (s : List Char) : s.length ≤ writtenLength s := by
  induction s with
  | nil => exact Nat.le_refl 0
  | cons c s ih =>
      have hc : 1 ≤ writtenChar c := by
        unfold writtenChar
        split_ifs <;> omega
      simp only [writtenLength, List.map_cons, List.sum_cons, List.length_cons] at ih ⊢
      omega

/-- A string that is not written as it is takes more room than it has characters. -/
theorem length_lt_writtenLength {s : List Char} (h : ¬ Verbatim s) :
    s.length < writtenLength s := by
  induction s with
  | nil => exact absurd (fun c hc => absurd hc List.not_mem_nil) h
  | cons c s ih =>
      rw [Verbatim, List.forall_mem_cons, not_and_or] at h
      have hrest := length_le_writtenLength s
      simp only [writtenLength, writtenChar, List.map_cons, List.sum_cons,
        List.length_cons] at ih hrest ⊢
      by_cases hc : isVerbatim c = true
      · rw [if_pos hc]
        have hlt := ih (h.resolve_left fun hnot => hnot hc)
        omega
      · rw [if_neg hc]
        omega

/-- The characters that have been read of the string that the lexer is in, at least. -/
def LexMode.written : LexMode → Nat
  | .outside => 0
  | .word _ => 0
  | .inside s => writtenLength s
  | .escape s => writtenLength s + 1
  | .digits s _ _ _ => writtenLength s + 2
  | .pair s _ => writtenLength s + 2
  | .pairEscape s _ => writtenLength s + 2

theorem not_string_of_readWord {text : List Char} {t : Token} (h : readWord text = some t)
    (s : List Char) : t ≠ .string s := by
  rintro rfl
  unfold readWord at h
  split_ifs at h <;> cases h

variable {tokens : List Token} {m : LexMode}

theorem startToken_eq_some {c : Char} (h : startToken c = some (m, tokens)) :
    m.written = 0 ∧ ∀ s, Token.string s ∉ tokens := by
  unfold startToken punctuation at h
  split_ifs at h
  all_goals
    simp only [Option.map_some, Option.map_none, Option.some.injEq, Prod.mk.injEq,
      reduceCtorEq] at h
    try
      rcases h with ⟨rfl, rfl⟩
      exact ⟨rfl, by simp⟩

theorem codeUnit_written {s : List Char} {high : Option Nat} {unit : Nat}
    (h : codeUnit s high unit = some m) : m.written ≤ writtenLength s + 2 := by
  have hchar : ∀ c, (LexMode.inside (s ++ [c])).written ≤ writtenLength s + 2 := by
    intro c
    rw [LexMode.written, writtenLength_concat]
    exact Nat.add_le_add_left (writtenChar_le c) _
  cases high with
  | none =>
      simp only [codeUnit] at h
      split_ifs at h
      · rw [← Option.some.inj h]
        exact Nat.le_refl _
      · rw [← Option.some.inj h]
        exact hchar _
  | some high =>
      simp only [codeUnit] at h
      split_ifs at h
      rw [← Option.some.inj h]
      exact hchar _

/-- What one character adds to a string is at least the room that it takes. -/
theorem lexChar_written {m' : LexMode} {c : Char} (h : lexChar m c = some (m', tokens)) :
    m'.written ≤ m.written + 1 ∧ ∀ s, Token.string s ∈ tokens → writtenLength s ≤ m.written := by
  cases m with
  | outside =>
      rcases startToken_eq_some h with ⟨hm, htokens⟩
      exact ⟨by omega, fun s hs => absurd hs (htokens s)⟩
  | word text =>
      simp only [lexChar] at h
      split_ifs at h
      · cases h
        exact ⟨Nat.zero_le _, fun s hs => absurd hs List.not_mem_nil⟩
      · simp only [Option.bind_eq_some_iff, Option.map_eq_some_iff, Prod.exists,
          Prod.mk.injEq] at h
        rcases h with ⟨t, ht, m1, seen, hstart, rfl, rfl⟩
        rcases startToken_eq_some hstart with ⟨hm, htokens⟩
        refine ⟨by omega, fun s hs => ?_⟩
        rcases List.mem_cons.mp hs with heq | hmem
        · exact absurd heq.symm (not_string_of_readWord ht s)
        · exact absurd hmem (htokens s)
  | inside s =>
      by_cases hc : isVerbatim c = true
      · rw [lexChar_inside hc] at h
        cases h
        rw [LexMode.written, LexMode.written, writtenLength_concat, writtenChar, if_pos hc]
        exact ⟨Nat.le_refl _, fun s hs => absurd hs List.not_mem_nil⟩
      · simp only [lexChar] at h
        split_ifs at h with hquote hslash hcontrol
        · cases h
          refine ⟨Nat.zero_le _, fun t ht => ?_⟩
          rw [List.mem_singleton, Token.string.injEq] at ht
          rw [ht]
          exact Nat.le_refl _
        · cases h
          exact ⟨Nat.le_refl _, fun s hs => absurd hs List.not_mem_nil⟩
        · refine absurd ?_ hc
          simp only [isVerbatim, Bool.and_eq_true, decide_eq_true_eq]
          exact ⟨⟨hquote, hslash⟩, by omega⟩
  | escape s =>
      simp only [lexChar] at h
      split_ifs at h
      · cases h
        exact ⟨Nat.le_refl _, fun s hs => absurd hs List.not_mem_nil⟩
      · simp only [Option.map_eq_some_iff, Prod.mk.injEq] at h
        rcases h with ⟨d, -, rfl, rfl⟩
        rw [LexMode.written, LexMode.written, writtenLength_concat]
        have hd := writtenChar_le d
        exact ⟨by omega, fun s hs => absurd hs List.not_mem_nil⟩
  | digits s high value left =>
      simp only [lexChar, Option.bind_eq_some_iff] at h
      rcases h with ⟨n, -, h⟩
      cases left with
      | zero =>
          simp only [Option.map_eq_some_iff, Prod.mk.injEq] at h
          rcases h with ⟨m1, hunit, rfl, rfl⟩
          have hm := codeUnit_written hunit
          exact ⟨Nat.le_succ_of_le hm, fun s hs => absurd hs List.not_mem_nil⟩
      | succ left =>
          cases h
          exact ⟨Nat.le_succ _, fun s hs => absurd hs List.not_mem_nil⟩
  | pair s high =>
      simp only [lexChar] at h
      split_ifs at h
      cases h
      exact ⟨Nat.le_succ _, fun s hs => absurd hs List.not_mem_nil⟩
  | pairEscape s high =>
      simp only [lexChar] at h
      split_ifs at h
      cases h
      exact ⟨Nat.le_succ _, fun s hs => absurd hs List.not_mem_nil⟩

/-- Strings that are read from a part of a text, and the one that the lexer is in after
    it, have their room in it. -/
theorem writtenLength_le {m' : LexMode} {text : List Char} (h : Lexes m text m' tokens) :
    m'.written ≤ m.written + text.length ∧
      ∀ s, Token.string s ∈ tokens → writtenLength s ≤ m.written + text.length := by
  induction text generalizing m tokens with
  | nil =>
      rcases lexes_nil_iff.mp h with ⟨rfl, rfl⟩
      exact ⟨Nat.le_refl _, fun s hs => absurd hs List.not_mem_nil⟩
  | cons c text ih =>
      rcases lexes_cons_iff.mp h with ⟨m1, first, later, hchar, hrest, rfl⟩
      rcases lexChar_written hchar with ⟨hm, hfirst⟩
      rcases ih hrest with ⟨hm', hlater⟩
      rw [List.length_cons]
      refine ⟨by omega, fun s hs => ?_⟩
      rcases List.mem_append.mp hs with hs | hs
      · have hle := hfirst s hs
        omega
      · have hle := hlater s hs
        omega

end

theorem lexes_word {text : List Char} (h : ∀ c ∈ text, isWordChar c = true) (start : List Char) :
    Lexes (.word start) text (.word (start ++ text)) [] := by
  induction text generalizing start with
  | nil => exact lexes_nil_iff.mpr ⟨by rw [List.append_nil], rfl⟩
  | cons c text ih =>
      rw [List.forall_mem_cons] at h
      have hrest := ih h.2 (start ++ [c])
      rw [List.append_assoc, List.singleton_append] at hrest
      exact lexes_cons_iff.mpr ⟨_, [], [], by rw [lexChar, if_pos h.1], hrest, rfl⟩

theorem startToken_of_isWordChar {c : Char} (h : isWordChar c = true) :
    startToken c = some (.word [c], []) := by
  have hspace : isSpace c = false := by
    by_contra hnot
    rw [Bool.not_eq_false] at hnot
    simp only [isSpace, Bool.or_eq_true, decide_eq_true_eq] at hnot
    rcases hnot with ((rfl | rfl) | rfl) | rfl <;> exact absurd h (by decide)
  have hquote : c ≠ '"' := by
    rintro rfl
    exact absurd h (by decide)
  rw [startToken, hspace, if_neg Bool.false_ne_true, if_neg hquote, if_pos h]

theorem lexes_word_start {text : List Char} (hne : text ≠ [])
    (h : ∀ c ∈ text, isWordChar c = true) : Lexes .outside text (.word text) [] := by
  cases text with
  | nil => exact absurd rfl hne
  | cons c text =>
      rw [List.forall_mem_cons] at h
      exact lexes_cons_iff.mpr ⟨_, [], [], startToken_of_isWordChar h.1, lexes_word h.2 [c], rfl⟩

theorem readWord_number {text : List Char} (h : readsNumber text = true) :
    readWord text = some (.number text) := by
  have hother : ∀ word : List Char, readsNumber word = false → text ≠ word := by
    rintro word hword rfl
    exact absurd h (by simp [hword])
  rw [readWord, if_neg (hother _ (by decide)), if_neg (hother _ (by decide)),
    if_neg (hother _ (by decide)), if_pos h]

/-- A natural number with a comma behind it. -/
theorem lexes_natural (n : Nat) :
    Lexes .outside (Nat.toDigits 10 n ++ [',']) .outside [.number (Nat.toDigits 10 n), .comma] := by
  have hword : ∀ c ∈ Nat.toDigits 10 n, isWordChar c = true := by
    intro c hc
    have hdigit : c.isDigit = true := Nat.isDigit_of_mem_toDigits (by omega) (by omega) hc
    simp only [isWordChar, Char.isAlphanum, hdigit, Bool.or_true, Bool.true_or]
  have hend : Lexes (.word (Nat.toDigits 10 n)) [','] .outside
      [.number (Nat.toDigits 10 n), .comma] := by
    refine lexes_cons_iff.mpr ⟨.outside, [.number (Nat.toDigits 10 n), .comma], [], ?_,
      lexes_nil_iff.mpr ⟨rfl, rfl⟩, rfl⟩
    rw [lexChar, if_neg (by decide), readWord_number (readsNumber_toDigits n)]
    rfl
  exact (lexes_word_start Nat.toDigits_ne_nil hword).append hend

/-- A name of a member that could not stand there without its quotes. -/
def IsName (name : List Char) : Prop :=
  name ≠ [] ∧ (∀ c ∈ name, isWordChar c = true) ∧ readWord name = none

/-- What stands between two members that are strings. -/
def separator (name : List Char) : List Char :=
  '"' :: ',' :: quoted name

theorem not_lexes_name {name : List Char} (hname : IsName name) (m : LexMode)
    (tokens : List Token) : ¬ Lexes .outside (name ++ ['"']) m tokens := by
  intro h
  rcases (lexes_word_start hname.1 hname.2.1).of_append h with ⟨after, hquote, -⟩
  rcases lexes_cons_iff.mp hquote with ⟨m1, first, later, hchar, -, -⟩
  have hend : isWordChar '"' = false := rfl
  rw [lexChar, hend, if_neg Bool.false_ne_true, hname.2.2] at hchar
  cases hchar

/-- If the first quote did not close a string, then the second one would, and the name
    would be a word. -/
theorem inside_of_separator {name : List Char} (hname : IsName name) {m m' : LexMode}
    {tokens : List Token} (h : Lexes m (separator name) m' tokens) : ∃ s, m = .inside s := by
  have hinside : ∀ s tokens, ¬ Lexes (.inside s) (',' :: quoted name) m' tokens := by
    intro s tokens h
    have hfront : Lexes (.inside s) [',', '"'] .outside [.string (s ++ [','])] := rfl
    rcases hfront.of_append h with ⟨after, hrest, -⟩
    exact not_lexes_name hname m' after hrest
  rcases lexes_cons_iff.mp h with ⟨m1, first, later, hchar, hrest, -⟩
  cases m with
  | inside s => exact ⟨s, rfl⟩
  | outside =>
      cases hchar
      exact absurd hrest (hinside _ _)
  | word text =>
      have hend : isWordChar '"' = false := rfl
      rw [lexChar, hend, if_neg Bool.false_ne_true, Option.bind_eq_some_iff] at hchar
      rcases hchar with ⟨t, -, hchar⟩
      cases hchar
      exact absurd hrest (hinside _ _)
  | escape s =>
      cases hchar
      exact absurd hrest (hinside _ _)
  | digits s high value left => cases hchar
  | pair s high => cases hchar
  | pairEscape s high => cases hchar

/-- What is seen of a separator behind a string. -/
theorem lexes_separator {name : List Char} (hname : Verbatim name) (s : List Char) :
    Lexes (.inside s) (separator name) .outside [.string s, .comma, .string name] := by
  have hfront : Lexes (.inside s) ['"', ','] .outside [.string s, .comma] := rfl
  exact hfront.append (lexes_quoted hname)

end OpenFlight.Json
