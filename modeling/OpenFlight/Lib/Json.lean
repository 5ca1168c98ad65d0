import OpenFlight.Lib.Run
import Mathlib.Data.List.Infix
import Mathlib.Data.List.TakeWhile

/-!
# The Texts of JSON

The grammar of JSON texts, and what a scanner of brackets and strings says about a
text that is cut off.

`Json.Text` is the grammar as the standard has it, with white space around every
value. The scanner counts the brackets that are open and knows whether it is in a
string. It comes back to where it started at the end of every text, and it never
closes a bracket that it has not seen opened. In an object it is inside the outer
bracket from the first character on until the last, so no start of an object is a
text of its own.

## Main definitions

* `Json.Chars`, `Json.IsNumber`, `Json.Text`: The grammar.
* `Json.Balanced`: What the scanner sees of a whole text.
* `Json.escapeChar`, `Json.readChars`: Strings as they are written and read.

## Theorems

* `Json.object_of_text`: What is inside an object is balanced too.
* `Json.not_text_of_cut`, `Json.not_text_append`: An object that is cut off is no text,
  and two of them are not.
* `Json.readChars_escaped`: A string that is written is read back.
-/

namespace OpenFlight.Json

def isSpace (c : Char) : Bool :=
  c = ' ' || c = '\t' || c = '\n' || c = '\r'

def isHexDigit (c : Char) : Bool :=
  c.isDigit || ('a' ≤ c && c ≤ 'f') || ('A' ≤ c && c ≤ 'F')

/-- The characters that a backslash may stand before, apart from the four digits. -/
def isEscapable (c : Char) : Bool :=
  c = '"' || c = '\\' || c = '/' || c = 'b' || c = 'f' || c = 'n' || c = 'r' || c = 't'

/-- What stands between the quotes of a string. -/
inductive Chars : List Char → Prop
  | nil : Chars []
  | plain (c : Char) (rest : List Char) : c ≠ '"' → c ≠ '\\' → 0x20 ≤ c.toNat → Chars rest →
      Chars (c :: rest)
  | escape (c : Char) (rest : List Char) : isEscapable c = true → Chars rest →
      Chars ('\\' :: c :: rest)
  | unicode (digits rest : List Char) : digits.length = 4 → (∀ d ∈ digits, isHexDigit d = true) →
      Chars rest → Chars ('\\' :: 'u' :: (digits ++ rest))

def quoted (body : List Char) : List Char :=
  '"' :: (body ++ ['"'])

def IsDigits (s : List Char) : Prop :=
  s ≠ [] ∧ ∀ c ∈ s, c.isDigit = true

/-- A number: a sign, an integer without leading zeros, a fraction and an exponent. -/
def IsNumber (s : List Char) : Prop :=
  ∃ sign int frac exp, s = sign ++ (int ++ (frac ++ exp)) ∧
    (sign = [] ∨ sign = ['-']) ∧
    (IsDigits int ∧ (int.head? = some '0' → int = ['0'])) ∧
    (frac = [] ∨ ∃ digits, frac = '.' :: digits ∧ IsDigits digits) ∧
    (exp = [] ∨ ∃ e sign digits, exp = e :: (sign ++ digits) ∧ (e = 'e' ∨ e = 'E') ∧
      (sign = [] ∨ sign = ['+'] ∨ sign = ['-']) ∧ IsDigits digits)

/-- A JSON text: a value with white space around it. -/
inductive Text : List Char → Prop
  | spaceBefore (c : Char) (s : List Char) : isSpace c = true → Text s → Text (c :: s)
  | spaceAfter (c : Char) (s : List Char) : isSpace c = true → Text s → Text (s ++ [c])
  | null : Text "null".toList
  | bool (b : Bool) : Text (toString b).toList
  | number (s : List Char) : IsNumber s → Text s
  | string (body : List Char) : Chars body → Text (quoted body)
  | emptyArray (space : List Char) : (∀ c ∈ space, isSpace c = true) →
      Text ('[' :: (space ++ [']']))
  | array (items : List (List Char)) : (∀ item ∈ items, Text item) →
      Text ('[' :: ([','].intercalate items ++ [']']))
  | emptyObject (space : List Char) : (∀ c ∈ space, isSpace c = true) →
      Text ('{' :: (space ++ ['}']))
  | object (members : List (List Char × List Char)) :
      (∀ m ∈ members, ∃ before body after, m.1 = before ++ (quoted body ++ after) ∧
        Chars body ∧ ∀ c ∈ before ++ after, isSpace c = true) →
      (∀ m ∈ members, Text m.2) →
      Text ('{' :: ([','].intercalate (members.map fun m => m.1 ++ ':' :: m.2) ++ ['}']))

/-- An object without white space around its names. -/
theorem Text.fields (fields : List (List Char × List Char))
    (h : ∀ f ∈ fields, Chars f.1 ∧ Text f.2) :
    Text ('{' :: ([','].intercalate (fields.map fun f => quoted f.1 ++ ':' :: f.2) ++ ['}'])) := by
  have hmembers : (fields.map fun f => quoted f.1 ++ ':' :: f.2) =
      (fields.map fun f => (quoted f.1, f.2)).map fun m => m.1 ++ ':' :: m.2 := by
    rw [List.map_map]
    rfl
  rw [hmembers]
  refine .object _ (List.forall_mem_map.mpr fun f hf => ?_)
    (List.forall_mem_map.mpr fun f hf => (h f hf).2)
  exact ⟨[], f.1, [], (List.append_nil _).symm, (h f hf).1, by simp⟩

section

/-- Outside of strings, in one, or after a backslash in one. -/
inductive Mode
  | outside
  | inside
  | escaped

/-- How many brackets are open, and where the scanner is. -/
structure Scan where
  depth : Nat
  mode : Mode

def isOpening (c : Char) : Bool :=
  c = '[' || c = '{'

def isClosing (c : Char) : Bool :=
  c = ']' || c = '}'

/-- The scanner. -/
def scanStep (s : Scan) (c : Char) : Scan :=
  match s.mode with
  | .outside =>
      if c = '"' then { s with mode := .inside }
      else if isOpening c then { s with depth := s.depth + 1 }
      else if isClosing c then { s with depth := s.depth - 1 }
      else s
  | .inside =>
      if c = '"' then { s with mode := .outside }
      else if c = '\\' then { s with mode := .escaped }
      else s
  | .escaped => { s with mode := .inside }

/-- The scanner comes back to where it was, and closes nothing that it was in before. -/
def Balanced (s : List Char) : Prop :=
  ∀ depth, run scanStep ⟨depth, .outside⟩ s = ⟨depth, .outside⟩ ∧
    Always scanStep (fun t => depth ≤ t.depth) ⟨depth, .outside⟩ s

/-- A character that the scanner passes over outside of strings. -/
def isPlain (c : Char) : Bool :=
  c ≠ '"' && !isOpening c && !isClosing c

theorem scanStep_plain {c : Char} (h : isPlain c = true) (depth : Nat) :
    scanStep ⟨depth, .outside⟩ c = ⟨depth, .outside⟩ := by
  simp only [isPlain, Bool.and_eq_true, Bool.not_eq_true', decide_eq_true_eq] at h
  simp only [scanStep, h.1.1, h.1.2, h.2, if_false, Bool.false_eq_true]

theorem balanced_nil : Balanced [] :=
  fun _ => ⟨rfl, le_refl _⟩

variable {s : List Char}

theorem balanced_append {t : List Char} (hs : Balanced s) (ht : Balanced t) :
    Balanced (s ++ t) := by
  intro depth
  rw [run_append, always_append, (hs depth).1]
  exact ⟨(ht depth).1, (hs depth).2, (ht depth).2⟩

theorem balanced_cons_of_plain {c : Char} (hc : isPlain c = true) (hs : Balanced s) :
    Balanced (c :: s) := by
  intro depth
  rw [run_cons, Always, scanStep_plain hc]
  exact ⟨(hs depth).1, le_refl _, (hs depth).2⟩

theorem balanced_of_plain (h : ∀ c ∈ s, isPlain c = true) : Balanced s := by
  induction s with
  | nil => exact balanced_nil
  | cons c rest ih =>
      rw [List.forall_mem_cons] at h
      exact balanced_cons_of_plain h.1 (ih h.2)

theorem scanStep_inside {c : Char} (hquote : c ≠ '"') (hslash : c ≠ '\\') (depth : Nat) :
    scanStep ⟨depth, .inside⟩ c = ⟨depth, .inside⟩ := by
  simp only [scanStep, hquote, hslash, if_false]

/-- What the scanner reads in a string without coming out of it. -/
def StaysInside (s : List Char) : Prop :=
  ∀ depth, run scanStep ⟨depth, .inside⟩ s = ⟨depth, .inside⟩ ∧
    Always scanStep (fun t => depth ≤ t.depth) ⟨depth, .inside⟩ s

theorem staysInside_cons {c : Char} (hquote : c ≠ '"') (hslash : c ≠ '\\') (hs : StaysInside s) :
    StaysInside (c :: s) := by
  intro depth
  rw [run_cons, Always, scanStep_inside hquote hslash]
  exact ⟨(hs depth).1, le_refl _, (hs depth).2⟩

theorem staysInside_escape (c : Char) (hs : StaysInside s) : StaysInside ('\\' :: c :: s) := by
  intro depth
  have hslash : scanStep ⟨depth, .inside⟩ '\\' = ⟨depth, .escaped⟩ := rfl
  have hnext : scanStep ⟨depth, .escaped⟩ c = ⟨depth, .inside⟩ := rfl
  rw [run_cons, run_cons, Always, Always, hslash, hnext]
  exact ⟨(hs depth).1, le_refl _, le_refl _, (hs depth).2⟩

theorem staysInside_of_chars {body : List Char} (h : Chars body) : StaysInside body := by
  induction h with
  | nil => exact fun _ => ⟨rfl, le_refl _⟩
  | plain c rest hquote hslash _ _ ih => exact staysInside_cons hquote hslash ih
  | escape c rest _ _ ih => exact staysInside_escape c ih
  | unicode digits rest _ hdigits _ ih =>
      refine staysInside_escape 'u' ?_
      clear * - hdigits ih
      induction digits with
      | nil => exact ih
      | cons d digits ihd =>
          rw [List.forall_mem_cons] at hdigits
          refine staysInside_cons ?_ ?_ (ihd hdigits.2)
          all_goals
            rintro rfl
            exact absurd hdigits.1 (by decide)

theorem balanced_quoted {body : List Char} (h : Chars body) : Balanced (quoted body) := by
  intro depth
  have hbody := staysInside_of_chars h depth
  have hopen : scanStep ⟨depth, .outside⟩ '"' = ⟨depth, .inside⟩ := rfl
  rw [quoted, run_cons, Always, hopen, run_append, always_append, hbody.1]
  exact ⟨rfl, le_refl _, hbody.2, le_refl _, le_refl _⟩

theorem balanced_brackets {opening closing : Char} {body : List Char}
    (hopening : isOpening opening = true) (hclosing : isClosing closing = true)
    (h : Balanced body) : Balanced (opening :: (body ++ [closing])) := by
  intro depth
  have hbody := h (depth + 1)
  have hopen : scanStep ⟨depth, .outside⟩ opening = ⟨depth + 1, .outside⟩ := by
    have hquote : opening ≠ '"' := by
      rintro rfl
      exact absurd hopening (by decide)
    simp only [scanStep, hquote, hopening, if_false, if_true]
  have hclose : scanStep ⟨depth + 1, .outside⟩ closing = ⟨depth, .outside⟩ := by
    have hquote : closing ≠ '"' := by
      rintro rfl
      exact absurd hclosing (by decide)
    have hother : isOpening closing = false := by
      simp only [isClosing, Bool.or_eq_true, decide_eq_true_eq] at hclosing
      rcases hclosing with rfl | rfl <;> decide
    simp only [scanStep, hquote, hother, hclosing, if_false, if_true, Bool.false_eq_true,
      Nat.add_sub_cancel]
  rw [run_cons, Always, hopen, run_append, always_append, hbody.1, run_cons, Always, hclose]
  refine ⟨rfl, le_refl _, always_mono _ _ _ (fun t ht => ?_) _ _ hbody.2, ?_, le_refl _⟩
  · exact Nat.le_of_succ_le ht
  · exact Nat.le_succ depth

theorem balanced_intercalate (items : List (List Char)) (h : ∀ item ∈ items, Balanced item) :
    Balanced ([','].intercalate items) := by
  induction items with
  | nil => exact balanced_nil
  | cons item rest ih =>
      rw [List.forall_mem_cons] at h
      cases rest with
      | nil =>
          rw [List.intercalate_singleton]
          exact h.1
      | cons next rest =>
          rw [List.intercalate_cons_cons]
          refine balanced_append (balanced_append h.1 ?_) (ih h.2)
          exact balanced_of_plain (List.all_eq_true.mp (by decide))

end

theorem isPlain_of_isSpace (c : Char) (h : isSpace c = true) : isPlain c = true := by
  simp only [isSpace, Bool.or_eq_true, decide_eq_true_eq] at h
  rcases h with ((rfl | rfl) | rfl) | rfl <;> decide

theorem isPlain_of_isDigit (c : Char) (h : c.isDigit = true) : isPlain c = true := by
  unfold isPlain isOpening isClosing
  simp only [ne_eq, Bool.and_eq_true, Bool.not_eq_true', Bool.or_eq_false_iff,
    decide_eq_true_eq, decide_eq_false_iff_not]
  refine ⟨⟨?_, ?_, ?_⟩, ?_, ?_⟩
  all_goals
    rintro rfl
    exact absurd h (by decide)

/-- A number has no brackets and no quotes. -/
theorem isPlain_of_isNumber {s : List Char} (h : IsNumber s) : ∀ c ∈ s, isPlain c = true := by
  have hdigits : ∀ digits, IsDigits digits → ∀ c ∈ digits, isPlain c = true :=
    fun digits hd c hc => isPlain_of_isDigit c (hd.2 c hc)
  rcases h with ⟨sign, int, frac, exp, rfl, hsign, hint, hfrac, hexp⟩
  simp only [List.forall_mem_append]
  refine ⟨?_, hdigits int hint.1, ?_, ?_⟩
  · rcases hsign with rfl | rfl <;> exact List.all_eq_true.mp (by decide)
  · rcases hfrac with rfl | ⟨digits, rfl, hd⟩
    · exact fun c hc => absurd hc List.not_mem_nil
    · exact List.forall_mem_cons.mpr ⟨by decide, hdigits digits hd⟩
  · rcases hexp with rfl | ⟨e, esign, digits, rfl, he, hesign, hd⟩
    · exact fun c hc => absurd hc List.not_mem_nil
    · rw [List.forall_mem_cons, List.forall_mem_append]
      refine ⟨?_, ?_, hdigits digits hd⟩
      · rcases he with rfl | rfl <;> decide
      · rcases hesign with rfl | rfl | rfl <;> exact List.all_eq_true.mp (by decide)

theorem balanced_of_space {s : List Char} (h : ∀ c ∈ s, isSpace c = true) : Balanced s :=
  balanced_of_plain fun c hc => isPlain_of_isSpace c (h c hc)

/-- What is between the brackets of an object. -/
theorem balanced_members (members : List (List Char × List Char))
    (hkeys : ∀ m ∈ members, ∃ before body after, m.1 = before ++ (quoted body ++ after) ∧
      Chars body ∧ ∀ c ∈ before ++ after, isSpace c = true)
    (hvalues : ∀ m ∈ members, Balanced m.2) :
    Balanced ([','].intercalate (members.map fun m => m.1 ++ ':' :: m.2)) := by
  refine balanced_intercalate _ fun item hitem => ?_
  rcases List.mem_map.mp hitem with ⟨m, hm, rfl⟩
  rcases hkeys m hm with ⟨before, body, after, hkey, hbody, hspace⟩
  rw [List.forall_mem_append] at hspace
  rw [hkey]
  refine balanced_append ?_ (balanced_cons_of_plain (by decide) (hvalues m hm))
  exact balanced_append (balanced_of_space hspace.1)
    (balanced_append (balanced_quoted hbody) (balanced_of_space hspace.2))

/-- Every text is balanced. -/
theorem balanced_of_text {s : List Char} (h : Text s) : Balanced s := by
  induction h with
  | spaceBefore c s hc _ ih => exact balanced_cons_of_plain (isPlain_of_isSpace c hc) ih
  | spaceAfter c s hc _ ih =>
      exact balanced_append ih (balanced_cons_of_plain (isPlain_of_isSpace c hc) balanced_nil)
  | null => exact balanced_of_plain (List.all_eq_true.mp (by decide))
  | bool b => cases b <;> exact balanced_of_plain (List.all_eq_true.mp (by decide))
  | number s hs => exact balanced_of_plain (isPlain_of_isNumber hs)
  | string body hbody => exact balanced_quoted hbody
  | emptyArray space hspace => exact balanced_brackets rfl rfl (balanced_of_space hspace)
  | array items _ ih => exact balanced_brackets rfl rfl (balanced_intercalate items ih)
  | emptyObject space hspace => exact balanced_brackets rfl rfl (balanced_of_space hspace)
  | object members hkeys _ ih => exact balanced_brackets rfl rfl (balanced_members members hkeys ih)

/-- A text that starts and ends with the brackets of an object is one. -/
theorem object_of_text {s : List Char} (h : Text s) (hhead : s.head? = some '{')
    (hlast : s.getLast? = some '}') : ∃ body, s = '{' :: (body ++ ['}']) ∧ Balanced body := by
  have hplain : ∀ t : List Char, (∀ c ∈ t, isPlain c = true) → t.head? ≠ some '{' := by
    intro t ht hopen
    exact absurd (ht _ (List.mem_of_head? hopen)) (by decide)
  cases h with
  | spaceBefore c s hc _ =>
      rw [List.head?_cons, Option.some.injEq] at hhead
      rw [hhead] at hc
      exact absurd hc (by decide)
  | spaceAfter c s hc _ =>
      rw [List.getLast?_concat, Option.some.injEq] at hlast
      rw [hlast] at hc
      exact absurd hc (by decide)
  | null => exact absurd hhead (by decide)
  | bool b => cases b <;> exact absurd hhead (by decide)
  | number s hs => exact absurd hhead (hplain s (isPlain_of_isNumber hs))
  | string body _ => exact absurd hhead (by simp [quoted])
  | emptyArray space _ => exact absurd hhead (by simp)
  | array items _ => exact absurd hhead (by simp)
  | emptyObject space hspace => exact ⟨space, rfl, balanced_of_space hspace⟩
  | object members hkeys hvalues =>
      exact ⟨_, rfl, balanced_members members hkeys fun m hm => balanced_of_text (hvalues m hm)⟩

/-- An object that is cut off is no text, whatever is made of a character that the cut
    goes through. -/
theorem not_text_of_cut {body cut tail : List Char} (hbody : Balanced body)
    (hcut : cut <+: '{' :: (body ++ ['}'])) (hsome : cut ≠ [])
    (hne : cut ≠ '{' :: (body ++ ['}']))
    (htail : ∀ c ∈ tail, isOpening c = false ∧ isClosing c = false) : ¬ Text (cut ++ tail) := by
  intro htext
  have hend := (balanced_of_text htext 0).1
  obtain ⟨rest, rfl, hrest⟩ := (List.prefix_cons_iff.mp hcut).resolve_left hsome
  have hinside : rest <+: body := by
    refine (List.prefix_concat_iff.mp hrest).resolve_left fun heq => hne ?_
    rw [heq]
  rcases hinside with ⟨after, rfl⟩
  have hopen : scanStep ⟨0, .outside⟩ '{' = ⟨1, .outside⟩ := rfl
  rw [run_append, run_cons, hopen] at hend
  have hdepth : 1 ≤ (run scanStep ⟨1, .outside⟩ rest).depth :=
    (always_iff_states _ _ _ _).mp (hbody 1).2 rest after rfl
  -- The tail opens and closes nothing.
  have hkeep : ∀ s : Scan, (run scanStep s tail).depth = s.depth := by
    clear * - htail
    induction tail with
    | nil => exact fun _ => rfl
    | cons c tail ih =>
        intro s
        rw [List.forall_mem_cons] at htail
        rw [run_cons, ih htail.2]
        rcases s with ⟨depth, mode⟩
        cases mode with
        | outside =>
            simp only [scanStep, htail.1, if_false, Bool.false_eq_true]
            split_ifs <;> rfl
        | inside =>
            simp only [scanStep]
            split_ifs <;> rfl
        | escaped => rfl
  rw [← hkeep, hend] at hdepth
  exact absurd hdepth (by decide)

/-- Two objects one after the other are no text. -/
theorem not_text_append {s t : List Char} (hs : Text s) (hopens : s.head? = some '{')
    (hcloses : s.getLast? = some '}') (hlast : t.getLast? = some '}') : ¬ Text (s ++ t) := by
  intro htext
  rcases object_of_text hs hopens hcloses with ⟨inner, hinner, hbalanced⟩
  have hne : t ≠ [] := by
    rintro rfl
    cases hlast
  have hhead : (s ++ t).head? = some '{' := by
    rw [hinner]
    rfl
  have hend : (s ++ t).getLast? = some '}' := by
    rw [List.getLast?_append, hlast, Option.some_or]
  rcases object_of_text htext hhead hend with ⟨body, hbody, hbalanced'⟩
  -- Inside of the whole the first object is closed, and with it the whole.
  have hclosed : inner ++ ['}'] <+: body := by
    rw [hinner, List.cons_append, List.cons.injEq] at hbody
    have hprefix : inner ++ ['}'] <+: body ++ ['}'] := ⟨t, hbody.2⟩
    refine (List.prefix_concat_iff.mp hprefix).resolve_left fun heq => hne ?_
    have hrest := hbody.2
    rw [← heq] at hrest
    exact List.append_cancel_left (hrest.trans (List.append_nil _).symm)
  rcases hclosed with ⟨after, rfl⟩
  have hdepth : 1 ≤ (run scanStep ⟨1, .outside⟩ (inner ++ ['}'])).depth :=
    (always_iff_states _ _ _ _).mp (hbalanced' 1).2 (inner ++ ['}']) after rfl
  rw [run_append, (hbalanced 1).1] at hdepth
  exact absurd hdepth (by decide)

/-- A character in a string; control characters without an escape of their own are written
    with four digits. -/
def escapeChar (c : Char) : List Char :=
  if c = '"' then ['\\', '"']
  else if c = '\\' then ['\\', '\\']
  else if c = '\x08' then ['\\', 'b']
  else if c = '\x0C' then ['\\', 'f']
  else if c = '\n' then ['\\', 'n']
  else if c = '\r' then ['\\', 'r']
  else if c = '\t' then ['\\', 't']
  else if c.toNat < 0x20 then
    ['\\', 'u', '0', '0', Nat.digitChar (c.toNat / 16), Nat.digitChar (c.toNat % 16)]
  else [c]

/-- A string as it is written. -/
def escaped (s : List Char) : List Char :=
  s.flatMap escapeChar

/-- The character that an escape of one character stands for. -/
def unescapeChar (c : Char) : Option Char :=
  if c = '"' ∨ c = '\\' ∨ c = '/' then some c
  else if c = 'b' then some '\x08'
  else if c = 'f' then some '\x0C'
  else if c = 'n' then some '\n'
  else if c = 'r' then some '\r'
  else if c = 't' then some '\t'
  else none

def hexValue (c : Char) : Option Nat :=
  if c.isDigit then some (c.toNat - 48)
  else if 'a' ≤ c ∧ c ≤ 'f' then some (c.toNat - 87)
  else if 'A' ≤ c ∧ c ≤ 'F' then some (c.toNat - 55)
  else none

/-- Where a reader of a string is: after a backslash, or in the digits after one. -/
inductive Reading
  | plain
  | escape
  | hex (value left : Nat)

def consChar (c : Char) (read : Option (List Char × List Char)) : Option (List Char × List Char) :=
  read.map fun r => (c :: r.1, r.2)

/-- The string up to the closing quote, and what stands after it. -/
def readChars : Reading → List Char → Option (List Char × List Char)
  | _, [] => none
  | .plain, c :: rest =>
      if c = '"' then some ([], rest)
      else if c = '\\' then readChars .escape rest
      else consChar c (readChars .plain rest)
  | .escape, c :: rest =>
      if c = 'u' then readChars (.hex 0 3) rest
      else
        match unescapeChar c with
        | none => none
        | some d => consChar d (readChars .plain rest)
  | .hex value left, c :: rest =>
      match hexValue c with
      | none => none
      | some n =>
          match left with
          | 0 => consChar (Char.ofNat (value * 16 + n)) (readChars .plain rest)
          | left + 1 => readChars (.hex (value * 16 + n) left) rest

theorem hexValue_digitChar : ∀ n < 16, hexValue (Nat.digitChar n) = some n := by
  decide

theorem isHexDigit_digitChar : ∀ n < 16, isHexDigit (Nat.digitChar n) = true := by
  decide

theorem chars_escapeChar (c : Char) (rest : List Char) (h : Chars rest) :
    Chars (escapeChar c ++ rest) := by
  unfold escapeChar
  split_ifs with hquote hslash hb hf hn hr ht hcontrol
  · exact .escape '"' rest rfl h
  · exact .escape '\\' rest rfl h
  · exact .escape 'b' rest rfl h
  · exact .escape 'f' rest rfl h
  · exact .escape 'n' rest rfl h
  · exact .escape 'r' rest rfl h
  · exact .escape 't' rest rfl h
  · refine .unicode ['0', '0', _, _] rest rfl ?_ h
    simp only [List.forall_mem_cons]
    refine ⟨by decide, by decide, ?_, ?_, by simp⟩
    · exact isHexDigit_digitChar _ (by omega)
    · exact isHexDigit_digitChar _ (by omega)
  · exact .plain c rest hquote hslash (by omega) h

theorem chars_escaped (s : List Char) : Chars (escaped s) := by
  induction s with
  | nil => exact .nil
  | cons c s ih =>
      rw [escaped, List.flatMap_cons]
      exact chars_escapeChar c _ ih

theorem readChars_escapeChar (c : Char) (rest : List Char) :
    readChars .plain (escapeChar c ++ rest) = consChar c (readChars .plain rest) := by
  unfold escapeChar
  split_ifs with hquote hslash hb hf hn hr ht hcontrol
  · rw [hquote]
    rfl
  · rw [hslash]
    rfl
  · rw [hb]
    rfl
  · rw [hf]
    rfl
  · rw [hn]
    rfl
  · rw [hr]
    rfl
  · rw [ht]
    rfl
  · have hfirst := hexValue_digitChar (c.toNat / 16) (by omega)
    have hsecond := hexValue_digitChar (c.toNat % 16) (by omega)
    have hzero : hexValue '0' = some 0 := rfl
    have hvalue : c.toNat / 16 * 16 + c.toNat % 16 = c.toNat := by omega
    simp only [List.cons_append, List.nil_append, readChars, hzero, hfirst, hsecond, Nat.zero_mul,
      Nat.zero_add, hvalue, Char.ofNat_toNat, if_true]
    rfl
  · rw [List.singleton_append, readChars, if_neg hquote, if_neg hslash]

/-- A string that is written is read back, up to the quote after it. -/
theorem readChars_escaped (s rest : List Char) :
    readChars .plain (escaped s ++ '"' :: rest) = some (s, rest) := by
  induction s with
  | nil => rfl
  | cons c s ih =>
      have hcons : escaped (c :: s) = escapeChar c ++ escaped s := List.flatMap_cons
      rw [hcons, List.append_assoc, readChars_escapeChar, ih]
      rfl

theorem printable_of_isHexDigit {d : Char} (h : isHexDigit d = true) : 0x20 ≤ d.toNat := by
  simp only [isHexDigit, Char.isDigit, Bool.or_eq_true, Bool.and_eq_true, decide_eq_true_eq,
    Char.le_def, UInt32.le_iff_toNat_le, ge_iff_le, UInt32.reduceToNat, Char.reduceVal] at h
  have hval : d.toNat = d.val.toNat := rfl
  omega

/-- What stands in a string has no control characters. -/
theorem printable_of_chars {s : List Char} (h : Chars s) : ∀ c ∈ s, 0x20 ≤ c.toNat := by
  induction h with
  | nil => exact fun c hc => absurd hc List.not_mem_nil
  | plain c rest _ _ hc _ ih => exact List.forall_mem_cons.mpr ⟨hc, ih⟩
  | escape c rest hc _ ih =>
      refine List.forall_mem_cons.mpr ⟨by decide, List.forall_mem_cons.mpr ⟨?_, ih⟩⟩
      simp only [isEscapable, Bool.or_eq_true, decide_eq_true_eq] at hc
      rcases hc with ((((((rfl | rfl) | rfl) | rfl) | rfl) | rfl) | rfl) | rfl <;> decide
  | unicode digits rest _ hdigits _ ih =>
      refine List.forall_mem_cons.mpr ⟨by decide, List.forall_mem_cons.mpr ⟨by decide, ?_⟩⟩
      exact List.forall_mem_append.mpr ⟨fun d hd => printable_of_isHexDigit (hdigits d hd), ih⟩

/-- The digits of a number start with a zero only if it is zero. -/
theorem toDigits_eq_zero (n : Nat) (h : (Nat.toDigits 10 n).head? = some '0') :
    Nat.toDigits 10 n = ['0'] := by
  induction n using Nat.strongRecOn with
  | ind n ih =>
      by_cases hsmall : n < 10
      · rw [Nat.toDigits_of_lt_base hsmall] at h ⊢
        exact congrArg (fun c => [c]) (Option.some.inj h)
      · rw [Nat.toDigits_of_base_le (by omega) (by omega)] at h
        have hne : Nat.toDigits 10 (n / 10) ≠ [] := Nat.toDigits_ne_nil
        rw [List.head?_append_of_ne_nil _ hne] at h
        -- The front would be a zero of its own.
        have hfront := ih (n / 10) (by omega) h
        have hread := Nat.ofDigitChars_toDigits (b := 10) (n := n / 10) (by omega) (by omega)
        rw [hfront] at hread
        have hzero : Nat.ofDigitChars 10 ['0'] 0 = 0 := by decide
        omega

/-- A natural number as it is written. -/
theorem isNumber_toDigits (n : Nat) : IsNumber (Nat.toDigits 10 n) := by
  refine ⟨[], Nat.toDigits 10 n, [], [], by simp, Or.inl rfl, ⟨⟨Nat.toDigits_ne_nil, ?_⟩, ?_⟩,
    Or.inl rfl, Or.inl rfl⟩
  · exact fun c hc => Nat.isDigit_of_mem_toDigits (by omega) (by omega) hc
  · exact toDigits_eq_zero n

end OpenFlight.Json
