import OpenFlight.Core.Prim
import OpenFlight.Lib.Split

/-!
# Text of the Rules Language

The string functions that the rules parser calls, on texts as lists of
characters: trimming, finding, cutting, and reading a number. Other readers of texts
use them too.

Positions in a string are byte offsets in the source and never leave the
function that computes them, so a text is cut where a word is found and the
offset is left out.

## Main definitions

* `Text`: A string.
* `isWhitespace`, `trim`, `lines`: `char::is_whitespace`, `str::trim` and `str::lines`.
-/

namespace OpenFlight.Rules

/-- A string, as its characters. -/
abbrev Text := List Char

/-- `char::is_whitespace`: the Unicode property `White_Space`. -/
def isWhitespace (c : Char) : Bool :=
  (0x09 ≤ c.toNat && c.toNat ≤ 0x0D) || c.toNat == 0x20 || c.toNat == 0x85 || c.toNat == 0xA0
    || c.toNat == 0x1680 || (0x2000 ≤ c.toNat && c.toNat ≤ 0x200A) || c.toNat == 0x2028
    || c.toNat == 0x2029 || c.toNat == 0x202F || c.toNat == 0x205F || c.toNat == 0x3000

/-- `str::trim`. -/
def trim (s : Text) : Text :=
  trimBy isWhitespace s

/-- A line that ended with a line feed, without the carriage return before it. -/
def stripCarriageReturn (line : Text) : Text :=
  if line.getLast? = some '\r' then line.dropLast else line

/-- `str::lines`. -/
def lines (s : Text) : List Text :=
  let pieces := splitAll ['\n'] s
  pieces.dropLast.map stripCarriageReturn ++ (pieces.getLast?.toList.filter fun p => p ≠ [])

/-- The number that a sequence of decimal digits denotes. -/
def digitsValue (digits : Text) : Nat :=
  digits.foldl (fun n d => 10 * n + (d.toNat - '0'.toNat)) 0

/-- A leading sign, and what follows it. -/
def takeSign : Text → Bool × Text
  | '+' :: rest => (false, rest)
  | '-' :: rest => (true, rest)
  | s => (false, s)

/-- The exponent of a number; a number may have none. -/
def parseExponent : Text → Option Int
  | [] => some 0
  | c :: rest =>
      let signed := takeSign rest
      if (c = 'e' ∨ c = 'E') ∧ signed.2 ≠ [] ∧ signed.2.all Char.isDigit then
        some (if signed.1 then -(digitsValue signed.2 : Int) else digitsValue signed.2)
      else none

/-- A decimal number without a sign: digits before or after the point, or both, and an exponent. -/
def parseNumber (s : Text) : Option ℚ :=
  let whole := s.takeWhile Char.isDigit
  let rest := s.dropWhile Char.isDigit
  let frac := match rest with
    | '.' :: more => more.takeWhile Char.isDigit
    | _ => []
  let rest := match rest with
    | '.' :: more => more.dropWhile Char.isDigit
    | _ => rest
  if whole = [] ∧ frac = [] then none
  else (parseExponent rest).map fun (e : Int) =>
    (digitsValue (whole ++ frac) : ℚ) * 10 ^ (e - (frac.length : Int))

/-- A number, an infinity or NaN, without a sign. -/
def parseMagnitude (s : Text) : Option F32 :=
  let lower := s.map Char.toLower
  if lower = "inf".toList ∨ lower = "infinity".toList then some .posInf
  else if lower = "nan".toList then some .nan
  else (parseNumber s).map F32.ofRat

/-- `str::parse::<f32>`. -/
def parseF32 (s : Text) : Option F32 :=
  let signed := takeSign s
  (parseMagnitude signed.2).map fun value => if signed.1 then value.neg else value

example : parseF32 "-1.5e1".toList = some (.fin (-15)) := by decide +kernel

end OpenFlight.Rules
