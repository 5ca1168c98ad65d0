import OpenFlight.Core.Rules.Text
import OpenFlight.Core.Updater.Rollback
import OpenFlight.Lib.Json
import OpenFlight.Lib.Utf8

/-!
# The Journal File

`UpdateJournal`: the journal of the rollback manager as the bytes of its file.

An entry is written as one line of JSON at the end of the file. The file is read as
text, a piece that is no character as a replacement character, and every line that is
not blank has to be an entry. What writes an entry as JSON and reads one is a library,
and stands here as a `JournalFormat`.

What the library makes of an entry is an object with the four fields in their order and
nothing between the tokens. The reader of the compact format takes exactly these texts;
the library also reads other spellings of the same entries.

## Main definitions

* `StampedEntry`: An entry with its time.
* `JournalFormat`: How an entry is written and read.
-/

namespace OpenFlight.Updater.Journal

/-- An entry of the journal with the time it was written at. -/
structure StampedEntry where
  timestamp : UInt64
  entry : JournalEntry
deriving DecidableEq

/-- `serde_json::to_string` and `serde_json::from_str` for entries; the error is the message. -/
structure JournalFormat where
  toText : StampedEntry → List Char
  fromText : List Char → Except String StampedEntry

/-- `split_inclusive('\n')`. -/
def splitInclusive : List Char → List (List Char)
  | [] => []
  | c :: rest =>
      if c = '\n' then [c] :: splitInclusive rest
      else
        match splitInclusive rest with
        | [] => [[c]]
        | line :: lines => (c :: line) :: lines

/-- A line without its end, which is a line feed and may have a carriage return before it. -/
def stripEnd (line : List Char) : List Char :=
  if line.getLast? = some '\n' then
    if line.dropLast.getLast? = some '\r' then line.dropLast.dropLast else line.dropLast
  else line

/-- `str::lines`. -/
def lines (s : List Char) : List (List Char) :=
  (splitInclusive s).map stripEnd

variable (format : JournalFormat)

/-- The bytes that `record` appends. -/
def recordBytes (e : StampedEntry) : Bytes :=
  utf8Bytes (format.toText e ++ ['\n'])

/-- `record`; a file that is not there is created. -/
def record (file : Option Bytes) (e : StampedEntry) : Option Bytes :=
  some (file.getD [] ++ recordBytes format e)

/-- The loop of `entries`. -/
def readLines : List (List Char) → Except UpdateError (List StampedEntry)
  | [] => .ok []
  | line :: rest =>
      if (Rules.trim line).isEmpty then readLines rest
      else do
        let e ← (format.fromText line).mapError .serialization
        let later ← readLines rest
        pure (e :: later)

/-- All entries of a journal; a missing file has none. -/
def entries : Option Bytes → Except UpdateError (List StampedEntry)
  | none => .ok []
  | some data => readLines format (lines (fromUtf8Lossy data))

/-- The last entry, if it is of an unfinished update. -/
def lastUnfinished (es : List StampedEntry) : Option StampedEntry :=
  match es.getLast? with
  | none => none
  | some last =>
      match last.entry.state with
      | .complete => none
      | .failed => none
      | .idle => none
      | _ => some last

/-- The last entry, if its update is unfinished. -/
def checkIncomplete (file : Option Bytes) : Except UpdateError (Option StampedEntry) := do
  let es ← entries format file
  pure (lastUnfinished es)

open Json

/-- What stands before the first number. -/
def timestampToken : List Char :=
  '{' :: (quoted "timestamp".toList ++ [':'])

/-- What stands before the characters of a later field. -/
def fieldToken (name : String) : List Char :=
  ',' :: (quoted name.toList ++ [':', '"'])

/-- An entry as compact JSON. -/
def entryText (e : StampedEntry) : List Char :=
  timestampToken ++ (Nat.toDigits 10 e.timestamp.toNat ++
    (fieldToken "state" ++ (escaped e.entry.state.name.toList ++ '"' ::
    (fieldToken "version" ++ (escaped e.entry.version.toList ++ '"' ::
    (fieldToken "detail" ++ (escaped e.entry.detail.toList ++ '"' :: ['}'])))))))

/-- What follows a token, if it is there. -/
def skip (token s : List Char) : Option (List Char) :=
  if token.isPrefixOf s then some (s.drop token.length) else none

/-- A field that is a string, and what follows it. -/
def readField (name : String) (s : List Char) : Option (List Char × List Char) :=
  (skip (fieldToken name) s).bind (readChars .plain)

/-- The state of a name. -/
def stateNamed (name : List Char) : Option UpdateState :=
  [.idle, .downloading, .verifying, .installing, .rollingBack, .complete, .failed].find?
    fun state => state.name.toList = name

/-- The entry of a text, if it is one. -/
def readEntry (s : List Char) : Option StampedEntry := do
  let s ← skip timestampToken s
  let digits := s.takeWhile Char.isDigit
  let (state, s) ← readField "state" (s.drop digits.length)
  let (version, s) ← readField "version" s
  let (detail, _) ← readField "detail" s
  let state ← stateNamed state
  pure
    { timestamp := UInt64.ofNat (Nat.ofDigitChars 10 digits 0)
      entry :=
        { state := state, version := String.ofList version, detail := String.ofList detail } }

/-- Entries as compact JSON, and only as that. -/
def compactFormat : JournalFormat where
  toText := entryText
  fromText s :=
    match readEntry s with
    | none => .error "expected an entry"
    | some e => if entryText e = s then .ok e else .error "trailing characters"

end OpenFlight.Updater.Journal
