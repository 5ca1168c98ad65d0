import OpenFlight.Core.Updater.Journal
import OpenFlight.Lib.Overlay

/-!
# The Session Journal

`CrashRecovery`: the journal of a session as the bytes of its file.

An entry is written as one line of JSON at the end of the file, with the next number of
the process that writes it. A process finds its first number in the file: it is one more
than the highest of the lines that can be read, and one if the file is no text. To read
the journal the file has to be a text in which every line that is not blank is an entry.

What writes an entry as JSON and reads one is a library, and stands here as a
`JournalFormat`. The payload of an entry is a hash map, which is written in some order.

What the library makes of an entry is an object with the four fields in their order, the
last of which is an object with the payload in the order of its iteration, and nothing
between the tokens. The reader of the compact format takes exactly these texts; the
library also reads other spellings of the same entries.

## Main definitions

* `JournalEntry`, `JournalFormat`: Entries, and how they are written and read.
* `CrashRecovery.initNextSeq`, `CrashRecovery.new`: Where a process goes on counting.
-/

namespace OpenFlight.Session

open Updater (Bytes)
open Updater.Journal (lines)

/-- An entry of the journal. -/
structure JournalEntry where
  seq : UInt64
  timestamp : UInt64
  operation : String
  payload : HashMap String String
deriving DecidableEq

/-- What the calls may fail with. -/
inductive CrashRecoveryError
  | io (message : String)
  | journalParse (message : String)

/-- `serde_json::to_string` and `serde_json::from_str` for entries; the error is the message. -/
structure JournalFormat where
  toText : Iteration String String → JournalEntry → List Char
  fromText : List Char → Except String JournalEntry

variable (format : JournalFormat)

/-- The bytes that are appended for an entry. -/
def lineBytes (order : Iteration String String) (entry : JournalEntry) : Bytes :=
  utf8Bytes (format.toText order entry ++ ['\n'])

/-- The loop of `read_journal`. -/
def readLines : List (List Char) → Except CrashRecoveryError (List JournalEntry)
  | [] => .ok []
  | line :: rest =>
      if (Rules.trim line).isEmpty then readLines rest
      else do
        let entry ← (format.fromText line).mapError .journalParse
        let later ← readLines rest
        pure (entry :: later)

/-- The entries of the file. -/
def readJournal : Option Bytes → Except CrashRecoveryError (List JournalEntry)
  | none => .ok []
  | some data =>
      match fromUtf8Strict data with
      | none => .error (.io "stream did not contain valid UTF-8")
      | some text => readLines format (lines text)

/-- The body of the loop of `init_next_seq`. -/
def scanSeq (maxSeq : UInt64) (line : List Char) : UInt64 :=
  if (Rules.trim line).isEmpty then maxSeq
  else
    match format.fromText line with
    | .ok entry => max maxSeq entry.seq
    | .error _ => maxSeq

/-- What is known of the journal in memory. -/
structure CrashRecovery where
  nextSeq : UInt64

namespace CrashRecovery

/-- One more than the largest number in the file. -/
def initNextSeq : Option Bytes → UInt64
  | none => 1
  | some data =>
      match fromUtf8Strict data with
      | none => 1
      | some text => (lines text).foldl (scanSeq format) 0 + 1

/-- `CrashRecovery::new`. -/
def new (file : Option Bytes) : CrashRecovery :=
  { nextSeq := initNextSeq format file }

/-- The entry that `write_journal` makes. -/
def nextEntry (self : CrashRecovery) (timestamp : UInt64) (operation : String)
    (payload : HashMap String String) : JournalEntry :=
  { seq := self.nextSeq, timestamp, operation, payload }

/-- `write_journal`; a file that is not there is created. -/
def writeJournal (self : CrashRecovery) (timestamp : UInt64) (operation : String)
    (payload : HashMap String String) (order : Iteration String String) (file : Option Bytes) :
    CrashRecovery × Option Bytes × JournalEntry :=
  let entry := self.nextEntry timestamp operation payload
  ({ nextSeq := self.nextSeq + 1 }, some (file.getD [] ++ lineBytes format order entry), entry)

end CrashRecovery

open Json
open Updater.Journal (skip readField fieldToken)

/-- The members of a payload. -/
abbrev Members := List (Sigma fun _ : String => String)

/-- What stands before the first number. -/
def seqToken : List Char :=
  '{' :: (quoted "seq".toList ++ [':'])

/-- What stands before the second number. -/
def timestampToken : List Char :=
  ',' :: (quoted "timestamp".toList ++ [':'])

/-- What stands before the members of the payload. -/
def payloadToken : List Char :=
  ',' :: (quoted "payload".toList ++ [':', '{'])

/-- A member of a payload as compact JSON. -/
def memberText (m : Sigma fun _ : String => String) : List Char :=
  quoted (escaped m.1.toList) ++ ':' :: quoted (escaped m.2.toList)

/-- An entry as compact JSON. -/
def entryText (seq timestamp : UInt64) (operation : String) (members : Members) : List Char :=
  seqToken ++ (Nat.toDigits 10 seq.toNat ++
    (timestampToken ++ (Nat.toDigits 10 timestamp.toNat ++
    (fieldToken "operation" ++ (escaped operation.toList ++ '"' ::
    (payloadToken ++ ([','].intercalate (members.map memberText) ++ ['}', '}'])))))))

/-- A number, and what follows it. -/
def readNumber (s : List Char) : UInt64 × List Char :=
  let digits := s.takeWhile Char.isDigit
  (UInt64.ofNat (Nat.ofDigitChars 10 digits 0), s.drop digits.length)

/-- The members of a payload that has any, and what follows them. -/
def readMembers : Nat → List Char → Option (Members × List Char)
  | 0, _ => none
  | fuel + 1, s => do
      let (key, s) ← (skip ['"'] s).bind (readChars .plain)
      let (value, s) ← (skip [':', '"'] s).bind (readChars .plain)
      match s with
      | ',' :: s => do
          let (rest, s) ← readMembers fuel s
          pure (⟨String.ofList key, String.ofList value⟩ :: rest, s)
      | _ => pure ([⟨String.ofList key, String.ofList value⟩], s)

/-- The payload after its opening bracket. -/
def readPayload (s : List Char) : Option (Members × List Char) :=
  if s.head? = some '}' then some ([], s) else readMembers s.length s

/-- The entry of a text, if it is one, and its members in their order. -/
def readEntry (s : List Char) : Option (UInt64 × UInt64 × String × Members) := do
  let s ← skip seqToken s
  let (seq, s) := readNumber s
  let s ← skip timestampToken s
  let (timestamp, s) := readNumber s
  let (operation, s) ← readField "operation" s
  let s ← skip payloadToken s
  let (members, _) ← readPayload s
  pure (seq, timestamp, String.ofList operation, members)

/-- Entries as compact JSON, and only as that. -/
def compactFormat : JournalFormat where
  toText order e := entryText e.seq e.timestamp e.operation (order.entries e.payload)
  fromText s :=
    match readEntry s with
    | none => .error "expected an entry"
    | some (seq, timestamp, operation, members) =>
        if entryText seq timestamp operation members = s then
          .ok { seq, timestamp, operation, payload := members.toFinmap }
        else .error "trailing characters"

end OpenFlight.Session
