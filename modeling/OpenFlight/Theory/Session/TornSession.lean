import OpenFlight.Core.Session.CrashRecovery
import OpenFlight.Lib.Words
import OpenFlight.Theory.Updater.TornJournal

/-!
# Session Journals Over Crashes

What becomes of a journal whose processes die while they write it.

A journal that was only written in whole entries is read as it was written, and the next
process goes on counting where the last one stopped. A part of an entry is another matter.
A start of an object is no text of its own, so the journal cannot be read any more; and an
entry that only lacks its line feed can be read, but the next entry goes to the same line,
and two objects are no text either.

## Main definitions

* `JournalFormat.Lawful`: What the library is relied on for.
* `Event`, `afterEvents`: Entries and crashes, and what is there after them.

## Theorems

* `not_intact_cut`, `not_intact_glued`: A part of an entry, and an entry without its line
  feed.
* `survives_iff`: When a journal survives its crashes.
-/

namespace OpenFlight.Session

open Updater (Bytes)
open Updater.Journal (lines lines_cons lines_texts newline_not_mem trim_ne_nil cutLine_of_torn
  not_text_of_cutLine lines_cutLine)

variable (format : JournalFormat)

/-- What is relied on: entries are written as objects on one line, with nothing around
    them and control characters escaped; what is written is read back, in whatever order
    the payload was; and only texts of JSON are read. -/
structure JournalFormat.Lawful (format : JournalFormat) : Prop where
  text : ∀ order e, Json.Text (format.toText order e)
  opens : ∀ order e, (format.toText order e).head? = some '{'
  closes : ∀ order e, (format.toText order e).getLast? = some '}'
  escapes : ∀ order e, ∀ c ∈ format.toText order e, 0x20 ≤ c.toNat
  roundTrip : ∀ order e, format.fromText (format.toText order e) = .ok e
  complete : ∀ s e, format.fromText s = .ok e → Json.Text s

section

/-- A text that an entry is written as. -/
def Writes (e : JournalEntry) (text : List Char) : Prop :=
  ∃ order, text = format.toText order e

/-- A file of whole entries. -/
def Recorded (es : List JournalEntry) (file : Option Bytes) : Prop :=
  ∃ texts, List.Forall₂ (Writes format) es texts ∧
    file.getD [] = utf8Bytes (texts.flatMap fun text => text ++ ['\n'])

theorem readLines_cons {line : List Char} (rest : List (List Char)) (h : line.head? = some '{') :
    readLines format (line :: rest) = (do
      let e ← (format.fromText line).mapError .journalParse
      let later ← readLines format rest
      pure (e :: later)) := by
  rw [readLines, if_neg (by rw [trim_ne_nil h]; simp)]

variable {format} {es : List JournalEntry} {texts : List (List Char)}

section

variable (hformat : format.Lawful) (h : List.Forall₂ (Writes format) es texts)

include hformat h

theorem readLines_texts (rest : List (List Char)) :
    readLines format (texts ++ rest) = (readLines format rest).map (es ++ ·) := by
  induction h with
  | nil =>
      rw [List.nil_append]
      cases readLines format rest <;> rfl
  | @cons e text es texts hwrites _ ih =>
      rcases hwrites with ⟨order, rfl⟩
      rw [List.cons_append, readLines_cons format _ (hformat.opens order e), hformat.roundTrip, ih]
      cases readLines format rest <;> rfl

theorem scanSeq_texts (maxSeq : UInt64) :
    texts.foldl (scanSeq format) maxSeq = es.foldl (fun m e => max m e.seq) maxSeq := by
  induction h generalizing maxSeq with
  | nil => rfl
  | @cons e text es texts hwrites _ ih =>
      rcases hwrites with ⟨order, rfl⟩
      have hstep : scanSeq format maxSeq (format.toText order e) = max maxSeq e.seq := by
        rw [scanSeq, if_neg (by rw [trim_ne_nil (hformat.opens order e)]; simp),
          hformat.roundTrip]
      rw [List.foldl_cons, List.foldl_cons, hstep, ih]

theorem printable_of_writes : ∀ text ∈ texts, ∀ c ∈ text, 0x20 ≤ c.toNat := by
  induction h with
  | nil => exact List.forall_mem_nil _
  | cons hwrites _ ih =>
      rcases hwrites with ⟨order, rfl⟩
      exact List.forall_mem_cons.mpr ⟨hformat.escapes order _, ih⟩

end

variable {file : Option Bytes}

section

variable (hformat : format.Lawful) (h : Recorded format es file)

include hformat h

/-- A file of whole entries with a text after them. -/
theorem readJournal_text (rest : List Char) :
    readJournal format (some (file.getD [] ++ utf8Bytes rest)) =
      (readLines format (lines rest)).map (es ++ ·) := by
  rcases h with ⟨texts, hwrites, hfile⟩
  have hread : fromUtf8Strict (file.getD [] ++ utf8Bytes rest) =
      some ((texts.flatMap fun text => text ++ ['\n']) ++ rest) := by
    rw [fromUtf8Strict_eq_some_iff, hfile, utf8Bytes_append]
  rw [readJournal, hread]
  simp only
  rw [lines_texts texts (printable_of_writes hformat hwrites), readLines_texts hformat hwrites]

/-- Whatever bytes are after the entries, the journal is no text or they are read as if each
    piece that is no character were a replacement character. -/
theorem readJournal_bytes (bytes : Bytes) :
    (∃ e, readJournal format (some (file.getD [] ++ bytes)) = .error e) ∨
      readJournal format (some (file.getD [] ++ bytes)) =
        (readLines format (lines (fromUtf8Lossy bytes))).map (es ++ ·) := by
  cases hread : fromUtf8Strict (file.getD [] ++ bytes) with
  | none =>
      left
      rw [readJournal, hread]
      exact ⟨_, rfl⟩
  | some text =>
      right
      have hbytes := (fromUtf8Strict_eq_some_iff _ _).mp hread
      rcases h with ⟨texts, hwrites, hfile⟩
      have htext : text = (texts.flatMap fun text => text ++ ['\n']) ++ fromUtf8Lossy bytes := by
        rw [← fromUtf8Lossy_utf8Bytes text, ← hbytes, hfile, fromUtf8Lossy_append]
      rw [readJournal, hread]
      simp only
      rw [htext, lines_texts texts (printable_of_writes hformat hwrites),
        readLines_texts hformat hwrites]

/-- A journal of whole entries is read as it was written. -/
theorem readJournal_recorded : readJournal format file = .ok es := by
  have hread := readJournal_text hformat h []
  rw [utf8Bytes_nil, List.append_nil] at hread
  have hall : (readLines format (lines [])).map (es ++ ·) = .ok es :=
    congrArg Except.ok (List.append_nil es)
  cases file with
  | none => exact hread.trans hall
  | some data => exact hread.trans hall

end

/-- The highest number of some entries. -/
def highestSeq (es : List JournalEntry) : UInt64 :=
  es.foldl (fun m e => max m e.seq) 0

/-- The next process goes on counting. -/
theorem initNextSeq_recorded (hformat : format.Lawful) (h : Recorded format es file) :
    CrashRecovery.initNextSeq format file = highestSeq es + 1 := by
  rcases h with ⟨texts, hwrites, hfile⟩
  have hlines := lines_texts texts (printable_of_writes hformat hwrites) []
  have hnil : lines [] = [] := rfl
  rw [List.append_nil, hnil, List.append_nil] at hlines
  cases file with
  | none =>
      -- Without a file there are no entries.
      have hnone : es = [] := by
        cases hwrites with
        | nil => rfl
        | cons _ _ =>
            rw [Option.getD_none, List.flatMap_cons, utf8Bytes_append, utf8Bytes_append] at hfile
            have hempty := (List.append_eq_nil_iff.mp hfile.symm).1
            have hfeed := (List.append_eq_nil_iff.mp hempty).2
            exact absurd hfeed (by decide)
      rw [hnone]
      rfl
  | some data =>
      have hread : fromUtf8Strict data = some (texts.flatMap fun text => text ++ ['\n']) := by
        rw [fromUtf8Strict_eq_some_iff]
        exact hfile
      rw [CrashRecovery.initNextSeq, hread]
      simp only
      rw [hlines, scanSeq_texts hformat hwrites]
      rfl

/-- One more entry. -/
theorem Recorded.append (h : Recorded format es file) (order : Iteration String String)
    (e : JournalEntry) :
    Recorded format (es ++ [e]) (some (file.getD [] ++ lineBytes format order e)) := by
  rcases h with ⟨texts, hwrites, hfile⟩
  refine ⟨texts ++ [format.toText order e],
    List.rel_append hwrites (.cons ⟨order, rfl⟩ .nil), ?_⟩
  rw [Option.getD_some, hfile, List.flatMap_append, utf8Bytes_append, List.flatMap_singleton]
  rfl

end

section

open Json
open Updater.Journal (skip skip_append readField readField_escaped fieldToken chars_of_plain)

/-- A number that is written is read back, up to the comma after it. -/
theorem readNumber_toDigits (n : UInt64) (rest : List Char) :
    readNumber (Nat.toDigits 10 n.toNat ++ ',' :: rest) = (n, ',' :: rest) := by
  have hdigits : ∀ c ∈ Nat.toDigits 10 n.toNat, c.isDigit = true :=
    fun c hc => Nat.isDigit_of_mem_toDigits (by omega) (by omega) hc
  have htake : (Nat.toDigits 10 n.toNat ++ ',' :: rest).takeWhile Char.isDigit =
      Nat.toDigits 10 n.toNat := by
    rw [List.takeWhile_append_of_pos hdigits, List.takeWhile_cons_of_neg (by decide),
      List.append_nil]
  have hvalue : Nat.ofDigitChars 10 (Nat.toDigits 10 n.toNat) 0 = n.toNat :=
    Nat.ofDigitChars_toDigits (by omega) (by omega)
  rw [readNumber]
  simp only [htake, hvalue, List.drop_left, UInt64.ofNat_toNat]

theorem memberText_append (m : Sigma fun _ : String => String) (rest : List Char) :
    memberText m ++ rest = ['"'] ++ (escaped m.1.toList ++ '"' ::
      ([':', '"'] ++ (escaped m.2.toList ++ '"' :: rest))) := by
  simp only [memberText, quoted, List.cons_append, List.append_assoc, List.nil_append]

/-- Members that are written are read back. -/
theorem readMembers_written (m : Sigma fun _ : String => String) (members : Members)
    (rest : List Char) (fuel : Nat) (hfuel : members.length < fuel) :
    readMembers fuel ([','].intercalate ((m :: members).map memberText) ++ '}' :: rest) =
      some (m :: members, '}' :: rest) := by
  induction members generalizing m fuel with
  | nil =>
      cases fuel with
      | zero => exact absurd hfuel (Nat.not_lt_zero _)
      | succ fuel =>
          rw [List.map_singleton, List.intercalate_singleton, memberText_append, readMembers]
          simp only [skip_append, Option.bind_eq_bind, Option.bind_some, readChars_escaped,
            String.ofList_toList]
          rfl
  | cons next members ih =>
      cases fuel with
      | zero => exact absurd hfuel (Nat.not_lt_zero _)
      | succ fuel =>
          have hrest := ih next fuel (Nat.lt_of_succ_lt_succ hfuel)
          have hjoin : [','].intercalate ((m :: next :: members).map memberText) ++ '}' :: rest =
              memberText m ++ ',' ::
                ([','].intercalate ((next :: members).map memberText) ++ '}' :: rest) := by
            simp only [List.map_cons, List.intercalate_cons_cons, List.append_assoc,
              List.cons_append, List.nil_append]
          rw [hjoin, memberText_append, readMembers]
          simp only [skip_append, Option.bind_eq_bind, Option.bind_some, readChars_escaped,
            String.ofList_toList, hrest]
          rfl

theorem readPayload_written (members : Members) (rest : List Char) :
    readPayload ([','].intercalate (members.map memberText) ++ '}' :: rest) =
      some (members, '}' :: rest) := by
  cases members with
  | nil => simp [readPayload]
  | cons m members =>
      have hhead : ([','].intercalate ((m :: members).map memberText) ++ '}' :: rest).head? ≠
          some '}' := by
        cases members with
        | nil => simp [memberText, quoted]
        | cons next members =>
            rw [List.map_cons, List.map_cons, List.intercalate_cons_cons]
            simp [memberText, quoted]
      have hfuel : members.length <
          ([','].intercalate ((m :: members).map memberText) ++ '}' :: rest).length := by
        have hlength := length_le_intercalate [','] (memberText m) (members.map memberText)
          (by simp)
        rw [List.length_map] at hlength
        rw [List.length_append, List.length_cons, List.map_cons]
        omega
      rw [readPayload, if_neg hhead, readMembers_written m members rest _ hfuel]

variable (seq : UInt64) (timestamp : UInt64)

theorem readEntry_entryText (operation : String) (members : Members) :
    readEntry (entryText seq timestamp operation members) =
      some (seq, timestamp, operation, members) := by
  have htimestamp : ∀ rest, timestampToken ++ rest =
      ',' :: (quoted "timestamp".toList ++ [':'] ++ rest) := fun _ => rfl
  have hoperation : ∀ rest, fieldToken "operation" ++ rest =
      ',' :: (quoted "operation".toList ++ [':', '"'] ++ rest) := fun _ => rfl
  have hfirst : ∀ rest, readNumber (Nat.toDigits 10 seq.toNat ++ (timestampToken ++ rest)) =
      (seq, timestampToken ++ rest) := fun rest => readNumber_toDigits seq _
  have hsecond : ∀ rest, readNumber (Nat.toDigits 10 timestamp.toNat ++
      (fieldToken "operation" ++ rest)) = (timestamp, fieldToken "operation" ++ rest) :=
    fun rest => readNumber_toDigits timestamp _
  simp only [readEntry, entryText, skip_append, Option.bind_eq_bind, Option.bind_some, hfirst,
    hsecond, readField_escaped, readPayload_written, String.ofList_toList]
  rfl

/-- The compact text of an entry is an object with four members. -/
theorem entryText_object (operation : String) (members : Members) :
    entryText seq timestamp operation members = '{' :: ([','].intercalate ([
      ("seq".toList, Nat.toDigits 10 seq.toNat),
      ("timestamp".toList, Nat.toDigits 10 timestamp.toNat),
      ("operation".toList, quoted (escaped operation.toList)),
      ("payload".toList, '{' :: ([','].intercalate (members.map memberText) ++ ['}']))].map
        fun f => quoted f.1 ++ ':' :: f.2) ++ ['}']) := by
  simp only [entryText, seqToken, timestampToken, payloadToken, fieldToken, quoted, List.map_cons,
    List.map_nil, List.intercalate_cons_cons, List.intercalate_singleton, List.cons_append,
    List.nil_append, List.append_assoc]

theorem text_entryText (operation : String) (members : Members) :
    Text (entryText seq timestamp operation members) := by
  have hmembers : members.map memberText = (members.map fun m =>
      (escaped m.1.toList, quoted (escaped m.2.toList))).map
        fun f => quoted f.1 ++ ':' :: f.2 := by
    rw [List.map_map]
    rfl
  have hpayload : Text ('{' :: ([','].intercalate (members.map memberText) ++ ['}'])) := by
    rw [hmembers]
    exact .fields _ (List.forall_mem_map.mpr fun m _ =>
      ⟨chars_escaped _, .string _ (chars_escaped _)⟩)
  rw [entryText_object]
  refine .fields _ ?_
  simp only [List.forall_mem_cons]
  refine ⟨⟨?_, .number _ (isNumber_toDigits _)⟩, ⟨?_, .number _ (isNumber_toDigits _)⟩,
    ⟨?_, .string _ (chars_escaped _)⟩, ⟨?_, hpayload⟩, by simp⟩
  all_goals exact chars_of_plain (List.all_iff_forall_prop.mp (by decide +kernel))

theorem printable_quoted (s : List Char) : ∀ c ∈ quoted (escaped s), 0x20 ≤ c.toNat := by
  have hquote : 0x20 ≤ '"'.toNat := by decide
  rw [quoted, List.forall_mem_cons, List.forall_mem_append, List.forall_mem_singleton]
  exact ⟨hquote, printable_of_chars (chars_escaped s), hquote⟩

theorem printable_members (members : Members) :
    ∀ c ∈ [','].intercalate (members.map memberText), 0x20 ≤ c.toNat := by
  have hmember : ∀ m, ∀ c ∈ memberText m, 0x20 ≤ c.toNat := by
    intro m
    rw [memberText, List.forall_mem_append, List.forall_mem_cons]
    exact ⟨printable_quoted _, by decide, printable_quoted _⟩
  induction members with
  | nil => exact List.forall_mem_nil _
  | cons m members ih =>
      cases members with
      | nil =>
          rw [List.map_singleton, List.intercalate_singleton]
          exact hmember m
      | cons next members =>
          rw [List.map_cons, List.map_cons, List.intercalate_cons_cons, ← List.map_cons,
            List.forall_mem_append, List.forall_mem_append, List.forall_mem_singleton]
          exact ⟨⟨hmember m, by decide⟩, ih⟩

theorem printable_entryText (operation : String) (members : Members) :
    ∀ c ∈ entryText seq timestamp operation members, 0x20 ≤ c.toNat := by
  have hdigits : ∀ n : UInt64, ∀ c ∈ Nat.toDigits 10 n.toNat, 0x20 ≤ c.toNat := by
    intro n c hc
    refine printable_of_isHexDigit ?_
    rw [isHexDigit, Nat.isDigit_of_mem_toDigits (by omega) (by omega) hc, Bool.true_or,
      Bool.true_or]
  have hmembers := printable_members members
  have htoken : ∀ token : List Char, (token.all fun c => decide (0x20 ≤ c.toNat)) = true →
      ∀ c ∈ token, 0x20 ≤ c.toNat := fun _ => List.all_iff_forall_prop.mp
  have hseq := htoken seqToken (by decide)
  have htimestamp := htoken timestampToken (by decide)
  have hfield := htoken (fieldToken "operation") (by decide)
  have hpayload := htoken payloadToken (by decide)
  have hoperation := printable_of_chars (chars_escaped operation.toList)
  simp only [entryText, List.forall_mem_append, List.forall_mem_cons]
  exact ⟨hseq, hdigits _, htimestamp, hdigits _, hfield, hoperation, by decide, hpayload, hmembers,
    by decide, by decide, by simp⟩

/-- A payload is the map of its entries, in whatever order. -/
theorem toFinmap_entries (order : Iteration String String) (payload : HashMap String String) :
    (order.entries payload).toFinmap = payload := by
  refine Finmap.ext_lookup fun key => ?_
  rw [Finmap.dlookup_list_toFinmap, order.dlookup_entries]

/-- The compact format is one that can be relied on. -/
theorem compactFormat_lawful : compactFormat.Lawful where
  text _ _ := text_entryText _ _ _ _
  opens _ _ := rfl
  closes order e := by
    have hend : compactFormat.toText order e =
        entryText e.seq e.timestamp e.operation (order.entries e.payload) := rfl
    rw [hend, entryText_object, ← List.cons_append]
    exact List.getLast?_concat
  escapes _ _ := printable_entryText _ _ _ _
  roundTrip order e := by
    simp only [compactFormat, readEntry_entryText, if_true, toFinmap_entries]
  complete s e h := by
    unfold compactFormat at h
    cases hread : readEntry s with
    | none =>
        simp only [hread] at h
        cases h
    | some parts =>
        simp only [hread] at h
        split_ifs at h with hwhole
        exact hwhole ▸ text_entryText _ _ _ _

end

section

/-- A call of `write_journal`, with the time it reads and the order of its payload. -/
structure Call where
  timestamp : UInt64
  operation : String
  payload : HashMap String String
  order : Iteration String String

/-- The entry that a process makes of a call. -/
def Call.entry (call : Call) (recovery : CrashRecovery) : JournalEntry :=
  recovery.nextEntry call.timestamp call.operation call.payload

/-- The bytes that a process appends for a call. -/
def Call.bytes (call : Call) (recovery : CrashRecovery) : Bytes :=
  lineBytes format call.order (call.entry recovery)

/-- An entry is appended, or the process dies when so many bytes of it are there, and the next
    one starts. -/
inductive Event
  | write (call : Call)
  | crash (call : Call) (n : ℕ)

/-- The file, the process, and the entries that were appended as a whole. -/
structure JournalState where
  file : Option Bytes
  recovery : CrashRecovery
  written : List JournalEntry

def stepEvent (s : JournalState) : Event → JournalState
  | .write call =>
      let result := s.recovery.writeJournal format call.timestamp call.operation call.payload
        call.order s.file
      { file := result.2.1, recovery := result.1, written := s.written ++ [result.2.2] }
  | .crash call n =>
      let file := some (s.file.getD [] ++ (call.bytes format s.recovery).take n)
      { file
        recovery := .new format file
        written :=
          if (call.bytes format s.recovery).length ≤ n then s.written ++ [call.entry s.recovery]
          else s.written }

def afterEvents (s : JournalState) (events : List Event) : JournalState :=
  run (stepEvent format) s events

/-- A process that finds a journal of these entries. -/
def startState (es : List JournalEntry) (file : Option Bytes) : JournalState :=
  { file, recovery := .new format file, written := es }

/-- There are numbers enough for the entries since the start, and those before it are in order. -/
def RoomSince (es : List JournalEntry) (s : JournalState) : Prop :=
  (es.map JournalEntry.seq).Pairwise (· < ·) ∧
    (highestSeq es).toNat + (s.written.length - es.length) < 2 ^ 64

/-- The journal can be read, all whole entries are there in order, and their numbers increase. -/
def Intact (es : List JournalEntry) (s : JournalState) : Prop :=
  ∃ result, readJournal format s.file = .ok result ∧ s.written <+: result ∧
    (RoomSince es s → (result.map JournalEntry.seq).Pairwise (· < ·))

/-- The journal is intact in every state, and whatever is appended to it. -/
def Survives (es : List JournalEntry) (s : JournalState) (events : List Event) : Prop :=
  ∀ front later, front <+: events →
    Intact format es (afterEvents format s (front ++ List.map Event.write later))

/-- A crash is before the first byte of an entry or after its last one. -/
def BetweenBytes (s : JournalState) : Event → Prop
  | .write _ => True
  | .crash call n => n = 0 ∨ (call.bytes format s.recovery).length ≤ n

/-- Every crash is between two entries. -/
def BetweenEntries : JournalState → List Event → Prop
  | _, [] => True
  | s, event :: rest => BetweenBytes format s event ∧ BetweenEntries (stepEvent format s event) rest

/-- The file is of whole entries, and while there are numbers the next one is free. -/
structure Whole (es : List JournalEntry) (s : JournalState) : Prop where
  recorded : Recorded format s.written s.file
  longer : es.length ≤ s.written.length
  numbered : RoomSince es s → (s.written.map JournalEntry.seq).Pairwise (· < ·) ∧
    (highestSeq s.written).toNat = (highestSeq es).toNat + (s.written.length - es.length) ∧
    s.recovery.nextSeq = highestSeq s.written + 1

variable {format} {es : List JournalEntry} {s : JournalState}

theorem highestSeq_append (es : List JournalEntry) (e : JournalEntry) :
    highestSeq (es ++ [e]) = max (highestSeq es) e.seq := by
  rw [highestSeq, List.foldl_append]
  rfl

theorem seq_le_highestSeq {e : JournalEntry} (h : e ∈ es) :
    e.seq.toNat ≤ (highestSeq es).toNat := by
  induction es using List.reverseRecOn with
  | nil => cases h
  | append_singleton es last ih =>
      rw [highestSeq_append, toNat_max]
      rcases List.mem_append.mp h with hold | hnew
      · exact (ih hold).trans (le_max_left _ _)
      · rw [List.mem_singleton.mp hnew]
        exact le_max_right _ _

theorem whole_start (hformat : format.Lawful) {file : Option Bytes}
    (h : Recorded format es file) : Whole format es (startState format es file) where
  recorded := h
  longer := le_refl _
  numbered := by
    intro hroom
    refine ⟨hroom.1, ?_, initNextSeq_recorded hformat h⟩
    rw [startState, Nat.sub_self, Nat.add_zero]

/-- A process that starts finds the next number. -/
theorem Whole.restart (hformat : format.Lawful) (h : Whole format es s) :
    Whole format es { s with recovery := .new format s.file } where
  recorded := h.recorded
  longer := h.longer
  numbered hroom :=
    ⟨(h.numbered hroom).1, (h.numbered hroom).2.1, initNextSeq_recorded hformat h.recorded⟩

theorem Whole.write (h : Whole format es s) (call : Call) :
    Whole format es (stepEvent format s (.write call)) where
  recorded := h.recorded.append call.order (call.entry s.recovery)
  longer := by
    have hlength : s.written.length ≤ (s.written ++ [call.entry s.recovery]).length := by simp
    exact h.longer.trans hlength
  numbered := by
    intro hroom
    have hlonger := h.longer
    have hnew : (highestSeq es).toNat + (s.written.length + 1 - es.length) < 2 ^ 64 := by
      have hcount := hroom.2
      rw [stepEvent, List.length_append, List.length_singleton] at hcount
      exact hcount
    -- There was room for the entry, so its number does not wrap.
    rcases h.numbered ⟨hroom.1, by omega⟩ with ⟨hincreasing, hhighest, hnext⟩
    have hseq : (call.entry s.recovery).seq = highestSeq s.written + 1 := hnext
    have hvalue : (call.entry s.recovery).seq.toNat = (highestSeq s.written).toNat + 1 := by
      rw [hseq, UInt64.toNat_add]
      exact Nat.mod_eq_of_lt (by change _ + 1 < _; omega)
    have hmax : highestSeq (s.written ++ [call.entry s.recovery]) =
        (call.entry s.recovery).seq := by
      rw [← UInt64.toNat_inj, highestSeq_append, toNat_max, hvalue]
      exact max_eq_right (Nat.le_succ _)
    refine ⟨?_, ?_, ?_⟩
    · change ((s.written ++ [call.entry s.recovery]).map JournalEntry.seq).Pairwise (· < ·)
      rw [List.map_append, List.pairwise_append]
      refine ⟨hincreasing, List.pairwise_singleton _ _, fun a ha b hb => ?_⟩
      rcases List.mem_map.mp ha with ⟨e, he, rfl⟩
      have hle := seq_le_highestSeq he
      rw [List.mem_singleton.mp hb, UInt64.lt_iff_toNat_lt]
      omega
    · change (highestSeq (s.written ++ [call.entry s.recovery])).toNat =
        (highestSeq es).toNat + ((s.written ++ [call.entry s.recovery]).length - es.length)
      rw [hmax, hvalue, hhighest, List.length_append, List.length_singleton]
      omega
    · change s.recovery.nextSeq + 1 = highestSeq (s.written ++ [call.entry s.recovery]) + 1
      rw [hmax]
      rfl

/-- A crash between two entries is a restart, after the entry or instead of it. -/
theorem Whole.step (hformat : format.Lawful) (h : Whole format es s) {event : Event}
    (hbetween : BetweenBytes format s event) : Whole format es (stepEvent format s event) := by
  cases event with
  | write call => exact h.write call
  | crash call n =>
      by_cases hall : (call.bytes format s.recovery).length ≤ n
      · have hwrite := (h.write call).restart hformat
        simp only [stepEvent, CrashRecovery.writeJournal] at hwrite
        simp only [stepEvent, if_pos hall, List.take_of_length_le hall]
        exact hwrite
      · have hfile : Whole format es { s with file := some (s.file.getD []) } :=
          { h with recorded := h.recorded }
        have hrestart := hfile.restart hformat
        have hzero : n = 0 := hbetween.resolve_right hall
        rw [stepEvent, if_neg hall, hzero, List.take_zero, List.append_nil]
        exact hrestart

theorem Whole.intact (hformat : format.Lawful) (h : Whole format es s) : Intact format es s :=
  ⟨s.written, readJournal_recorded hformat h.recorded, List.prefix_refl _,
    fun hroom => (h.numbered hroom).1⟩

theorem whole_afterEvents (hformat : format.Lawful) (events : List Event)
    (h : Whole format es s) (hbetween : BetweenEntries format s events) :
    Whole format es (afterEvents format s events) := by
  induction events generalizing s with
  | nil => exact h
  | cons event rest ih => exact ih (h.step hformat hbetween.1) hbetween.2

theorem betweenEntries_append (front back : List Event) : BetweenEntries format s (front ++ back) ↔
      BetweenEntries format s front ∧ BetweenEntries format (afterEvents format s front) back := by
  induction front generalizing s with
  | nil => exact ⟨fun h => ⟨trivial, h⟩, fun h => h.2⟩
  | cons event front ih =>
      rw [List.cons_append, BetweenEntries, BetweenEntries, ih, and_assoc]
      rfl

theorem betweenEntries_writes (later : List Call) :
    BetweenEntries format s (List.map Event.write later) := by
  induction later generalizing s with
  | nil => trivial
  | cons call later ih => exact ⟨trivial, ih⟩

/-- A journal whose crashes are between entries is intact in every state. -/
theorem intact_of_betweenEntries (hformat : format.Lawful) (events : List Event)
    (h : Whole format es s) (hbetween : BetweenEntries format s events) :
    Survives format es s events := by
  rintro front later ⟨back, rfl⟩
  refine (whole_afterEvents hformat _ h ?_).intact hformat
  exact (betweenEntries_append _ _).mpr
    ⟨((betweenEntries_append _ _).mp hbetween).1, betweenEntries_writes later⟩

theorem not_intact_of_error {e : CrashRecoveryError} (h : readJournal format s.file = .error e) :
    ¬ Intact format es s := by
  rintro ⟨result, hread, _⟩
  rw [h] at hread
  cases hread

/-- A line that is no text is not read, whatever is around it. -/
theorem readLines_error (hformat : format.Lawful) {line : List Char} (hhead : line.head? = some '{')
    (hnot : ¬ Json.Text line) : ∃ e, readLines format [line] = .error e := by
  rw [readLines_cons format _ hhead]
  cases hread : format.fromText line with
  | error message => exact ⟨_, rfl⟩
  | ok e => exact absurd (hformat.complete _ _ hread) hnot

/-- Where a part of the text of an entry is at the end, the journal is not read. -/
theorem not_intact_cut (hformat : format.Lawful) (h : Whole format es s) (call : Call) (n : ℕ)
    (hpos : n ≠ 0)
    (hlt : n < (utf8Bytes (format.toText call.order (call.entry s.recovery))).length) :
    ¬ Intact format es (stepEvent format s (.crash call n)) := by
  generalize htext : format.toText call.order (call.entry s.recovery) = text at hlt
  have hopens : text.head? = some '{' := htext ▸ hformat.opens _ _
  have hbytes : (call.bytes format s.recovery).take n = (utf8Bytes text).take n := by
    rw [Call.bytes, lineBytes, htext, utf8Bytes_append, List.take_append_of_le_length hlt.le]
  have hlength : ((utf8Bytes text).take n).length = n := by
    rw [List.length_take]
    omega
  have hsome : (utf8Bytes text).take n ≠ [] := by
    intro hnil
    rw [hnil] at hlength
    exact hpos hlength.symm
  have hpart : (utf8Bytes text).take n ≠ utf8Bytes text := by
    intro heq
    rw [heq] at hlength
    omega
  -- What is there is the start of a line, with a replacement character where the cut is in one.
  rcases cutLine_of_torn hopens _ (List.take_prefix _ _) hsome hpart with
    ⟨cut, tail, hread, hcut, hne, hshort, htail⟩
  rcases lines_cutLine hopens (htext ▸ hformat.escapes _ _) hcut hne htail with ⟨hhead, hline⟩
  rcases readLines_error hformat hhead (not_text_of_cutLine (htext ▸ hformat.text _ _) hopens
    (htext ▸ hformat.closes _ _) hcut hne hshort htail) with ⟨e, herror⟩
  have hfile : (stepEvent format s (.crash call n)).file =
      some (s.file.getD [] ++ (utf8Bytes text).take n) := by
    rw [← hbytes]
    rfl
  rcases readJournal_bytes hformat h.recorded ((utf8Bytes text).take n) with ⟨e', herr⟩ | hmap
  · exact not_intact_of_error (hfile ▸ herr)
  · rw [hread, hline, herror] at hmap
    exact not_intact_of_error (hfile ▸ hmap)

/-- Where only the line feed is missing, the next entry makes the journal unreadable. -/
theorem not_intact_glued (hformat : format.Lawful) (h : Whole format es s) (call later : Call)
    (n : ℕ) (hn : n = (utf8Bytes (format.toText call.order (call.entry s.recovery))).length) :
    ¬ Intact format es
      (stepEvent format (stepEvent format s (.crash call n)) (.write later)) := by
  generalize htext : format.toText call.order (call.entry s.recovery) = text at hn
  generalize hnext : format.toText later.order
    (later.entry (stepEvent format s (.crash call n)).recovery) = next
  have hopens : text.head? = some '{' := htext ▸ hformat.opens _ _
  have hbytes : (call.bytes format s.recovery).take n = utf8Bytes text := by
    rw [Call.bytes, lineBytes, htext, utf8Bytes_append, hn, List.take_left]
  have hfile : (stepEvent format (stepEvent format s (.crash call n)) (.write later)).file =
      some (s.file.getD [] ++ utf8Bytes ((text ++ next) ++ ['\n'])) := by
    rw [utf8Bytes_append, utf8Bytes_append, ← hbytes, ← hnext, List.append_assoc,
      ← List.append_assoc, ← utf8Bytes_append]
    rfl
  -- The two texts are one line, and that is no text.
  have hplain : ∀ c ∈ text ++ next, 0x20 ≤ c.toNat := by
    intro c hc
    rcases List.mem_append.mp hc with hc | hc
    · exact hformat.escapes _ _ c (htext ▸ hc)
    · exact hformat.escapes _ _ c (hnext ▸ hc)
  have hhead : (text ++ next).head? = some '{' := by
    rw [List.head?_append, hopens, Option.some_or]
  rcases readLines_error hformat hhead (Json.not_text_append (htext ▸ hformat.text _ _) hopens
    (htext ▸ hformat.closes _ _) (hnext ▸ hformat.closes _ _)) with ⟨e, herror⟩
  have hread := readJournal_text hformat h.recorded ((text ++ next) ++ ['\n'])
  have hline : lines ((text ++ next) ++ ['\n']) = [text ++ next] := lines_cons _ [] hplain
  rw [hline, herror] at hread
  exact not_intact_of_error (hfile ▸ hread)

/-- A journal survives if and only if every crash is between two entries. -/
theorem survives_iff (hformat : format.Lawful) (es : List JournalEntry) (file : Option Bytes)
    (h : Recorded format es file) (events : List Event) :
    Survives format es (startState format es file) events ↔
      BetweenEntries format (startState format es file) events := by
  have hwhole := whole_start hformat h
  refine ⟨fun hsurvives => ?_, intact_of_betweenEntries hformat events hwhole⟩
  generalize startState format es file = s at hwhole hsurvives
  -- By induction on the events: a crash in an entry shows at once, or at the next entry.
  induction events generalizing s with
  | nil => trivial
  | cons event rest ih =>
      have hevent : BetweenBytes format s event := by
        cases event with
        | write call => trivial
        | crash call n =>
            by_contra hbetween
            rw [BetweenBytes, not_or, Call.bytes, lineBytes, utf8Bytes_append,
              List.length_append] at hbetween
            have hfeed : (utf8Bytes ['\n']).length = 1 := by decide
            by_cases hlt : n <
                (utf8Bytes (format.toText call.order (call.entry s.recovery))).length
            · exact not_intact_cut hformat hwhole call n hbetween.1 hlt
                (hsurvives [.crash call n] [] (List.prefix_append _ rest))
            · exact not_intact_glued hformat hwhole call call n (by omega)
                (hsurvives [.crash call n] [call] (List.prefix_append _ rest))
      refine ⟨hevent, ih _ (hwhole.step hformat hevent) fun front later hfront => ?_⟩
      exact hsurvives (event :: front) later (List.cons_prefix_cons.mpr ⟨rfl, hfront⟩)

/-- A call of a session. -/
noncomputable def exampleCall : Call :=
  { timestamp := 1700000000, operation := "profile_switch", payload := ∅, order := default }

/-- A process that dies before it writes anything, and one that writes after it. -/
theorem survives_restart : Survives compactFormat [] (startState compactFormat [] none)
      [.write exampleCall, .crash exampleCall 0, .write exampleCall] :=
  (survives_iff compactFormat_lawful [] none ⟨[], .nil, rfl⟩ _).mpr
    ⟨trivial, .inl rfl, trivial, trivial⟩

/-- The first byte of an entry makes the journal unreadable. -/
theorem not_survives_brace :
    ¬ ∀ (format : JournalFormat), format.Lawful → ∀ (es : List JournalEntry) (file : Option Bytes),
      Recorded format es file → ∀ events,
        Survives format es (startState format es file) events := by
  intro h
  have hrecorded : Recorded compactFormat [] none := ⟨[], .nil, rfl⟩
  have hlength : 1 < (utf8Bytes (compactFormat.toText exampleCall.order (exampleCall.entry
      (startState compactFormat [] none).recovery))).length := by
    have hstart : ∃ rest, compactFormat.toText exampleCall.order (exampleCall.entry
        (startState compactFormat [] none).recovery) = '{' :: '"' :: rest := ⟨_, rfl⟩
    rcases hstart with ⟨rest, hrest⟩
    have hbrace : (String.utf8EncodeChar '{').length = 1 := by decide
    have hquote : (String.utf8EncodeChar '"').length = 1 := by decide
    rw [hrest, utf8Bytes_cons, utf8Bytes_cons, List.length_append, List.length_append, hbrace,
      hquote]
    omega
  exact not_intact_cut compactFormat_lawful (whole_start compactFormat_lawful hrecorded)
    exampleCall 1 (by decide) hlength
    (h compactFormat compactFormat_lawful [] none hrecorded [.crash exampleCall 1]
      [.crash exampleCall 1] [] (List.prefix_refl _))

end

end OpenFlight.Session
