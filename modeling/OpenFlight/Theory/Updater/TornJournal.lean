import OpenFlight.Core.Updater.Journal
import Mathlib.Data.Bool.AllAny

/-!
# Journals that Were Cut Off

What the journal makes of its file when the process died while an entry was
appended.

The entries before the last line are whole, and they are read in order. The last
line is a part of the text of an entry, with a replacement character at its end if
the cut goes through a character. An entry is an object of JSON, and no start of an
object is a text of its own. So the line cannot be read unless the whole text is
there, and the error of one line is the error of all of them: a journal that was cut
off is unreadable, and with it the entries that are whole.

## Main definitions

* `JournalFormat.Lawful`: What the library is relied on for.
* `ReadsBack`: The entries that are whole are read.

## Theorems

* `tornJournal_reads_iff`: A journal that was cut off.
-/

namespace OpenFlight.Updater.Journal

variable (format : JournalFormat)

/-- What is relied on: entries are written as objects on one line, with nothing around them and
    control characters escaped; what is written is read back; and only texts of JSON are read. -/
structure JournalFormat.Lawful (format : JournalFormat) : Prop where
  text : ∀ e, Json.Text (format.toText e)
  opens : ∀ e, (format.toText e).head? = some '{'
  closes : ∀ e, (format.toText e).getLast? = some '}'
  escapes : ∀ e, ∀ c ∈ format.toText e, 0x20 ≤ c.toNat
  roundTrip : ∀ e, format.fromText (format.toText e) = .ok e
  complete : ∀ s e, format.fromText s = .ok e → Json.Text s

section

variable (body : List Char)

theorem splitInclusive_line (rest : List Char) (h : '\n' ∉ body) :
    splitInclusive (body ++ '\n' :: rest) = (body ++ ['\n']) :: splitInclusive rest := by
  induction body with
  | nil => rfl
  | cons c body ih =>
      rw [List.mem_cons, not_or] at h
      rw [List.cons_append, splitInclusive, if_neg (Ne.symm h.1), ih h.2]
      rfl

theorem splitInclusive_last (h : '\n' ∉ body) (hne : body ≠ []) : splitInclusive body = [body] := by
  induction body with
  | nil => exact absurd rfl hne
  | cons c body ih =>
      rw [List.mem_cons, not_or] at h
      rw [splitInclusive, if_neg (Ne.symm h.1)]
      cases body with
      | nil => rfl
      | cons d body => rw [ih h.2 (by simp)]

/-- A line that ends is its body, if the body is of characters that are not controls. -/
theorem stripEnd_line (h : ∀ c ∈ body, 0x20 ≤ c.toNat) : stripEnd (body ++ ['\n']) = body := by
  have hreturn : body.getLast? ≠ some '\r' := by
    intro hlast
    exact absurd (h _ (List.mem_of_getLast? hlast)) (by decide)
  rw [stripEnd, List.getLast?_concat, if_pos rfl, List.dropLast_concat, if_neg hreturn]

theorem newline_not_mem {body : List Char} (h : ∀ c ∈ body, 0x20 ≤ c.toNat) : '\n' ∉ body :=
  fun hmem => absurd (h _ hmem) (by decide)

theorem lines_cons (rest : List Char) (h : ∀ c ∈ body, 0x20 ≤ c.toNat) :
    lines (body ++ '\n' :: rest) = body :: lines rest := by
  rw [lines, splitInclusive_line body rest (newline_not_mem h), List.map_cons,
    stripEnd_line body h]
  rfl

/-- What stands after the last line feed is a line, if it is anything. -/
theorem lines_last (h : '\n' ∉ body) (hne : body ≠ []) : lines body = [body] := by
  have hend : body.getLast? ≠ some '\n' := fun hlast => h (List.mem_of_getLast? hlast)
  rw [lines, splitInclusive_last body h hne, List.map_singleton, stripEnd, if_neg hend]

/-- The text of a journal. -/
def recordsText (es : List StampedEntry) : List Char :=
  es.flatMap fun e => format.toText e ++ ['\n']

/-- Texts without controls, each with a line feed after it, are the first lines. -/
theorem lines_texts (texts : List (List Char)) (h : ∀ text ∈ texts, ∀ c ∈ text, 0x20 ≤ c.toNat)
    (rest : List Char) :
    lines ((texts.flatMap fun text => text ++ ['\n']) ++ rest) = texts ++ lines rest := by
  induction texts with
  | nil => rfl
  | cons text texts ih =>
      rw [List.forall_mem_cons] at h
      have hline : ((text :: texts).flatMap fun text => text ++ ['\n']) ++ rest =
          text ++ '\n' :: ((texts.flatMap fun text => text ++ ['\n']) ++ rest) := by
        simp
      rw [hline, lines_cons _ _ h.1, ih h.2]
      rfl

/-- The lines of a journal. -/
theorem lines_records (hformat : format.Lawful) (es : List StampedEntry) (rest : List Char) :
    lines (recordsText format es ++ rest) = es.map format.toText ++ lines rest := by
  have hlines := lines_texts (es.map format.toText)
    (List.forall_mem_map.mpr fun e _ => hformat.escapes e) rest
  rw [List.flatMap_map] at hlines
  exact hlines

end

/-- The first character of an entry is not white space. -/
theorem trim_ne_nil {line : List Char} (h : line.head? = some '{') :
    (Rules.trim line).isEmpty = false := by
  cases line with
  | nil => exact absurd h (by simp)
  | cons c rest =>
      rw [List.head?_cons, Option.some.injEq] at h
      subst h
      rw [List.isEmpty_eq_false_iff, Rules.trim, trimBy,
        List.dropWhile_cons_of_neg (by decide), ne_eq, List.rdropWhile_eq_nil_iff]
      exact fun hall => absurd (hall '{' List.mem_cons_self) (by decide)

theorem readLines_cons {line : List Char} (rest : List (List Char))
    (h : line.head? = some '{') :
    readLines format (line :: rest) = (do
      let e ← (format.fromText line).mapError .serialization
      let later ← readLines format rest
      pure (e :: later)) := by
  rw [readLines, if_neg (by rw [trim_ne_nil h]; simp)]

theorem readLines_records (hformat : format.Lawful) (es : List StampedEntry)
    (rest : List (List Char)) :
    readLines format (es.map format.toText ++ rest) =
      (readLines format rest).map (es ++ ·) := by
  induction es with
  | nil =>
      rw [List.map_nil, List.nil_append]
      cases readLines format rest <;> rfl
  | cons e es ih =>
      rw [List.map_cons, List.cons_append, readLines_cons format _ (hformat.opens e),
        hformat.roundTrip, ih]
      cases readLines format rest <;> rfl

theorem run_record_some (data : Bytes) (es : List StampedEntry) :
    run (record format) (some data) es = some (data ++ utf8Bytes (recordsText format es)) := by
  induction es generalizing data with
  | nil => exact congrArg some (List.append_nil _).symm
  | cons e es ih =>
      have htext : recordsText format (e :: es) =
          (format.toText e ++ ['\n']) ++ recordsText format es := List.flatMap_cons
      rw [run_cons, record, Option.getD_some, ih, htext, utf8Bytes_append, recordBytes,
        List.append_assoc]

/-- The file of a journal is the bytes of its text. -/
theorem run_record (es : List StampedEntry) : run (record format) none es =
      if es = [] then none else some (utf8Bytes (recordsText format es)) := by
  cases es with
  | nil => rfl
  | cons e es =>
      have hfirst : record format none e = record format (some []) e := rfl
      rw [run_cons, hfirst, ← run_cons, run_record_some, if_neg (by simp), List.nil_append]

/-- The entries of a journal with more bytes after them. -/
theorem entries_append (hformat : format.Lawful) (es : List StampedEntry) (bytes : Bytes) :
    entries format (some ((run (record format) none es).getD [] ++ bytes)) =
      (readLines format (lines (fromUtf8Lossy bytes))).map (es ++ ·) := by
  have hfile : (run (record format) none es).getD [] = utf8Bytes (recordsText format es) := by
    rw [run_record]
    by_cases hnone : es = []
    · rw [if_pos hnone, hnone]
      rfl
    · rw [if_neg hnone, Option.getD_some]
  rw [hfile, entries, fromUtf8Lossy_append, lines_records format hformat,
    readLines_records format hformat]

section

open Json

theorem skip_append (token rest : List Char) : skip token (token ++ rest) = some rest := by
  rw [skip, if_pos (List.isPrefixOf_iff_prefix.mpr (List.prefix_append _ _)), List.drop_left]

theorem readField_escaped (name : String) (s rest : List Char) :
    readField name (fieldToken name ++ (escaped s ++ '"' :: rest)) = some (s, rest) := by
  rw [readField, skip_append, Option.bind_some, readChars_escaped]

theorem stateNamed_name (state : UpdateState) : stateNamed state.name.toList = some state := by
  cases state <;> decide +kernel

/-- The digits of a number end at the next field. -/
theorem takeWhile_toDigits (n : Nat) (name : String) (rest : List Char) :
    (Nat.toDigits 10 n ++ (fieldToken name ++ rest)).takeWhile Char.isDigit =
      Nat.toDigits 10 n := by
  have hdigits : ∀ c ∈ Nat.toDigits 10 n, c.isDigit = true :=
    fun c hc => Nat.isDigit_of_mem_toDigits (by omega) (by omega) hc
  rw [fieldToken, List.cons_append, List.takeWhile_append_of_pos hdigits,
    List.takeWhile_cons_of_neg (by decide), List.append_nil]

variable (e : StampedEntry)

theorem readEntry_entryText : readEntry (entryText e) = some e := by
  have htime : Nat.ofDigitChars 10 (Nat.toDigits 10 e.timestamp.toNat) 0 = e.timestamp.toNat :=
    Nat.ofDigitChars_toDigits (by omega) (by omega)
  simp only [readEntry, entryText, skip_append, Option.bind_eq_bind, Option.bind_some,
    takeWhile_toDigits, List.drop_left, readField_escaped, stateNamed_name, htime,
    UInt64.ofNat_toNat, String.ofList_toList]
  rfl

theorem compactFormat_roundTrip : compactFormat.fromText (compactFormat.toText e) = .ok e := by
  simp only [compactFormat, readEntry_entryText, if_true]

/-- The compact text of an entry is an object with four members. -/
theorem entryText_object : entryText e = '{' :: ([','].intercalate ([
      ("timestamp".toList, Nat.toDigits 10 e.timestamp.toNat),
      ("state".toList, quoted (escaped e.entry.state.name.toList)),
      ("version".toList, quoted (escaped e.entry.version.toList)),
      ("detail".toList, quoted (escaped e.entry.detail.toList))].map
        fun f => quoted f.1 ++ ':' :: f.2) ++ ['}']) := by
  simp only [entryText, timestampToken, fieldToken, quoted, List.map_cons, List.map_nil,
    List.intercalate_cons_cons, List.intercalate_singleton, List.cons_append, List.nil_append,
    List.append_assoc]

/-- A name without anything to escape. -/
theorem chars_of_plain {s : List Char}
    (h : ∀ c ∈ s, c ≠ '"' ∧ c ≠ '\\' ∧ 0x20 ≤ c.toNat) : Chars s := by
  induction s with
  | nil => exact .nil
  | cons c s ih =>
      rw [List.forall_mem_cons] at h
      exact .plain c s h.1.1 h.1.2.1 h.1.2.2 (ih h.2)

theorem text_entryText : Text (entryText e) := by
  rw [entryText_object]
  refine .fields _ ?_
  simp only [List.forall_mem_cons]
  refine ⟨⟨?_, .number _ (isNumber_toDigits _)⟩, ⟨?_, .string _ (chars_escaped _)⟩,
    ⟨?_, .string _ (chars_escaped _)⟩, ⟨?_, .string _ (chars_escaped _)⟩, by simp⟩
  all_goals exact chars_of_plain (List.all_iff_forall_prop.mp (by decide +kernel))

theorem printable_entryText : ∀ c ∈ entryText e, 0x20 ≤ c.toNat := by
  have hdigits : ∀ c ∈ Nat.toDigits 10 e.timestamp.toNat, 0x20 ≤ c.toNat := by
    intro c hc
    refine printable_of_isHexDigit ?_
    rw [isHexDigit, Nat.isDigit_of_mem_toDigits (by omega) (by omega) hc, Bool.true_or,
      Bool.true_or]
  have hname : ∀ s : List Char, ∀ c ∈ escaped s, 0x20 ≤ c.toNat :=
    fun s => printable_of_chars (chars_escaped s)
  have htimestamp : ∀ c ∈ timestampToken, 0x20 ≤ c.toNat :=
    List.all_iff_forall_prop.mp (by decide +kernel)
  have hstate : ∀ c ∈ fieldToken "state", 0x20 ≤ c.toNat :=
    List.all_iff_forall_prop.mp (by decide +kernel)
  have hversion : ∀ c ∈ fieldToken "version", 0x20 ≤ c.toNat :=
    List.all_iff_forall_prop.mp (by decide +kernel)
  have hdetail : ∀ c ∈ fieldToken "detail", 0x20 ≤ c.toNat :=
    List.all_iff_forall_prop.mp (by decide +kernel)
  have hquote : 0x20 ≤ '"'.toNat := by decide
  simp only [entryText, List.forall_mem_append, List.forall_mem_cons]
  exact ⟨htimestamp, hdigits, hstate, hname _, hquote, hversion, hname _, hquote, hdetail,
    hname _, hquote, by decide, by simp⟩

/-- The compact format is one that can be relied on. -/
theorem compactFormat_lawful : compactFormat.Lawful where
  text := text_entryText
  opens _ := rfl
  closes e := by
    have hend : compactFormat.toText e = entryText e := rfl
    rw [hend, entryText_object, ← List.cons_append]
    exact List.getLast?_concat
  escapes := printable_entryText
  roundTrip := compactFormat_roundTrip
  complete s e h := by
    unfold compactFormat at h
    cases hread : readEntry s with
    | none =>
        simp only [hread] at h
        exact absurd h (by simp)
    | some e' =>
        simp only [hread] at h
        split_ifs at h with hwhole
        exact hwhole ▸ text_entryText e'

end

/-- The entries that are whole are read, in order, and so is the state of the update. -/
def ReadsBack (es : List StampedEntry) (file : Option Bytes) : Prop :=
  (∃ result, entries format file = .ok result ∧ es <+: result) ∧
    ∃ last, checkIncomplete format file = .ok last

theorem readsBack_of_entries {es result : List StampedEntry} {file : Option Bytes}
    (h : entries format file = .ok result) (hes : es <+: result) : ReadsBack format es file := by
  refine ⟨⟨result, h, hes⟩, lastUnfinished result, ?_⟩
  rw [checkIncomplete, h]
  rfl

/-- A line that was cut off is a start of the text, perhaps with a replacement character
    after it. -/
theorem cutLine_of_torn {text : List Char} (hopens : text.head? = some '{') (torn : Bytes)
    (htorn : torn <+: utf8Bytes text) (hsome : torn ≠ []) (hpart : torn ≠ utf8Bytes text) :
    ∃ cut tail, fromUtf8Lossy torn = cut ++ tail ∧ cut <+: text ∧ cut ≠ [] ∧ cut ≠ text ∧
      ∀ c ∈ tail, c = replacementCharacter := by
  rcases fromUtf8Lossy_prefix _ _ htorn with ⟨cut, hcut, ⟨rfl, hread⟩ | ⟨⟨c, hc, hhigh⟩, hread⟩⟩
  · refine ⟨cut, [], by rw [hread, List.append_nil], hcut, ?_, ?_, by simp⟩
    · rintro rfl
      exact hsome rfl
    · rintro rfl
      exact hpart rfl
  · refine ⟨cut, [replacementCharacter], hread, hcut, ?_, ?_, by simp⟩
    · -- The first character of an object is one byte.
      rintro rfl
      rw [List.nil_append] at hc
      rcases hc with ⟨rest, hrest⟩
      rw [← hrest, List.singleton_append, List.head?_cons, Option.some.injEq] at hopens
      rw [hopens] at hhigh
      exact absurd hhigh (by decide)
    · rintro rfl
      have hlength := hc.length_le
      rw [List.length_append, List.length_singleton] at hlength
      omega

/-- The start of an object is no text, also with a replacement character after it. -/
theorem not_text_of_cutLine {text : List Char} (htext : Json.Text text)
    (hopens : text.head? = some '{') (hcloses : text.getLast? = some '}') {cut tail : List Char}
    (hcut : cut <+: text) (hsome : cut ≠ []) (hpart : cut ≠ text)
    (htail : ∀ c ∈ tail, c = replacementCharacter) : ¬ Json.Text (cut ++ tail) := by
  rcases Json.object_of_text htext hopens hcloses with ⟨body, rfl, hbalanced⟩
  refine Json.not_text_of_cut hbalanced hcut hsome hpart fun c hc => ?_
  rw [htail c hc]
  decide

/-- A line that was cut off is one line that is not blank. -/
theorem lines_cutLine {text : List Char} (hopens : text.head? = some '{')
    (hplain : ∀ c ∈ text, 0x20 ≤ c.toNat) {cut tail : List Char} (hcut : cut <+: text)
    (hsome : cut ≠ []) (htail : ∀ c ∈ tail, c = replacementCharacter) :
    (cut ++ tail).head? = some '{' ∧ lines (cut ++ tail) = [cut ++ tail] := by
  constructor
  · rw [List.head?_append_of_ne_nil _ hsome]
    rcases hcut with ⟨rest, rfl⟩
    rw [List.head?_append_of_ne_nil _ hsome] at hopens
    exact hopens
  · refine lines_last _ ?_ (by simp [hsome])
    rw [List.mem_append, not_or]
    refine ⟨fun hmem => newline_not_mem hplain (hcut.subset hmem), fun hmem => ?_⟩
    exact absurd (htail _ hmem) (by decide)

/-- A line that was cut off is not read. -/
theorem fromText_cut (hformat : format.Lawful) (next : StampedEntry) (cut tail : List Char)
    (hcut : cut <+: format.toText next) (hsome : cut ≠ []) (hpart : cut ≠ format.toText next)
    (htail : ∀ c ∈ tail, c = replacementCharacter) :
    ∃ message, format.fromText (cut ++ tail) = .error message := by
  cases hread : format.fromText (cut ++ tail) with
  | error message => exact ⟨message, rfl⟩
  | ok e =>
      exact absurd (hformat.complete _ _ hread) (not_text_of_cutLine (hformat.text next)
        (hformat.opens next) (hformat.closes next) hcut hsome hpart htail)

/-- A journal that was cut off while an entry was appended is read exactly if nothing of
    the entry was written or its text is whole. -/
theorem tornJournal_reads_iff (hformat : format.Lawful) (es : List StampedEntry)
    (next : StampedEntry) (torn : Bytes) (htorn : torn <+: recordBytes format next) :
    ReadsBack format es (some ((run (record format) none es).getD [] ++ torn)) ↔
      torn = [] ∨ utf8Bytes (format.toText next) <+: torn := by
  have hentries := entries_append format hformat es torn
  have hopens := hformat.opens next
  have hplain := hformat.escapes next
  have hnewline := newline_not_mem hplain
  have hne : format.toText next ≠ [] := by
    intro hnil
    rw [hnil] at hopens
    exact absurd hopens (by simp)
  by_cases hnone : torn = []
  · refine ⟨fun _ => Or.inl hnone, fun _ => ?_⟩
    rw [hnone] at hentries ⊢
    exact readsBack_of_entries format hentries (List.prefix_append _ _)
  by_cases hwhole : utf8Bytes (format.toText next) <+: torn
  · -- At most the line feed is missing, which makes no difference for the last line.
    refine ⟨fun _ => Or.inr hwhole, fun _ => ?_⟩
    have hline : lines (fromUtf8Lossy torn) = [format.toText next] := by
      rcases hwhole with ⟨rest, rfl⟩
      rw [recordBytes, utf8Bytes_append, List.prefix_append_right_inj] at htorn
      rw [fromUtf8Lossy_append]
      rcases List.prefix_cons_iff.mp htorn with rfl | ⟨rest, rfl, hrest⟩
      · rw [show fromUtf8Lossy [] = [] from rfl, List.append_nil, lines_last _ hnewline hne]
      · rw [List.prefix_nil.mp hrest, show fromUtf8Lossy [_] = ['\n'] from rfl,
          lines_cons _ _ hplain]
        rfl
    rw [hline, readLines_cons format _ hopens, hformat.roundTrip] at hentries
    exact readsBack_of_entries format hentries (List.prefix_append _ _)
  · -- Part of an object is left, and no parser takes it.
    refine ⟨fun hreads => ?_, fun h => absurd h (not_or.mpr ⟨hnone, hwhole⟩)⟩
    have hcut : torn <+: utf8Bytes (format.toText next) := by
      rw [recordBytes, utf8Bytes_append] at htorn
      exact (List.prefix_or_prefix_of_prefix htorn (List.prefix_append _ _)).resolve_right hwhole
    have hpart : torn ≠ utf8Bytes (format.toText next) := by
      rintro rfl
      exact hwhole (List.prefix_refl _)
    rcases cutLine_of_torn hopens torn hcut hnone hpart with
      ⟨cut, tail, hread, htext, hsome, hshort, htail⟩
    rcases fromText_cut format hformat next cut tail htext hsome hshort htail with
      ⟨message, hmessage⟩
    rcases lines_cutLine hopens hplain htext hsome htail with ⟨hhead, hline⟩
    rw [hread, hline, readLines_cons format _ hhead, hmessage]
      at hentries
    rcases hreads.1 with ⟨result, hok, -⟩
    rw [hentries] at hok
    exact absurd hok (by simp [bind, Except.bind, Except.mapError, Except.map])

/-- An entry that was written before the crash. -/
def exampleEntry : StampedEntry :=
  { timestamp := 1700000000
    entry := { state := .downloading, version := "1.1.0", detail := "Fetching" } }

/-- The entry that the crash hits. -/
def nextEntry : StampedEntry :=
  { timestamp := 1700000001
    entry := { state := .verifying, version := "1.1.0", detail := "Überprüfung" } }

/-- Only the line feed is missing. -/
theorem torn_before_newline : ReadsBack compactFormat [exampleEntry]
      (some ((run (record compactFormat) none [exampleEntry]).getD [] ++
        utf8Bytes (compactFormat.toText nextEntry))) := by
  refine (tornJournal_reads_iff compactFormat compactFormat_lawful [exampleEntry] nextEntry _
    ?_).mpr (Or.inr (List.prefix_refl _))
  rw [recordBytes, utf8Bytes_append]
  exact List.prefix_append _ _

/-- The first byte of an entry makes the journal unreadable. -/
theorem torn_after_brace : ¬ ∀ (format : JournalFormat), format.Lawful →
      ∀ (es : List StampedEntry) (next : StampedEntry) (torn : Bytes),
        torn <+: recordBytes format next →
          ReadsBack format es (some ((run (record format) none es).getD [] ++ torn)) := by
  intro hall
  have hreads := hall compactFormat compactFormat_lawful [exampleEntry] nextEntry [0x7B]
    (by decide +kernel)
  rcases hreads.1 with ⟨result, hresult, -⟩
  have herror : entries compactFormat
      (some ((run (record compactFormat) none [exampleEntry]).getD [] ++ [0x7B])) =
        .error (.serialization "expected an entry") := by
    decide +kernel
  rw [herror] at hresult
  exact absurd hresult (by simp)

end OpenFlight.Updater.Journal
