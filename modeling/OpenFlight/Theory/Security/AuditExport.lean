import OpenFlight.Core.Security.AuditLog
import OpenFlight.Lib.CircularBuffer
import OpenFlight.Lib.JsonValue
import Mathlib.Data.Finset.Max

/-!
# What the Audit Export Says

Exactly when the export of the audit log is read as the entries that the log retains.

An entry is written faithfully if the three texts that the export copies have nothing
in them that JSON would escape, and the details, whose quotes and backslashes are
escaped, have no control characters.

Nothing else will do, whatever the texts say. The texts stand between the separators of
the object, and what makes the lexer leave a text anywhere but in a string runs into a
name without quotes. So the strings that are read from a text have their room in it. A
text with something to escape needs more room than it has itself. It could only be read
from a longer text that is written next to it, with a name of its own, but then the
longest of these texts is read from nowhere.

## Main definitions

* `retained`: The entries that a log retains, told from the calls.
* `Represents`, `Faithful`: What is asked of the export.

## Theorems

* `export_faithful_iff`: Both together, after any calls.
-/

namespace OpenFlight.Security

open Json

/-- Whether a log is enabled, and what it was given to keep since it was cleared. -/
structure Heard where
  enabled : Bool
  entries : List AuditEntry

def Heard.take (h : Heard) (e : AuditEntry) : Heard :=
  if h.enabled then { h with entries := h.entries ++ [e] } else h

def hear (h : Heard) : AuditCall → Heard
  | .record e => h.take e
  | .recordEvent now category severity actor action resource outcome details =>
      h.take ⟨now, category, severity, actor, action, resource, outcome, details⟩
  | .enable => { h with enabled := true }
  | .disable => { h with enabled := false }
  | .clear => { h with entries := [] }

/-- The entries that a log retains: the newest ones, as many as it has room for and one at least. -/
def retained (maxEntries : Nat) (calls : List AuditCall) : List AuditEntry :=
  (run hear ⟨true, []⟩ calls).entries.rtake (max 1 maxEntries)

/-- A log without room has one entry to drop, if any. -/
theorem rtake_concat (maxEntries : Nat) (all : List AuditEntry) (e : AuditEntry) :
    (all ++ [e]).rtake (max 1 maxEntries) =
      if (all.rtake (max 1 maxEntries)).length ≥ maxEntries then
        (all.rtake (max 1 maxEntries)).tail ++ [e]
      else all.rtake (max 1 maxEntries) ++ [e] := by
  cases maxEntries with
  | zero =>
      have hdrop := drop_rtake_succ all 0
      rw [Nat.max_zero, List.rtake_concat_succ, if_pos (Nat.zero_le _), ← hdrop, List.drop_one]
      split_ifs with hlen
      · rfl
      · have hnil : all.rtake (0 + 1) = [] := List.eq_nil_of_length_eq_zero (by omega)
        rw [hnil]
        rfl
  | succ n =>
      have hdrop := drop_rtake_succ all n
      rw [Nat.max_eq_right (by omega), List.rtake_concat_succ, ← hdrop, List.drop_one]
      split_ifs <;> rfl

/-- A log and what it heard. -/
def Agrees (maxEntries : Nat) (log : AuditLog) (h : Heard) : Prop :=
  log.maxEntries = maxEntries ∧ log.enabled = h.enabled ∧
    log.entries = h.entries.rtake (max 1 maxEntries)

theorem agrees_take {maxEntries : Nat} {log : AuditLog} {h : Heard}
    (hlog : Agrees maxEntries log h) (e : AuditEntry) :
    Agrees maxEntries (log.record e) (h.take e) := by
  rcases hlog with ⟨hmax, henabled, hentries⟩
  unfold AuditLog.record Heard.take
  rw [henabled]
  by_cases hon : h.enabled = true
  · rw [if_neg (by simp [hon]), if_pos hon]
    have hnext := rtake_concat maxEntries h.entries e
    rw [← hentries] at hnext
    rw [hmax]
    split_ifs at hnext ⊢ with hfull
    · exact ⟨rfl, rfl, hnext.symm⟩
    · exact ⟨rfl, rfl, hnext.symm⟩
  · rw [if_pos (by simp [hon]), if_neg hon]
    exact ⟨hmax, henabled, hentries⟩

theorem agrees_step {maxEntries : Nat} {log : AuditLog} {h : Heard}
    (hlog : Agrees maxEntries log h) (call : AuditCall) :
    Agrees maxEntries (log.after call) (hear h call) := by
  cases call with
  | record e => exact agrees_take hlog e
  | recordEvent => exact agrees_take hlog _
  | enable => exact ⟨hlog.1, rfl, hlog.2.2⟩
  | disable => exact ⟨hlog.1, rfl, hlog.2.2⟩
  | clear => exact ⟨hlog.1, hlog.2.1, List.rtake_nil _ |>.symm⟩

/-- After any calls a log holds what it should retain. -/
theorem after_entries (maxEntries : Nat) (calls : List AuditCall) :
    (run AuditLog.after (.new maxEntries) calls).entries = retained maxEntries calls := by
  have hrun : ∀ (log : AuditLog) (h : Heard), Agrees maxEntries log h →
      Agrees maxEntries (run AuditLog.after log calls) (run hear h calls) := by
    induction calls with
    | nil => exact fun _ _ hlog => hlog
    | cons call rest ih =>
        intro log h hlog
        exact ih _ _ (agrees_step hlog call)
  exact (hrun (.new maxEntries) ⟨true, []⟩ ⟨rfl, rfl, List.rtake_nil _ |>.symm⟩).2.2

/-- The object of an entry: its texts and its details are the recorded ones. -/
def Represents (v : Value) (e : AuditEntry) : Prop :=
  v.field "actor".toList = some (.string e.actor.toList) ∧
  v.field "action".toList = some (.string e.action.toList) ∧
  v.field "resource".toList = some (.string e.resource.toList) ∧
  v.field "details".toList = some (e.details.elim .null fun d => .string d.toList)

/-- The text can be read, and as an array with one object per entry, in order. -/
def Faithful (text : List Char) (entries : List AuditEntry) : Prop :=
  (∃ v, Reads text v) ∧ ∀ v, Reads text v →
    ∃ objects, v = .array objects ∧ List.Forall₂ Represents objects entries

namespace AuditEntry

/-- The texts that are written as they are. -/
def texts (e : AuditEntry) : List (List Char) :=
  [e.actor.toList, e.action.toList, e.resource.toList]

/-- The details, without control characters. -/
def DetailsPlain (e : AuditEntry) : Prop :=
  ∀ d ∈ e.details, ∀ c ∈ d.toList, 0x20 ≤ c.toNat

/-- Nothing that the export leaves as it is would have to be escaped. -/
def Plain (e : AuditEntry) : Prop :=
  (∀ text ∈ e.texts, Verbatim text) ∧ e.DetailsPlain

def detailsValue (e : AuditEntry) : Value :=
  e.details.elim .null fun d => .string d.toList

/-- What a plain entry is read as. -/
def value (e : AuditEntry) : Value :=
  .object
    [("timestamp".toList, .number (Nat.toDigits 10 e.seconds)),
      ("category".toList, .string (fmtCategory e.category).toList),
      ("severity".toList, .string (fmtSeverity e.severity).toList),
      ("actor".toList, .string e.actor.toList),
      ("action".toList, .string e.action.toList),
      ("resource".toList, .string e.resource.toList),
      ("outcome".toList, .string (fmtOutcome e.outcome).toList),
      ("details".toList, e.detailsValue)]

end AuditEntry

theorem represents_value (e : AuditEntry) : Represents e.value e :=
  ⟨rfl, rfl, rfl, rfl⟩

theorem verbatim_fmtCategory (c : AuditCategory) : Verbatim (fmtCategory c).toList := by
  cases c <;> decide

theorem verbatim_fmtSeverity (s : AuditSeverity) : Verbatim (fmtSeverity s).toList := by
  cases s <;> decide

theorem verbatim_fmtOutcome (o : AuditOutcome) : Verbatim (fmtOutcome o).toList := by
  cases o <;> decide

/-- A member whose value is a string that is written as it is. -/
theorem lexes_nextMember {name : String} {value : List Char} (hname : Verbatim name.toList)
    (hvalue : Verbatim value) : Lexes .outside (nextMember name (quoted value)) .outside
      [.comma, .string name.toList, .colon, .string value] := by
  have hcomma : Lexes .outside [','] .outside [.comma] := rfl
  have hcolon : Lexes .outside [':'] .outside [.colon] := rfl
  exact hcomma.append ((lexes_quoted hname).append (hcolon.append (lexes_quoted hvalue)))

/-- What the details are escaped to, one character at a time. -/
theorem escapeDetails_cons (c : Char) (d : List Char) : escapeDetails (c :: d) =
    (if c = '"' ∨ c = '\\' then ['\\', c] else [c]) ++ escapeDetails d := by
  unfold escapeDetails replace
  rw [List.flatMap_cons, List.flatMap_append]
  congr 1
  by_cases hslash : c = '\\'
  · subst hslash
    rfl
  · rw [if_neg hslash, List.flatMap_singleton]
    by_cases hquote : c = '"'
    · rw [if_pos hquote, if_pos (Or.inl hquote), hquote]
    · rw [if_neg hquote, if_neg (not_or.mpr ⟨hquote, hslash⟩)]

/-- Details are read back unless they have control characters. -/
theorem lexes_escapeDetails_iff (d s : List Char) (m : LexMode) (tokens : List Token) :
    Lexes (.inside s) (escapeDetails d) m tokens ↔
      (∀ c ∈ d, 0x20 ≤ c.toNat) ∧ m = .inside (s ++ d) ∧ tokens = [] := by
  induction d generalizing s with
  | nil =>
      rw [List.append_nil]
      exact lexes_nil_iff.trans (iff_of_eq (by simp))
  | cons c d ih =>
      have hassoc : s ++ c :: d = (s ++ [c]) ++ d := by
        rw [List.append_assoc, List.singleton_append]
      rw [escapeDetails_cons, List.forall_mem_cons, hassoc, and_assoc, ← ih]
      by_cases hescape : c = '"' ∨ c = '\\'
      · rw [if_pos hescape]
        have hfront : Lexes (.inside s) ['\\', c] (.inside (s ++ [c])) [] := by
          rcases hescape with rfl | rfl <;> rfl
        have hprintable : 0x20 ≤ c.toNat := by
          rcases hescape with rfl | rfl <;> decide
        constructor
        · intro h
          rcases hfront.of_append h with ⟨after, hafter, rfl⟩
          exact ⟨hprintable, hafter⟩
        · rintro ⟨-, h⟩
          exact hfront.append h
      · rw [if_neg hescape]
        rw [not_or] at hescape
        constructor
        · intro h
          rcases lexes_cons_iff.mp h with ⟨m1, first, later, hchar, hrest, rfl⟩
          rw [lexChar, if_neg hescape.1, if_neg hescape.2] at hchar
          split_ifs at hchar with hcontrol
          cases hchar
          exact ⟨by omega, hrest⟩
        · rintro ⟨hc, h⟩
          have hverbatim : Verbatim [c] := by
            simp only [Verbatim, List.mem_singleton, forall_eq, isVerbatim, Bool.and_eq_true,
              decide_eq_true_eq]
            exact ⟨⟨hescape.1, hescape.2⟩, hc⟩
          exact (lexes_inside hverbatim s).append h

/-- The token of the details. -/
def AuditEntry.detailsToken (e : AuditEntry) : Token :=
  e.details.elim .null fun d => .string d.toList

theorem lexes_details_iff (e : AuditEntry) (m : LexMode) (tokens : List Token) :
    Lexes .outside (detailsJson e.details ++ ['}']) m tokens ↔
      e.DetailsPlain ∧ m = .outside ∧ tokens = [e.detailsToken, .closeObject] := by
  unfold AuditEntry.DetailsPlain AuditEntry.detailsToken
  cases e.details with
  | none =>
      have hnull : Lexes .outside ("null".toList ++ ['}']) .outside [.null, .closeObject] := rfl
      constructor
      · intro h
        rcases hnull.unique h with ⟨rfl, rfl⟩
        exact ⟨fun d hd => absurd hd (Option.not_mem_none d), rfl, rfl⟩
      · rintro ⟨-, rfl, rfl⟩
        exact hnull
  | some d =>
      have hopen : Lexes .outside ['"'] (.inside []) [] := rfl
      have hclose : Lexes (.inside d.toList) ['"', '}'] .outside [.string d.toList, .closeObject] :=
        rfl
      have hsplit : detailsJson (some d) ++ ['}'] =
          ['"'] ++ (escapeDetails d.toList ++ ['"', '}']) := by
        simp only [detailsJson, quoted, List.cons_append, List.nil_append, List.append_assoc]
      rw [hsplit]
      constructor
      · intro h
        rcases hopen.of_append h with ⟨after, hafter, rfl⟩
        rcases lexes_append_iff.mp hafter with ⟨m1, before, last, hbefore, hlast, rfl⟩
        rcases (lexes_escapeDetails_iff _ _ _ _).mp hbefore with ⟨hplain, rfl, rfl⟩
        rcases hclose.unique hlast with ⟨rfl, rfl⟩
        refine ⟨fun d' hd' => ?_, rfl, rfl⟩
        rw [← Option.some.inj hd']
        exact hplain
      · rintro ⟨hplain, rfl, rfl⟩
        have hbody := (lexes_escapeDetails_iff d.toList [] (.inside d.toList) []).mpr
          ⟨hplain d rfl, rfl, rfl⟩
        exact hopen.append (hbody.append hclose)

namespace AuditEntry

/-- An entry up to its actor. -/
def front (e : AuditEntry) : List Char :=
  '{' :: (quoted "timestamp".toList ++ ':' :: (Nat.toDigits 10 e.seconds ++
    (nextMember "category" (quoted (fmtCategory e.category).toList) ++
      (nextMember "severity" (quoted (fmtSeverity e.severity).toList) ++
        ',' :: (quoted "actor".toList ++ [':', '"'])))))

/-- An entry from the colon after the name of its outcome on. -/
def back (e : AuditEntry) : List Char :=
  ':' :: (quoted (fmtOutcome e.outcome).toList ++
    (',' :: (quoted "details".toList ++ ':' :: (detailsJson e.details ++ ['}']))))

def frontTokens (e : AuditEntry) : List Token :=
  [.openObject, .string "timestamp".toList, .colon, .number (Nat.toDigits 10 e.seconds),
    .comma, .string "category".toList, .colon, .string (fmtCategory e.category).toList,
    .comma, .string "severity".toList, .colon, .string (fmtSeverity e.severity).toList,
    .comma, .string "actor".toList, .colon]

def outcomeTokens (e : AuditEntry) : List Token :=
  [.colon, .string (fmtOutcome e.outcome).toList, .comma]

def detailsTokens (e : AuditEntry) : List Token :=
  [.string "details".toList, .colon, e.detailsToken]

end AuditEntry

/-- What stands between two texts. -/
def joint (name : String) : List Char :=
  separator name.toList ++ [':', '"']

/-- The texts of an entry, and what stands between them. -/
theorem json_eq (e : AuditEntry) : e.json =
    e.front ++ (e.actor.toList ++ (joint "action" ++ (e.action.toList ++ (joint "resource" ++
      (e.resource.toList ++ (separator "outcome".toList ++ e.back)))))) := by
  simp only [AuditEntry.json, AuditEntry.front, AuditEntry.back, nextMember, joint, separator,
    quoted, List.cons_append, List.nil_append, List.append_assoc]

theorem lexes_front (e : AuditEntry) : Lexes .outside e.front (.inside []) e.frontTokens := by
  have hopen : Lexes .outside ('{' :: (quoted "timestamp".toList ++ [':'])) .outside
      [.openObject, .string "timestamp".toList, .colon] := rfl
  have hcategory := lexes_quoted (verbatim_fmtCategory e.category)
  have hseverity := lexes_nextMember (show Verbatim "severity".toList by decide)
    (verbatim_fmtSeverity e.severity)
  have hactor : Lexes .outside (',' :: (quoted "actor".toList ++ [':', '"'])) (.inside [])
      [.comma, .string "actor".toList, .colon] := rfl
  have hname : Lexes .outside (quoted "category".toList ++ [':']) .outside
      [.string "category".toList, .colon] := rfl
  have hall := hopen.append ((lexes_natural e.seconds).append (hname.append
    (hcategory.append (hseverity.append hactor))))
  simp only [AuditEntry.front, nextMember, List.cons_append, List.nil_append,
    List.append_assoc] at hall ⊢
  exact hall

theorem lexes_back_iff (e : AuditEntry) (m : LexMode) (tokens : List Token) :
    Lexes .outside e.back m tokens ↔ e.DetailsPlain ∧ m = .outside ∧
      tokens = e.outcomeTokens ++ (e.detailsTokens ++ [.closeObject]) := by
  have hcolon : Lexes .outside [':'] .outside [.colon] := rfl
  have hname : Lexes .outside (',' :: (quoted "details".toList ++ [':'])) .outside
      [.comma, .string "details".toList, .colon] := rfl
  have hfront := (hcolon.append (lexes_quoted (verbatim_fmtOutcome e.outcome))).append hname
  have hsplit : e.back = ([':'] ++ quoted (fmtOutcome e.outcome).toList ++
      ',' :: (quoted "details".toList ++ [':'])) ++ (detailsJson e.details ++ ['}']) := by
    simp only [AuditEntry.back, List.cons_append, List.nil_append, List.append_assoc]
  rw [hsplit]
  constructor
  · intro h
    rcases hfront.of_append h with ⟨after, hafter, rfl⟩
    rcases (lexes_details_iff _ _ _).mp hafter with ⟨hplain, rfl, rfl⟩
    exact ⟨hplain, rfl, rfl⟩
  · rintro ⟨hplain, rfl, rfl⟩
    exact hfront.append ((lexes_details_iff _ _ _).mpr ⟨hplain, rfl, rfl⟩)

/-- A plain entry is read as its object. -/
theorem lexes_json {e : AuditEntry} (h : e.Plain) :
    Lexes .outside e.json .outside e.value.tokens := by
  rcases h with ⟨htexts, hdetails⟩
  simp only [AuditEntry.texts, List.forall_mem_cons] at htexts
  have hopen : ∀ name : String, Verbatim name.toList → ∀ s, Lexes (.inside s) (joint name)
      (.inside []) [.string s, .comma, .string name.toList, .colon] := by
    intro name hname s
    have hcolon : Lexes .outside [':', '"'] (.inside []) [.colon] := rfl
    exact (lexes_separator hname s).append hcolon
  have hback := (lexes_back_iff e .outside _).mpr ⟨hdetails, rfl, rfl⟩
  have hresource := (lexes_inside htexts.2.2.1 []).append
    ((lexes_separator (show Verbatim "outcome".toList by decide) _).append hback)
  have haction := (lexes_inside htexts.2.1 []).append ((hopen "resource" (by decide) _).append
    hresource)
  have hall := (lexes_front e).append ((lexes_inside htexts.1 []).append
    ((hopen "action" (by decide) _).append haction))
  rw [json_eq]
  have htokens : e.value.tokens = e.frontTokens ++ ([] ++ ([.string e.actor.toList, .comma,
      .string "action".toList, .colon] ++ ([] ++ ([.string e.action.toList, .comma,
      .string "resource".toList, .colon] ++ ([] ++ ([.string e.resource.toList, .comma,
      .string "outcome".toList] ++ (e.outcomeTokens ++
      (e.detailsTokens ++ [.closeObject])))))))) := by
    have hvalue : e.detailsValue.tokens = [e.detailsToken] := by
      unfold AuditEntry.detailsValue AuditEntry.detailsToken
      cases e.details <;> rfl
    simp only [AuditEntry.value, Value.tokens, tokensOfMembers, hvalue, AuditEntry.frontTokens,
      AuditEntry.outcomeTokens, AuditEntry.detailsTokens, List.cons_append, List.nil_append]
  rw [htokens]
  exact hall

/-- Plain entries behind the first one, and the end of the array. -/
theorem lexes_exportFrom_succ (i : Nat) {entries : List AuditEntry}
    (h : ∀ e ∈ entries, e.Plain) : Lexes .outside (exportFrom (i + 1) entries ++ [']']) .outside
      (tokensOfItems (entries.map AuditEntry.value)) := by
  induction entries generalizing i with
  | nil => rfl
  | cons e rest ih =>
      rw [List.forall_mem_cons] at h
      have hcomma : Lexes .outside [','] .outside [.comma] := rfl
      have hall := hcomma.append ((lexes_json h.1).append (ih (i + 1) h.2))
      rw [exportFrom, if_pos (Nat.succ_pos i), List.append_assoc, List.append_assoc]
      exact hall

/-- Plain entries are read as their objects, in order. -/
theorem reads_export {entries : List AuditEntry} (h : ∀ e ∈ entries, e.Plain) :
    Reads ('[' :: (exportFrom 0 entries ++ [']'])) (.array (entries.map AuditEntry.value)) := by
  rw [Reads, lex_eq_some_iff]
  refine ⟨.outside, _, [], ?_, rfl, (List.append_nil _).symm⟩
  have hopen : Lexes .outside ['['] .outside [.openArray] := rfl
  cases entries with
  | nil => rfl
  | cons e rest =>
      rw [List.forall_mem_cons] at h
      have hall := hopen.append ((lexes_json h.1).append (lexes_exportFrom_succ 0 h.2))
      rw [exportFrom, if_neg (Nat.lt_irrefl 0), List.nil_append, List.append_assoc]
      exact hall

section

/-- A string that can be read from a text. -/
def Fits (text s : List Char) : Prop :=
  writtenLength s ≤ text.length ∧ (Verbatim text → s = text)

variable {seen : List Token}

/-- The strings that are read from a text, the one that the end of the text is in included. -/
theorem fits_of_lexes {text s x : List Char} (h : Lexes (.inside []) text (.inside s) seen)
    (hx : .string x ∈ seen ∨ x = s) : Fits text x := by
  have hroom := writtenLength_le h
  have hzero : (LexMode.inside []).written = 0 := rfl
  rw [hzero, Nat.zero_add] at hroom
  refine ⟨?_, fun hverbatim => ?_⟩
  · rcases hx with hmem | rfl
    · exact hroom.2 x hmem
    · exact hroom.1
  · rcases h.unique (lexes_inside hverbatim []) with ⟨hs, rfl⟩
    rw [List.nil_append, LexMode.inside.injEq] at hs
    rcases hx with hmem | rfl
    · exact absurd hmem List.not_mem_nil
    · exact hs

variable {tokens : List Token} {m : LexMode}

/-- A text and the separator behind it, whatever the text is. -/
theorem lexes_text {text name rest : List Char} (hname : IsName name) (hverbatim : Verbatim name)
    (h : Lexes (.inside []) (text ++ (separator name ++ rest)) m tokens) :
    ∃ before after, Lexes .outside rest m after ∧ tokens = before ++ after ∧
      ∀ x, .string x ∈ before → Verbatim x ∨ Fits text x := by
  rcases lexes_append_iff.mp h with ⟨m1, seen, later, htext, hlater, rfl⟩
  rcases lexes_append_iff.mp hlater with ⟨m2, middle, after, hmiddle, hrest, rfl⟩
  rcases inside_of_separator hname hmiddle with ⟨s, rfl⟩
  rcases (lexes_separator hverbatim s).unique hmiddle with ⟨rfl, rfl⟩
  refine ⟨seen ++ [.string s, .comma, .string name], after, hrest,
    (List.append_assoc _ _ _).symm, fun x hx => ?_⟩
  simp only [List.mem_append, List.mem_cons, Token.string.injEq, List.not_mem_nil, reduceCtorEq,
    or_false, false_or] at hx
  rcases hx with hmem | rfl | rfl
  · exact Or.inr (fits_of_lexes htext (Or.inl hmem))
  · exact Or.inr (fits_of_lexes htext (Or.inr rfl))
  · exact Or.inl hverbatim

variable {e : AuditEntry}

/-- What is read of an entry that can be read: its details as they are, and before them
    strings that fit into its texts. -/
theorem tokens_of_json (h : Lexes .outside e.json m tokens) : m = .outside ∧ e.DetailsPlain ∧
      ∃ before, tokens = before ++ (e.detailsTokens ++ [.closeObject]) ∧
        ∀ x, .string x ∈ before → Verbatim x ∨ ∃ text ∈ e.texts, Fits text x := by
  have hnames : ∀ name ∈ ["action", "resource", "outcome"],
      IsName name.toList ∧ Verbatim name.toList := by
    intro name hname
    simp only [List.mem_cons, List.not_mem_nil, or_false] at hname
    rcases hname with rfl | rfl | rfl
    all_goals exact ⟨⟨by decide, List.all_eq_true.mp (by decide), by decide⟩, by decide⟩
  have hcolon : Lexes .outside [':', '"'] (.inside []) [.colon] := rfl
  rw [json_eq] at h
  rcases (lexes_front e).of_append h with ⟨afterFront, hactor, rfl⟩
  unfold joint at hactor
  rw [List.append_assoc, List.append_assoc] at hactor
  rcases lexes_text (hnames "action" (by simp)).1 (hnames "action" (by simp)).2 hactor with
    ⟨actor, afterActor, hjoint, rfl, hactorFits⟩
  rcases hcolon.of_append hjoint with ⟨laterAction, haction, rfl⟩
  rcases lexes_text (hnames "resource" (by simp)).1 (hnames "resource" (by simp)).2 haction with
    ⟨action, afterAction, hjoint', rfl, hactionFits⟩
  rcases hcolon.of_append hjoint' with ⟨laterResource, hresource, rfl⟩
  rcases lexes_text (hnames "outcome" (by simp)).1 (hnames "outcome" (by simp)).2 hresource with
    ⟨resource, afterResource, hback, rfl, hresourceFits⟩
  rcases (lexes_back_iff _ _ _).mp hback with ⟨hdetails, rfl, rfl⟩
  refine ⟨rfl, hdetails, e.frontTokens ++ (actor ++ (.colon :: (action ++ (.colon ::
    (resource ++ e.outcomeTokens))))), ?_, ?_⟩
  · simp only [List.append_assoc, List.cons_append, List.nil_append]
  · intro x hx
    have hin : ∀ text ∈ e.texts, Verbatim x ∨ Fits text x →
        Verbatim x ∨ ∃ text ∈ e.texts, Fits text x :=
      fun text htext => Or.imp_right fun hfits => ⟨text, htext, hfits⟩
    simp only [List.mem_append, List.mem_cons, reduceCtorEq, false_or] at hx
    rcases hx with hfront | hmem | hmem | hmem | houtcome
    · left
      simp only [AuditEntry.frontTokens, List.mem_cons, Token.string.injEq, List.not_mem_nil,
        reduceCtorEq, or_false, false_or] at hfront
      rcases hfront with rfl | rfl | rfl | rfl | rfl | rfl
      · decide
      · decide
      · exact verbatim_fmtCategory _
      · decide
      · exact verbatim_fmtSeverity _
      · decide
    · exact hin _ (by simp [AuditEntry.texts]) (hactorFits x hmem)
    · exact hin _ (by simp [AuditEntry.texts]) (hactionFits x hmem)
    · exact hin _ (by simp [AuditEntry.texts]) (hresourceFits x hmem)
    · left
      simp only [AuditEntry.outcomeTokens, List.mem_cons, Token.string.injEq, List.not_mem_nil,
        reduceCtorEq, or_false, false_or] at houtcome
      rw [houtcome]
      exact verbatim_fmtOutcome _

/-- The names of the texts. -/
def textNames : List (List Char) :=
  ["actor".toList, "action".toList, "resource".toList]

/-- What stands behind the name of a text fits into a text of the entries. -/
def Bounded (entries : List AuditEntry) (tokens : List Token) : Prop :=
  ∀ name ∈ textNames, ∀ x, Named tokens name x →
    Verbatim x ∨ ∃ e ∈ entries, ∃ text ∈ e.texts, Fits text x

variable {entries : List AuditEntry}

theorem bounded_append {first second : List Token} (h : Bounded entries first)
    (hsecond : ∀ x, .string x ∈ second →
      Verbatim x ∨ ∃ e ∈ entries, ∃ text ∈ e.texts, Fits text x) :
    Bounded entries (first ++ second) := by
  intro name hname x hx
  rcases named_append hx with hfirst | hmem
  · exact h name hname x hfirst
  · exact hsecond x hmem

/-- The details stand behind a name of their own. -/
theorem bounded_details (h : Bounded entries tokens) (e : AuditEntry) :
    Bounded entries (tokens ++ e.detailsTokens) := by
  intro name hname x hx
  rcases named_member hx with hfirst | rfl | rfl
  · exact h name hname x hfirst
  · exact absurd hname (by decide)
  · exact Or.inl (by decide)

theorem bounded_json (he : e ∈ entries) (hseen : Bounded entries seen)
    (h : Lexes .outside e.json m tokens) :
    m = .outside ∧ e.DetailsPlain ∧ Bounded entries (seen ++ tokens) := by
  rcases tokens_of_json h with ⟨rfl, hdetails, before, rfl, hbefore⟩
  refine ⟨rfl, hdetails, ?_⟩
  have hfront : Bounded entries (seen ++ before) :=
    bounded_append hseen fun x hx => (hbefore x hx).imp_right fun hfits => ⟨e, he, hfits⟩
  have hall : Bounded entries (seen ++ before ++ e.detailsTokens ++ [.closeObject]) :=
    bounded_append (bounded_details hfront e) fun x hx => by
      simp only [List.mem_singleton, reduceCtorEq] at hx
  rwa [List.append_assoc, List.append_assoc] at hall

/-- All entries, one after the other. -/
theorem bounded_exportFrom {rest : List AuditEntry} (hrest : ∀ e ∈ rest, e ∈ entries) (i : Nat)
    (hseen : Bounded entries seen) (h : Lexes .outside (exportFrom i rest) m tokens) :
    m = .outside ∧ (∀ e ∈ rest, e.DetailsPlain) ∧ Bounded entries (seen ++ tokens) := by
  induction rest generalizing i seen tokens with
  | nil =>
      rcases lexes_nil_iff.mp h with ⟨rfl, rfl⟩
      rw [List.append_nil]
      exact ⟨rfl, fun e he => absurd he List.not_mem_nil, hseen⟩
  | cons e rest ih =>
      rw [List.forall_mem_cons] at hrest
      have hcomma : ∃ comma : List Token, (∀ x, .string x ∉ comma) ∧
          Lexes .outside (if i > 0 then [','] else []) .outside comma := by
        split
        · exact ⟨[.comma], by simp, rfl⟩
        · exact ⟨[], by simp, rfl⟩
      rcases hcomma with ⟨comma, hstrings, hcomma⟩
      rw [exportFrom] at h
      rcases hcomma.of_append h with ⟨later, hlater, rfl⟩
      rcases lexes_append_iff.mp hlater with ⟨m1, here, after, hhere, hafter, rfl⟩
      have hstart : Bounded entries (seen ++ comma) :=
        bounded_append hseen fun x hx => absurd hx (hstrings x)
      rcases bounded_json hrest.1 hstart hhere with ⟨rfl, hdetails, hseen'⟩
      rcases ih hrest.2 (i + 1) hseen' hafter with ⟨rfl, hall, hbounded⟩
      refine ⟨rfl, List.forall_mem_cons.mpr ⟨hdetails, hall⟩, ?_⟩
      rwa [List.append_assoc, List.append_assoc] at hbounded

theorem bounded_start (entries : List AuditEntry) : Bounded entries [.openArray] := by
  intro name _ x hx
  exact absurd hx.length_le (by simp)

/-- An export that can be read at all: the details are plain, and what stands behind the
    name of a text fits into a text. -/
theorem bounded_of_lex (h : lex ('[' :: (exportFrom 0 entries ++ [']'])) = some tokens) :
    (∀ e ∈ entries, e.DetailsPlain) ∧ Bounded entries tokens := by
  have hopen : Lexes .outside ['['] .outside [.openArray] := rfl
  have hclose : Lexes .outside [']'] .outside [.closeArray] := rfl
  rcases lex_eq_some_iff.mp h with ⟨m, seen, last, hlexes, hfinish, rfl⟩
  rcases hopen.of_append hlexes with ⟨after, hafter, rfl⟩
  rcases lexes_append_iff.mp hafter with ⟨m1, inner, bracket, hinner, hbracket, rfl⟩
  rcases bounded_exportFrom (fun _ he => he) 0 (bounded_start entries) hinner with
    ⟨rfl, hdetails, hbounded⟩
  rcases hclose.unique hbracket with ⟨rfl, rfl⟩
  cases hfinish
  have hall : Bounded entries ([.openArray] ++ inner ++ [.closeArray]) :=
    bounded_append hbounded fun x hx => by
      simp only [List.mem_singleton, reduceCtorEq] at hx
  rw [List.append_nil, ← List.append_assoc]
  exact ⟨hdetails, hall⟩

theorem named_of_represents {v : Value} (h : Represents v e) {text : List Char}
    (htext : text ∈ e.texts) : ∃ name ∈ textNames, Named v.tokens name text := by
  rcases h with ⟨hactor, haction, hresource, -⟩
  simp only [AuditEntry.texts, List.mem_cons, List.not_mem_nil, or_false] at htext
  rcases htext with rfl | rfl | rfl
  · exact ⟨_, by simp [textNames], named_of_field hactor⟩
  · exact ⟨_, by simp [textNames], named_of_field haction⟩
  · exact ⟨_, by simp [textNames], named_of_field hresource⟩

theorem exists_represents {objects : List Value} (h : List.Forall₂ Represents objects entries)
    (he : e ∈ entries) : ∃ v ∈ objects, Represents v e := by
  induction h with
  | nil => exact absurd he List.not_mem_nil
  | @cons v e' objects rest hv _ ih =>
      rcases List.mem_cons.mp he with rfl | hmem
      · exact ⟨v, List.mem_cons_self, hv⟩
      · rcases ih hmem with ⟨w, hw, hrep⟩
        exact ⟨w, List.mem_cons_of_mem v hw, hrep⟩

/-- Where a text that is not written as it is comes with a longer one, there is none. -/
theorem verbatim_of_longer (texts : List (List Char)) (h : ∀ text ∈ texts, ¬ Verbatim text →
      ∃ longer ∈ texts, ¬ Verbatim longer ∧ text.length < longer.length) :
    ∀ text ∈ texts, Verbatim text := by
  by_contra hnot
  push Not at hnot
  rcases hnot with ⟨text, htext, hspecial⟩
  let special := texts.toFinset.filter fun t => ¬ Verbatim t
  have hne : special.Nonempty := by
    refine ⟨text, Finset.mem_filter.mpr ⟨List.mem_toFinset.mpr htext, hspecial⟩⟩
  rcases Finset.exists_max_image special List.length hne with ⟨longest, hlongest, hmax⟩
  rcases Finset.mem_filter.mp hlongest with ⟨hmem, hlongest'⟩
  rcases h longest (List.mem_toFinset.mp hmem) hlongest' with ⟨longer, hlonger, hspecial', hlt⟩
  have hle := hmax longer (Finset.mem_filter.mpr ⟨List.mem_toFinset.mpr hlonger, hspecial'⟩)
  omega

/-- An export that is read as its entries is one of plain entries. -/
theorem plain_of_faithful (h : Faithful ('[' :: (exportFrom 0 entries ++ [']'])) entries) :
    ∀ e ∈ entries, e.Plain := by
  rcases h with ⟨⟨v, hreads⟩, hall⟩
  rcases hall v hreads with ⟨objects, rfl, hobjects⟩
  rcases bounded_of_lex hreads with ⟨hdetails, hbounded⟩
  have htexts : ∀ text ∈ entries.flatMap AuditEntry.texts, Verbatim text := by
    refine verbatim_of_longer _ fun text htext hspecial => ?_
    rcases List.mem_flatMap.mp htext with ⟨e, he, htext⟩
    rcases exists_represents hobjects he with ⟨v, hv, hrepresents⟩
    rcases named_of_represents hrepresents htext with ⟨name, hname, hnamed⟩
    have hall := hnamed.trans (infix_array hv)
    rcases (hbounded name hname text hall).resolve_left hspecial with
      ⟨e', he', source, hsource, hroom, hsame⟩
    have hspecial' : ¬ Verbatim source := by
      intro hverbatim
      rw [hsame hverbatim] at hspecial
      exact hspecial hverbatim
    have hlonger := length_lt_writtenLength hspecial
    exact ⟨source, List.mem_flatMap.mpr ⟨e', he', hsource⟩, hspecial', by omega⟩
  intro e he
  exact ⟨fun text htext => htexts text (List.mem_flatMap.mpr ⟨e, he, htext⟩), hdetails e he⟩

end

/-- After any calls, the export says what the log retains if and only if nothing in the
    texts, and no control character in the details, would have to be escaped. -/
theorem export_faithful_iff (maxEntries : Nat) (calls : List AuditCall) :
    Faithful (run AuditLog.after (.new maxEntries) calls).exportJson (retained maxEntries calls) ↔
      ∀ e ∈ retained maxEntries calls, e.Plain := by
  rw [AuditLog.exportJson, after_entries]
  constructor
  · exact plain_of_faithful
  · intro h
    refine ⟨⟨_, reads_export h⟩, fun v hv => ⟨_, reads_unique hv (reads_export h), ?_⟩⟩
    rw [List.forall₂_map_left_iff, List.forall₂_same]
    exact fun e _ => represents_value e

/-- A plugin that is loaded by an actor with a quote in its name. -/
def quotedActor : AuditEntry where
  timestamp := 0
  category := .pluginLoad
  severity := .info
  actor := "a\"b"
  action := "load"
  resource := "my-plugin"
  outcome := .success
  details := none

theorem export_not_read : ¬ Faithful (run AuditLog.after (.new 10) [.record quotedActor]).exportJson
      (retained 10 [.record quotedActor]) := by
  rintro ⟨⟨v, hreads⟩, -⟩
  have hnone : lex (run AuditLog.after (.new 10) [.record quotedActor]).exportJson = none := by
    rfl
  rw [Reads, hnone] at hreads
  cases hreads

end OpenFlight.Security
