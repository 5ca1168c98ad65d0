import OpenFlight.Lib.Json

/-!
# The Audit Log

`AuditLog`: the security events that the service records, and their export as JSON.

The log keeps a number of entries and drops the oldest one when it is full. It is
checked before the new entry is put in, so a log for no entries at all still keeps the
last one. A log that is disabled ignores what is recorded.

The export is written by hand. The details have their backslashes and quotes escaped;
the actor, the action and the resource are written as they are.

The time of an entry is kept in nanoseconds since the start of the Unix epoch and may be
before it, for which the export writes a zero.

## Main definitions

* `AuditLog`, `AuditLog.record`, `AuditLog.recordEvent`: The log.
* `AuditCall`, `AuditLog.after`: The calls that change a log.
-/

namespace OpenFlight.Security

/-- What an entry is about. -/
inductive AuditCategory
  | authentication
  | authorization
  | configChange
  | pluginLoad
  | pluginUnload
  | deviceAccess
  | networkAccess
  | fileAccess
  | serviceLifecycle
  | updateInstall
deriving DecidableEq

/-- How severe it is. -/
inductive AuditSeverity
  | info
  | warning
  | alert
  | critical
deriving DecidableEq

/-- How it ended. -/
inductive AuditOutcome
  | success
  | failure
  | denied
deriving DecidableEq

/-- An entry of the log. -/
structure AuditEntry where
  timestamp : Int
  category : AuditCategory
  severity : AuditSeverity
  actor : String
  action : String
  resource : String
  outcome : AuditOutcome
  details : Option String

/-- The log, up to a number of entries. -/
structure AuditLog where
  entries : List AuditEntry
  maxEntries : Nat
  enabled : Bool

/-- The `Debug` text of a category. -/
def fmtCategory : AuditCategory → String
  | .authentication => "Authentication"
  | .authorization => "Authorization"
  | .configChange => "ConfigChange"
  | .pluginLoad => "PluginLoad"
  | .pluginUnload => "PluginUnload"
  | .deviceAccess => "DeviceAccess"
  | .networkAccess => "NetworkAccess"
  | .fileAccess => "FileAccess"
  | .serviceLifecycle => "ServiceLifecycle"
  | .updateInstall => "UpdateInstall"

/-- The `Debug` text of a severity. -/
def fmtSeverity : AuditSeverity → String
  | .info => "Info"
  | .warning => "Warning"
  | .alert => "Alert"
  | .critical => "Critical"

/-- The `Debug` text of an outcome. -/
def fmtOutcome : AuditOutcome → String
  | .success => "Success"
  | .failure => "Failure"
  | .denied => "Denied"

section

open Json (quoted)

/-- `duration_since(UNIX_EPOCH)` in whole seconds, or zero before it. -/
def AuditEntry.seconds (e : AuditEntry) : Nat :=
  e.timestamp.toNat / 1000000000

/-- `str::replace` of a character. -/
def replace (c : Char) (into : List Char) (s : List Char) : List Char :=
  s.flatMap fun d => if d = c then into else [d]

/-- The details as the export escapes them. -/
def escapeDetails (d : List Char) : List Char :=
  replace '"' ['\\', '"'] (replace '\\' ['\\', '\\'] d)

/-- Details are the one text that is escaped. -/
def detailsJson : Option String → List Char
  | some d => quoted (escapeDetails d.toList)
  | none => "null".toList

/-- A member of an object with the comma before it. -/
def nextMember (name : String) (value : List Char) : List Char :=
  ',' :: (quoted name.toList ++ ':' :: value)

/-- The object of an entry, as the format of `export_json` has it. -/
def AuditEntry.json (e : AuditEntry) : List Char :=
  '{' :: (quoted "timestamp".toList ++ ':' :: Nat.toDigits 10 e.seconds) ++
  nextMember "category" (quoted (fmtCategory e.category).toList) ++
  nextMember "severity" (quoted (fmtSeverity e.severity).toList) ++
  nextMember "actor" (quoted e.actor.toList) ++
  nextMember "action" (quoted e.action.toList) ++
  nextMember "resource" (quoted e.resource.toList) ++
  nextMember "outcome" (quoted (fmtOutcome e.outcome).toList) ++
  nextMember "details" (detailsJson e.details) ++ ['}']

/-- The loop of `export_json`, from an index on. -/
def exportFrom : Nat → List AuditEntry → List Char
  | _, [] => []
  | i, e :: rest => (if i > 0 then [','] else []) ++ (e.json ++ exportFrom (i + 1) rest)

end

namespace AuditLog

/-- `AuditLog::new`. -/
def new (maxEntries : Nat) : AuditLog where
  entries := []
  maxEntries := maxEntries
  enabled := true

/-- One more entry; the oldest goes if it is full. -/
def record (self : AuditLog) (entry : AuditEntry) : AuditLog :=
  if !self.enabled then self
  else if self.entries.length ≥ self.maxEntries then
    { self with entries := self.entries.tail ++ [entry] }
  else { self with entries := self.entries ++ [entry] }

/-- `record_event` at a time. -/
def recordEvent (self : AuditLog) (now : Int) (category : AuditCategory)
    (severity : AuditSeverity) (actor action resource : String) (outcome : AuditOutcome)
    (details : Option String) : AuditLog :=
  self.record
    { timestamp := now
      category := category
      severity := severity
      actor := actor
      action := action
      resource := resource
      outcome := outcome
      details := details }

/-- Record again. -/
def enable (self : AuditLog) : AuditLog :=
  { self with enabled := true }

/-- Record nothing from now on. -/
def disable (self : AuditLog) : AuditLog :=
  { self with enabled := false }

/-- Drop all entries. -/
def clear (self : AuditLog) : AuditLog :=
  { self with entries := [] }

/-- The export. -/
def exportJson (self : AuditLog) : List Char :=
  '[' :: (exportFrom 0 self.entries ++ [']'])

end AuditLog

/-- A call that changes a log. -/
inductive AuditCall
  | record (entry : AuditEntry)
  | recordEvent (now : Int) (category : AuditCategory) (severity : AuditSeverity)
      (actor action resource : String) (outcome : AuditOutcome) (details : Option String)
  | enable
  | disable
  | clear

/-- A log after a call. -/
def AuditLog.after (log : AuditLog) : AuditCall → AuditLog
  | .record entry => log.record entry
  | .recordEvent now category severity actor action resource outcome details =>
      log.recordEvent now category severity actor action resource outcome details
  | .enable => log.enable
  | .disable => log.disable
  | .clear => log.clear

end OpenFlight.Security
