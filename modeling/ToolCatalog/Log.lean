import ToolCatalog.Entries
import ToolCatalog.Log.Failure
import ToolCatalog.Log.JsonText
import ToolCatalog.Log.Message
import ToolCatalog.Settings

/-!
Lines of the log, as JSON or as plain text, and the threshold below which nothing is logged.

A JSON line holds moment, level, logger and message, then those of the known extra entries that are
not null, then the error that was being handled. Extra entries that are named as a part of the
record take its place.
-/
namespace ToolCatalog

/-- How lines are written. -/
inductive LogFormat
  | json
  | text
  deriving DecidableEq, Repr

/-- What is logged at one moment. -/
structure LogRecord where
  logger : String
  level : String
  message : String
  args : List Value
  extra : Entries Value
  error : Option LoggedError

/-- Why a record cannot be written. -/
inductive LogFault
  | message (f : MessageFault)
  | json (f : JsonTextFault)
  deriving DecidableEq, Repr

namespace LogRecord

/-- The extra entries that a line can show, in order. -/
def knownExtra : List String :=
  ["tool_name", "schema", "field_name", "degradation", "error_code", "tool_count"]

/-- The extra entries that a record shows. -/
def shownExtra (r : LogRecord) : List (String × Value) :=
  knownExtra.filterMap fun key =>
    ((r.extra.lookup key).filter (!·.isNull)).map fun v => (key, v)

/-- A part of a record; an extra entry with the name of the part takes its place. -/
def part (r : LogRecord) (name value : String) : Value :=
  (r.extra.lookup name).getD (.text value)

/-- The level of a record. -/
def shownLevel (r : LogRecord) : Value :=
  r.part "levelname" r.level

/-- The logger of a record. -/
def shownLogger (r : LogRecord) : Value :=
  r.part "name" r.logger

/-- The message with its arguments in place. -/
def fullMessage (r : LogRecord) : Except LogFault String :=
  match LogMessage.format (r.part "msg" r.message).plain r.args with
  | .ok s => .ok s
  | .error f => .error (.message f)

/-- What a JSON line shows of a record. -/
def entries (moment message : String) (r : LogRecord) : List (String × Value) :=
  [("timestamp", .text moment), ("level", r.shownLevel), ("logger", r.shownLogger),
    ("message", .text message)]
    ++ r.shownExtra ++ (r.error.map fun e => ("exception", Value.text e.line)).toList

/-- A record as a JSON line. -/
def jsonLine (moment : String) (r : LogRecord) : Except LogFault String := do
  let message ← r.fullMessage
  match JsonText.ofValue (.dict ((r.entries moment message).map fun (k, v) => (.text k, v))) with
  | .ok s => return s
  | .error f => throw (.json f)

/-- A record as a line of plain text; an error stands on lines of its own. -/
def textLine (moment : String) (r : LogRecord) : Except LogFault String := do
  let message ← r.fullMessage
  let line := s!"{moment} {r.shownLevel.plain} {r.shownLogger.plain} - {message}"
  match r.error with
  | none => return line
  | some e => return if line.endsWith "\n" then line ++ e.line else line ++ "\n" ++ e.line

/-- A record as a line. -/
def line (format : LogFormat) (moment : String) (r : LogRecord) : Except LogFault String :=
  match format with
  | .json => r.jsonLine moment
  | .text => r.textLine moment

end LogRecord

/-- Why the log cannot be set up. -/
inductive LogSetupFault
  /-- The level is no text. -/
  | levelNotText
  /-- The level is a text in bytes. -/
  | levelIsBytes
  /-- The level names something of the log that is a text. -/
  | levelIsText
  /-- The level names something of the log that is neither a text nor a number. -/
  | levelIsTable
  deriving DecidableEq, Repr

/-- The levels by name. -/
def logLevels : List (String × Nat) :=
  [("CRITICAL", 50), ("FATAL", 50), ("ERROR", 40), ("WARNING", 30), ("WARN", 30), ("INFO", 20),
    ("DEBUG", 10), ("NOTSET", 0)]

/-- The name under which a level is logged: the first of its names. -/
def logLevelName (name : String) : String :=
  match logLevels.lookup name with
  | some n => ((logLevels.find? (·.2 == n)).map (·.1)).getD name
  | none => name

/-- The level for a name in any case; an unknown name means the level `INFO`. -/
def logThreshold (name : String) : Except LogSetupFault Nat :=
  match Text.upper name with
  | "BASIC_FORMAT" => .error .levelIsText
  | "_STYLES" => .error .levelIsTable
  | name => .ok ((logLevels.lookup name).getD 20)

/-- How the log is set up. -/
structure LogSetup where
  format : LogFormat
  threshold : Nat
  deriving DecidableEq, Repr

namespace LogSetup

/-- The set-up for a level and a format: JSON if the format is exactly `json`. -/
def make (level format : Value) : Except LogSetupFault LogSetup := do
  match level, level.textual? with
  | .bytes _, _ => throw .levelIsBytes
  | _, none => throw .levelNotText
  | _, some name =>
    return ⟨if format.equal (.text "json") then .json else .text, ← logThreshold name⟩

/-- The set-up that settings ask for. -/
def ofSettings (s : Settings) : Except LogSetupFault LogSetup :=
  make (.text s.logLevel) (.text s.logFormat)

end LogSetup

end ToolCatalog
