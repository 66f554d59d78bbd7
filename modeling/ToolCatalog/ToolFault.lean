import ToolCatalog.Value.Shown

/-!
Faults in the handling of tools, each with a code, a category, a severity and a context.

A fault is answered by an envelope that holds all of these. The moment of a fault is given with its
context, or else it is the moment when the context was made.
-/
namespace ToolCatalog

/-- What a fault is about. -/
inductive FaultCategory
  | validation
  | resourceNotFound
  | conflict
  | internal
  deriving DecidableEq, Repr

namespace FaultCategory

/-- The word for a category. -/
def name : FaultCategory → String
  | .validation => "validation"
  | .resourceNotFound => "resource_not_found"
  | .conflict => "conflict"
  | .internal => "internal"

/-- The category that a word names. -/
def ofName? (s : String) : Option FaultCategory :=
  [validation, resourceNotFound, conflict, internal].find? (·.name == s)

end FaultCategory

/-- How grave a fault is. -/
inductive FaultSeverity
  | info
  | warning
  | error
  | critical
  deriving DecidableEq, Repr

namespace FaultSeverity

/-- The word for a severity. -/
def name : FaultSeverity → String
  | .info => "info"
  | .warning => "warning"
  | .error => "error"
  | .critical => "critical"

/-- The severity that a word names. -/
def ofName? (s : String) : Option FaultSeverity :=
  [info, warning, error, critical].find? (·.name == s)

end FaultSeverity

/-- What is known about the circumstances of a fault; null where nothing is. -/
structure FaultContext where
  /-- The moment of the fault, when it was given. -/
  moment : Option Value
  toolName : Value
  permission : Value
  debugInfo : Value

/-- A context in which nothing is known. -/
def FaultContext.empty : FaultContext := ⟨none, .null, .null, .null⟩

/-- A fault. Some say which field is at fault, or which name. -/
structure ToolFault where
  message : Value
  code : Value
  category : FaultCategory
  severity : FaultSeverity
  context : FaultContext
  field : Option Value
  name : Option Value

/-- The text of a moment: a date or a time has one. -/
def Value.momentText? : Value → Option String
  | .dateTime m => some m.text
  | .date d => some d.text
  | .time t => some t.text
  | _ => none

namespace ToolFault

/-- A tool that must not be registered because of what this field holds. -/
def invalid (message field : Value) (context : FaultContext) : ToolFault :=
  { message, code := .text "VALIDATION_ERROR", category := .validation, severity := .error
    context, field := some field, name := none }

/-- A tool whose name is taken; the context learns the name. -/
def duplicate (name : Value) (context : FaultContext) : ToolFault :=
  { message := .text s!"Tool '{name.plain}' is already registered"
    code := .text "DUPLICATE_TOOL", category := .conflict, severity := .error
    context := { context with toolName := name }, field := none, name := some name }

/-- A resource that does not exist. -/
def notFound (kind id : Value) (context : FaultContext) : ToolFault :=
  { message := .text s!"{kind.plain} '{id.plain}' not found"
    code := .text "RESOURCE_NOT_FOUND", category := .resourceNotFound, severity := .error
    context, field := none, name := none }

/-- The envelope that answers a fault, where `now` is the moment when the context was made. There is
none if the moment that was given is no date or time. -/
def response? (now : String) (f : ToolFault) : Option Value := do
  let moment ← match f.context.moment with
    | some v => v.momentText?
    | none => some now
  let context : Value := .dict
    [(.text "tool_name", f.context.toolName), (.text "permission", f.context.permission)]
  return .dict [(.text "error", .dict
    [(.text "code", f.code), (.text "message", f.message),
      (.text "category", .text f.category.name), (.text "severity", .text f.severity.name),
      (.text "timestamp", .text moment), (.text "context", context)])]

end ToolFault

end ToolCatalog
