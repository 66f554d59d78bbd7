import ToolCatalog.Value.Exact
import ToolCatalog.Value.Shown

/-!
Errors on a line of the log: the kind of the error and its text.

The text is that of the error's argument, or of all its arguments if there are several. Errors of
the operating system have a number, a description, and perhaps one or two file names; their number
also decides their kind. An error in the form of a program always has a description.
-/
namespace ToolCatalog

/-- An error that was being handled: its kind and its arguments. -/
structure LoggedError where
  kind : String
  args : List Value

namespace LoggedError

/-- The kinds of errors of the operating system. -/
def systemKinds : List String :=
  ["OSError", "BlockingIOError", "ChildProcessError", "ConnectionError", "BrokenPipeError",
    "ConnectionAbortedError", "ConnectionRefusedError", "ConnectionResetError", "FileExistsError",
    "FileNotFoundError", "InterruptedError", "IsADirectoryError", "NotADirectoryError",
    "PermissionError", "ProcessLookupError", "TimeoutError"]

/-- The kind of a system error with a number. -/
def kindOfNumber? (number : Int) : Option String :=
  match number with
  | 11 | 114 | 115 => some "BlockingIOError"
  | 32 | 108 => some "BrokenPipeError"
  | 10 => some "ChildProcessError"
  | 103 => some "ConnectionAbortedError"
  | 111 => some "ConnectionRefusedError"
  | 104 => some "ConnectionResetError"
  | 17 => some "FileExistsError"
  | 2 => some "FileNotFoundError"
  | 21 => some "IsADirectoryError"
  | 20 => some "NotADirectoryError"
  | 4 => some "InterruptedError"
  | 1 | 13 => some "PermissionError"
  | 3 => some "ProcessLookupError"
  | 110 => some "TimeoutError"
  | _ => none

/-- Another name for a kind of error, or the name itself. -/
def primaryKind (kind : String) : String :=
  if kind == "IOError" || kind == "EnvironmentError" then "OSError" else kind

/-- The kind under which an error is logged. -/
def shownKind (e : LoggedError) : String :=
  match primaryKind e.kind, e.args with
  | "OSError", number :: _ :: rest =>
    if 3 < rest.length then "OSError" else (number.integer?.bind kindOfNumber?).getD "OSError"
  | kind, _ => kind

/-- Whether a kind is one of errors in the form of a program. -/
def isSyntaxKind (kind : String) : Bool :=
  ["SyntaxError", "IndentationError", "TabError"].contains kind

/-- The text of a system error with a number, a description, and what else it names. A blocked
operation names no file but a count. -/
def systemText (kind : String) (number description : Value) (rest : List Value) : String :=
  let file := (rest[0]?.filter (!·.isNull)).filter fun v =>
    !(kind == "BlockingIOError" && v.exact?.isSome)
  let other := rest[2]?.filter (!·.isNull)
  let names := match file, other with
    | some f, some g => s!": {f.shown} -> {g.shown}"
    | some f, none => s!": {f.shown}"
    | none, _ => ""
  s!"[Errno {number.plain}] {description.plain}{names}"

/-- The description of an error in the form of a program. -/
def syntaxText (args : List Value) : String :=
  match args with
  | [] => "<no detail available>"
  | v :: _ =>
    if v.isNull || v.plain.isEmpty || v.exact? == some .zero then "<no detail available>"
    else v.plain

/-- The text of an error. An error about a missing key shows the key with its quotes. -/
def text (e : LoggedError) : String :=
  let kind := e.shownKind
  if isSyntaxKind kind then syntaxText e.args
  else
    match e.args with
    | [] => ""
    | [v] => if kind == "KeyError" then v.shown else v.plain
    | number :: description :: rest =>
      if systemKinds.contains kind && rest.length ≤ 3 then systemText kind number description rest
      else (Value.tuple e.args).shown

/-- An error on a line: its kind, and its text if there is one. -/
def line (e : LoggedError) : String :=
  if e.text.isEmpty then e.shownKind else s!"{e.shownKind}: {e.text}"

end LoggedError

end ToolCatalog
