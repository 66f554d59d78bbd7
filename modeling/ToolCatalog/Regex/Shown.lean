import ToolCatalog.Regex.Pattern

/-!
The text that shows a pattern: its source between quotes, cut off when it is long, and its flags.
-/
namespace ToolCatalog

/-- The names of the flags that are shown. -/
def RegexFlags.names (f : RegexFlags) : List String :=
  [(f.template, "TEMPLATE"), (f.ignoreCase, "IGNORECASE"), (f.multiLine, "MULTILINE"),
    (f.dotAll, "DOTALL"), (f.verbose, "VERBOSE"), (f.ascii, "ASCII")].flatMap fun (on, name) =>
      if on then ["re." ++ name] else []

/-- The number of characters of a quoted source that are shown. -/
def shownSourceLength : Nat := 200

/-- A pattern, shown. -/
def shownPattern (source : String) : String :=
  let quoted := ((Text.quoted source).take shownSourceLength).toString
  let names := match RegexProgram.ofPattern source with
    | .ok p => p.flags.names
    | .error _ => []
  if names.isEmpty then s!"re.compile({quoted})"
  else s!"re.compile({quoted}, " ++ "|".intercalate names ++ ")"

end ToolCatalog
