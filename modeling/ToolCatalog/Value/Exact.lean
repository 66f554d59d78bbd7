import ToolCatalog.Value

/-!
The number that a value counts as.
-/
namespace ToolCatalog

/-- The number a value counts as: truth values are one and zero, and members of a numeric
enumeration are their value. -/
def Value.exact? : Value → Option Exact
  | .bool b => some (.ofInt (if b then 1 else 0))
  | .int i => some (.ofInt i)
  | .float x => some x.exact
  | .decimal d => some d.exact
  | .member _ _ kind value =>
    match kind, value with
    | .integer, .int i | .integerFlag, .int i => some (.ofInt i)
    | .real, .float x => some x.exact
    | _, _ => none
  | _ => none

/-- The integer a value counts as: an integer, a truth value, or a member of an enumeration of
integers. -/
def Value.integer? : Value → Option Int
  | .bool b => some (if b then 1 else 0)
  | .int i => some i
  | .member _ _ .integer (.int i) | .member _ _ .integerFlag (.int i) => some i
  | _ => none

end ToolCatalog
