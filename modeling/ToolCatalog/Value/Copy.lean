import ToolCatalog.Value

/-!
Copies of values.

A value is copied with all that it holds. Whatever has content is equal to its copy; an opaque
object has only its identity, and its copy is another one. The members of an enumeration are what
they are, so none of them is copied. All lists that contain themselves are one value here, so that
their copies are not told apart from them.
-/
namespace ToolCatalog.Value

mutual

/-- A value with other opaque objects in it. -/
def renamed (f : Identity → Identity) : Value → Value
  | .list items => .list (renamedItems f items)
  | .tuple items => .tuple (renamedItems f items)
  | .set items => .set (renamedItems f items)
  | .frozenSet items => .frozenSet (renamedItems f items)
  | .dict entries => .dict (renamedEntries f entries)
  | .foreign i => .foreign (f i)
  | v => v

def renamedItems (f : Identity → Identity) : List Value → List Value
  | [] => []
  | v :: rest => v.renamed f :: renamedItems f rest

def renamedEntries (f : Identity → Identity) : List (Value × Value) → List (Value × Value)
  | [] => []
  | (k, v) :: rest => (k.renamed f, v.renamed f) :: renamedEntries f rest

end

/-- The copy of a value for a purpose. -/
def copy (purpose : String) (v : Value) : Value :=
  v.renamed (.copied purpose)

end ToolCatalog.Value
