import ToolCatalog.Enumeration
import ToolCatalog.TypeExpr

/-!
Finished definitions: every declared class with what is known about it.
-/
namespace ToolCatalog

/-- A class whose values are JSON objects with named fields. -/
structure ObjectClass where
  /-- The cleaned documentation comment. -/
  doc : Option String
  /-- The fields in order, each under the name it is written with. -/
  fields : List (String × TypeExpr)
  /-- The unknown name because of which the forward names in the fields were left as they are. -/
  unknownName : Option String
  deriving Inhabited

/-- What a declared class is. -/
inductive ClassBody
  | object (c : ObjectClass)
  | enumeration (e : Enumeration)
  /-- A class derived from a builtin one. -/
  | derived (base : Builtin)

/-- The declared classes by name. -/
structure Definitions where
  classes : List (String × ClassBody)

namespace Definitions

/-- No definitions. -/
def empty : Definitions := ⟨[]⟩

/-- The class with this name. -/
def find? (defs : Definitions) (name : String) : Option ClassBody :=
  defs.classes.lookup name

/-- The object classes. -/
def objects (defs : Definitions) : List ObjectClass :=
  defs.classes.filterMap fun
    | (_, .object c) => some c
    | _ => none

/-- The members that a flag is made of. -/
def flagParts? (defs : Definitions) (enumeration : String) (flag : Value) : Option (List Value) :=
  match defs.find? enumeration with
  | some (.enumeration e) => e.parts? flag
  | _ => none

/-- The values met when a value is gone through: the items of a list, tuple or set, the keys of a
dictionary, the characters of a text, the numbers of bytes, the members that a flag is made of.
Other values cannot be gone through. -/
def iterate? (defs : Definitions) (v : Value) : Option (List Value) :=
  match v, v.textual? with
  | .list items, _ | .tuple items, _ | .set items, _ | .frozenSet items, _ => some items
  | .dict entries, _ => some (entries.map (·.1))
  | .bytes bs, _ => some (bs.map fun b => .int b.toNat)
  | .endless, _ => some [.endless]
  | _, some s => some (s.toList.map fun c => .text (String.singleton c))
  | .member e _ kind flag, none => if kind.isFlag then defs.flagParts? e flag else none
  | _, none => none

end Definitions

end ToolCatalog
