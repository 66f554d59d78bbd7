import ToolCatalog.Session
import ToolCatalog.Shape

/-!
What all layers around a base say together.

Any layer may allow absence or null. The first description from outside in counts, the base's own
last; constraints are collected from outside in. Of several defaults only the outermost is looked
at, even when it cannot be found.
-/
namespace ToolCatalog

/-- The layers of a type expression taken together. -/
structure Analysis where
  /-- What stands under all layers. -/
  inner : TypeExpr
  base : Base
  optional : Bool
  nullable : Bool
  default : Option DefaultOutcome
  description : Option String
  constraints : List Constraint

namespace Analysis

/-- The default that was found. -/
def default? (a : Analysis) : Option Value :=
  match a.default with
  | some (.ok v) => some v
  | _ => none

end Analysis

/-- A text that is not empty. -/
def nonEmpty? (s : Option String) : Option String :=
  s.filter (!·.isEmpty)

namespace TypeExpr

/-- The outermost default of an expression. -/
def defaultSource? (t : TypeExpr) : Option DefaultSource :=
  t.peel.1.findSome? Layer.source?

/-- What the layers of an expression say, given what became of the outermost default. -/
def analysisWith (defs : Definitions) (t : TypeExpr) (default : Option DefaultOutcome) : Analysis :=
  let (layers, inner) := t.peel
  let base := inner.base defs
  { inner
    base
    optional := layers.any Layer.allowsAbsence
    nullable := layers.any Layer.allowsNull
    default
    description := layers.findSome? Layer.description <|> nonEmpty? base.description
    constraints := layers.flatMap Layer.constraints }

/-- Analyses an expression; this calls the factory of the outermost default, and no other. -/
def analyse (defs : Definitions) (t : TypeExpr) : StateM Session Analysis := do
  let default ← t.defaultSource?.mapM DefaultSource.find
  return t.analysisWith defs default

end TypeExpr

end ToolCatalog
