import ToolCatalog.TypeExpr.Written

/-!
Looking up the forward names in an expression.

A resolved expression is normalised as if it had been written directly. An expression without
forward names keeps its identity, but a parametrised class is a new object, with the parts it had. A
name met again while it is being looked up stays as it is.
-/
namespace ToolCatalog

/-- Making an expression, unless a name is unknown. -/
abbrev Resolving := ExceptT String Making

namespace TypeExpr

mutual

/-- Replaces each forward name by what `lookup` makes of it. -/
def resolveWith (lookup : TypeExpr → String → Resolving TypeExpr) : TypeExpr → Resolving TypeExpr
  | .forward id name => lookup (.forward id name) name
  | .generic id head args => do
    let made ← resolveAllWith lookup (head.spelling != .form) args
    if !equalLists made args then return .generic (← fresh) head made
    else if head.spelling == .form then return .generic id head args
    else return .generic (← fresh) head args
  | .callable id args result => do
    let made ← resolveAllWith lookup false args
    let madeResult ← resolveWith lookup result
    if equalLists made args && madeResult.equal result then return .callable id args result
    else return .callable (← fresh) made madeResult
  | .union id style members => do
    let made ← resolveAllWith lookup false members
    if equalLists made members then return .union id style members
    else if style == .bar then barUnion made
    else sharedUnion made
  | .nullable id style members inner => do
    let made ← resolveAllWith lookup false members
    if equalLists made members then return .nullable id style members inner
    else if style == .bar then barUnion made
    else sharedUnion made
  | .annotated id inner items => do
    let made ← resolveWith lookup inner
    if made.equal inner then return .annotated id inner items else annotate made items
  | .notRequired id inner => do
    let made ← resolveWith lookup inner
    if made.equal inner then return .notRequired id inner else return .notRequired (← fresh) made
  | .required id inner => do
    let made ← resolveWith lookup inner
    if made.equal inner then return .required id inner else return .required (← fresh) made
  | t => return t

/-- Replaces the forward names in a list; with `texts`, a text there is a forward name too. -/
def resolveAllWith (lookup : TypeExpr → String → Resolving TypeExpr) (texts : Bool) :
    List TypeExpr → Resolving (List TypeExpr)
  | [] => return []
  | .constant id (.text name) :: rest => do
    let t ← if texts then lookup (.forward id name) name else pure (.constant id (.text name))
    return t :: (← resolveAllWith lookup texts rest)
  | t :: rest => do
    let t ← resolveWith lookup t
    return t :: (← resolveAllWith lookup texts rest)

end

/-- Looks names up through at most `depth` names inside each other; `busy` are those being looked
up. -/
def resolveWithin (scope : Scope) : Nat → List String → TypeExpr → Resolving TypeExpr
  | 0, _, t => return t
  | depth + 1, busy, t =>
    resolveWith (fun self name =>
      if busy.contains name then return self
      else match scope.find? name with
        | none => throw name
        | some found => resolveWithin scope depth (name :: busy) found.asType) t

/-- Resolves an expression in a scope, or gives the first unknown name. Each name is looked up at
most once on the way to a part, so the scope's size bounds the depth. -/
def resolve (scope : Scope) (t : TypeExpr) : Resolving TypeExpr :=
  resolveWithin scope (scope.length + 1) [] t.asType

end TypeExpr

end ToolCatalog
