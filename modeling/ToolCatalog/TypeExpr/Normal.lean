import ToolCatalog.TypeExpr

/-!
Making type expressions in normal form, and numbering the objects they are.

A written expression is a new object each time, except a callable. A union or a "not required"
layer that is derived rather than written is shared: asking twice for equal parts gives the first
object again. Callables are shared among the declarations, and again among all that is written
after them.
-/
namespace ToolCatalog

/-- The parts from which a shared expression is made. -/
inductive Parts
  | union (members : List TypeExpr)
  | notRequired (inner : TypeExpr)
  | callable (args : List TypeExpr) (result : TypeExpr)

/-- Equality of parts, in order. -/
def Parts.equal : Parts → Parts → Bool
  | .union xs, .union ys => TypeExpr.equalLists xs ys
  | .notRequired x, .notRequired y => x.equal y
  | .callable xs x, .callable ys y => TypeExpr.equalLists xs ys && x.equal y
  | _, _ => false

/-- The next object number, and the shared expressions made so far. -/
structure Supply where
  next : Nat
  shared : List (Parts × TypeExpr)

/-- No object yet. -/
def Supply.empty : Supply := ⟨0, []⟩

/-- Whether these are the parts of a callable. -/
def Parts.isCallable : Parts → Bool
  | .callable _ _ => true
  | _ => false

/-- The supply from which no callable is shared any more. -/
def Supply.withoutCallables (s : Supply) : Supply :=
  { s with shared := s.shared.filter (!·.1.isCallable) }

/-- Making expressions with a supply of object numbers. -/
abbrev Making := StateM Supply

namespace TypeExpr

/-- A new object number. -/
def fresh : Making Nat :=
  modifyGet fun s => (s.next, { s with next := s.next + 1 })

/-- The shared expression with these parts: the one made first, or else a new one. -/
def sharing (parts : Parts) (make : Nat → TypeExpr) : Making TypeExpr := do
  match (← get).shared.find? (·.1.equal parts) with
  | some (_, t) => return t
  | none =>
    let t := make (← fresh)
    modify fun s => { s with shared := s.shared ++ [(parts, t)] }
    return t

/-- The null value used as a type stands for its class, and a text for the forward name it is. -/
def asType : TypeExpr → TypeExpr
  | .atom .null => nothing
  | .constant id (.text name) => .forward id name
  | t => t

/-- The members that a member of a union contributes: those of a union, else itself. -/
def spliced : TypeExpr → List TypeExpr
  | .union _ _ members | .nullable _ _ members _ => members
  | t => [t]

/-- Drops every expression that equals an earlier one. -/
def distinct (ts : List TypeExpr) : List TypeExpr :=
  ts.foldl (fun kept t => if kept.any (·.equal t) then kept else kept ++ [t]) []

/-- The members of a union: flat, each once, and with the class in the place of the null value. -/
def unionMembers (ts : List TypeExpr) : List TypeExpr :=
  distinct ((ts.map asType).flatMap spliced)

/-- A union without null that is derived from another one: shared, and flat already. -/
def restUnion (members : List TypeExpr) : Making TypeExpr :=
  match members with
  | [t] => return t
  | ts => sharing (.union ts) fun id => .union id .form ts

/-- The union object with this number and these members, which are flat and distinct. -/
def unionObject (id : Nat) (style : UnionStyle) (members : List TypeExpr) : Making TypeExpr :=
  if members.any isNothing then
    return .nullable id style members (← restUnion (members.filter (!·.isNothing)))
  else
    return .union id style members

/-- A new union. One member left is that member itself. -/
def unionOf (style : UnionStyle) (ts : List TypeExpr) : Making TypeExpr :=
  match unionMembers ts with
  | [t] => return t
  | members => do unionObject (← fresh) style members

/-- The shared union of these members. -/
def sharedUnion (ts : List TypeExpr) : Making TypeExpr := do
  match unionMembers ts with
  | [t] => return t
  | members =>
    match (← get).shared.find? (·.1.equal (.union ts)) with
    | some (_, t) => return t
    | none =>
      let t ← unionObject (← fresh) .form members
      modify fun s => { s with shared := s.shared ++ [(.union ts, t)] }
      return t

/-- Whether a bar between classes takes this operand: a class, a parametrised class, the null value,
or what such a bar made. -/
def takesBar : TypeExpr → Bool
  | .atom (.builtin _) | .atom .null | .declared _ => true
  | .generic _ head _ => head.spelling != .form
  | .union _ .bar _ | .nullable _ .bar _ _ => true
  | _ => false

/-- A union written with bars, which is an ordinary union as soon as one operand is no class. A
single operand stands for itself. -/
def barUnion (ts : List TypeExpr) : Making TypeExpr :=
  match ts with
  | [t] => return t
  | ts => unionOf (if ts.all takesBar then .bar else .form) ts

/-- The distinct values of a literal; all of them, if one cannot be looked up. -/
def literalValues (vs : List Value) : List Value :=
  if vs.all Value.hashable then
    vs.foldl (fun kept v => if kept.any (sameLiteral v) then kept else kept ++ [v]) []
  else vs

/-- An annotation; on top of another one it only adds its items at the end. -/
def annotate (inner : TypeExpr) (items : List Metadata) : Making TypeExpr := do
  match inner with
  | .annotated _ inner earlier => return .annotated (← fresh) inner (earlier ++ items)
  | inner => return .annotated (← fresh) inner.asType items

/-- The shared "not required" layer around an expression. -/
def sharedNotRequired (inner : TypeExpr) : Making TypeExpr :=
  sharing (.notRequired inner) fun id => .notRequired id inner

/-- The shared callable with these parts. -/
def sharedCallable (args : List TypeExpr) (result : TypeExpr) : Making TypeExpr :=
  sharing (.callable args result) fun id => .callable id args result

end TypeExpr

end ToolCatalog
