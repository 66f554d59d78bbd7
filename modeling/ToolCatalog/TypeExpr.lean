import ToolCatalog.Constraint
import ToolCatalog.Value.Shown

/-!
Type expressions, in normal form: unions are flat and without repetition, a union that allows null
is told apart from one that does not, and annotations on annotations are one annotation.

Every expression with parts carries the number of the object it is. Two expressions are the same
object exactly if their `TypeExpr.key` is the same; `TypeExpr.equal` compares them part by part.
-/
namespace ToolCatalog

/-- How a union is spelled: as a form, or with a bar between classes. -/
inductive UnionStyle
  | form
  | bar
  deriving DecidableEq, Repr

/-- A type expression. -/
inductive TypeExpr
  | atom (a : Atom)
  /-- A class of the declarations. -/
  | declared (name : String)
  | generic (id : Nat) (head : Head) (args : List TypeExpr)
  | callable (id : Nat) (args : List TypeExpr) (result : TypeExpr)
  /-- A union whose members do not include null. -/
  | union (id : Nat) (style : UnionStyle) (members : List TypeExpr)
  /-- A union that allows null, and what it says about the other values. -/
  | nullable (id : Nat) (style : UnionStyle) (members : List TypeExpr) (inner : TypeExpr)
  | literal (id : Nat) (values : List Value)
  | annotated (id : Nat) (inner : TypeExpr) (items : List Metadata)
  | notRequired (id : Nat) (inner : TypeExpr)
  | required (id : Nat) (inner : TypeExpr)
  /-- A name to be looked up later. -/
  | forward (id : Nat) (name : String)
  /-- A value in the place of a type. -/
  | constant (id : Nat) (value : Value)
  /-- A field: a type with its field information. -/
  | field (id : Nat) (spec : FieldSpec) (type : TypeExpr)
  deriving Inhabited

/-- What makes two expressions the same object. -/
inductive Key
  | atom (a : Atom)
  | declared (name : String)
  | member (enumeration name : String)
  | object (id : Nat)
  deriving DecidableEq, Repr

namespace TypeExpr

/-- The null class. -/
def nothing : TypeExpr := .atom (.builtin .nothing)

/-- The class of all values. -/
def anything : TypeExpr := .atom (.builtin .anything)

/-- Whether this is the null class. -/
def isNothing : TypeExpr → Bool
  | .atom (.builtin .nothing) => true
  | _ => false

/-- The object an expression is. -/
def key : TypeExpr → Key
  | .atom a => .atom a
  | .declared name => .declared name
  | .constant _ (.member e n _ _) => .member e n
  | .generic id _ _ | .callable id _ _ | .union id _ _ | .nullable id _ _ _ | .literal id _
  | .annotated id _ _ | .notRequired id _ | .required id _ | .forward id _ | .constant id _
  | .field id _ _ => .object id

/-- Whether an expression can be watched without being kept alive, which a memo needs: the null
value, the ellipsis, fields, unions with bars, plain data, moments of time and whole numbers of
every kind cannot. -/
def watchable : TypeExpr → Bool
  | .atom .null | .atom .ellipsis => false
  | .union _ .bar _ | .nullable _ .bar _ _ => false
  | .field .. => false
  | .constant _ v =>
    match v with
    | .null | .bool _ | .int _ | .float _ | .text _ | .bytes _ | .list _ | .dict _ | .tuple _
    | .endless | .decimal _ | .date _ | .dateTime _ | .time _ => false
    | .member _ _ .integer _ | .member _ _ .integerFlag _ => false
    | _ => true
  | _ => true

/-- Equality of the values of two literals: same kind and equal. -/
def sameLiteral (v w : Value) : Bool :=
  kindOf v == kindOf w && v.equal w
where
  kindOf : Value → String
    | .null => "null"
    | .bool _ => "bool"
    | .int _ => "int"
    | .float _ => "float"
    | .text _ => "text"
    | .bytes _ => "bytes"
    | .list _ | .endless => "list"
    | .tuple _ => "tuple"
    | .set _ => "set"
    | .frozenSet _ => "frozen set"
    | .dict _ => "dict"
    | .decimal _ => "decimal"
    | .date _ => "date"
    | .dateTime _ => "date and time"
    | .time _ => "time"
    | .uuid _ => "identifier"
    | .pattern _ => "pattern"
    | .member e _ _ _ => "member of " ++ e
    | .foreign _ => "foreign"

/-- Whether two lists of literal values hold the same ones, in any order. -/
def sameLiterals (vs ws : List Value) : Bool :=
  vs.all (fun v => ws.any (sameLiteral v)) && ws.all (fun w => vs.any (sameLiteral w))

/-- Whether two lists of items are equal one by one. -/
def sameItems : List Metadata → List Metadata → Bool
  | [], [] => true
  | x :: xs, y :: ys => x.equal y && sameItems xs ys
  | _, _ => false

mutual

/-- Equality part by part. The members of a union are compared as a set, whatever its spelling; the
same object always equals itself. -/
def equal : TypeExpr → TypeExpr → Bool
  | .atom a, .atom b => a == b
  | .declared n, .declared m => n == m
  | .generic i h xs, .generic j g ys => i == j || (h == g && equalLists xs ys)
  | .callable i xs x, .callable j ys y => i == j || (equalLists xs ys && x.equal y)
  | .union i _ xs, .union j _ ys => i == j || (xs.length == ys.length && subset xs ys)
  | .nullable i _ xs _, .nullable j _ ys _ => i == j || (xs.length == ys.length && subset xs ys)
  | .literal i vs, .literal j ws => i == j || sameLiterals vs ws
  | .annotated i x xs, .annotated j y ys => i == j || (x.equal y && sameItems xs ys)
  | .notRequired i x, .notRequired j y => i == j || x.equal y
  | .required i x, .required j y => i == j || x.equal y
  | .forward i n, .forward j m => i == j || n == m
  | .constant i v, .constant j w => i == j || v.equal w
  | .field i _ _, .field j _ _ => i == j
  | _, _ => false

def equalLists : List TypeExpr → List TypeExpr → Bool
  | [], [] => true
  | x :: xs, y :: ys => x.equal y && equalLists xs ys
  | _, _ => false

def subset : List TypeExpr → List TypeExpr → Bool
  | [], _ => true
  | x :: xs, ys => ys.any (x.equal ·) && subset xs ys

end

mutual

/-- The number of expressions in an expression. -/
def size : TypeExpr → Nat
  | .atom _ | .declared _ | .literal _ _ | .forward _ _ | .constant _ _ => 1
  | .generic _ _ args => sizes args + 1
  | .callable _ args result => sizes args + size result + 1
  | .union _ _ members => sizes members + 1
  | .nullable _ _ members inner => sizes members + size inner + 1
  | .annotated _ inner _ | .notRequired _ inner | .required _ inner | .field _ _ inner =>
    size inner + 1

def sizes : List TypeExpr → Nat
  | [] => 0
  | t :: rest => size t + sizes rest

end

mutual

/-- An expression as it is shown. -/
def shown : TypeExpr → String
  | .atom a =>
    match a with
    | .builtin b => b.home ++ b.name
    | .bare h => h.shown
    | .newType => "typing.NewType"
    | .typeVariable => "~T"
    | .special name => if name == "TypedDict" then name else "typing." ++ name
    | .null => "None"
    | .ellipsis => "..."
  | .declared name => name
  | .generic _ h args => h.shown ++ "[" ++ shownArgs args ++ "]"
  | .callable _ args result =>
    "typing.Callable[[" ++ ", ".intercalate (shownList args) ++ "], " ++ result.shown ++ "]"
  | .union _ style members => shownUnion style (shownList members)
  | .nullable _ style members _ =>
    match style, members with
    | .form, [x, y] =>
      if x.isNothing then "typing.Optional[" ++ y.shown ++ "]"
      else if y.isNothing then "typing.Optional[" ++ x.shown ++ "]"
      else shownUnion .form [x.shown, y.shown]
    | style, members => shownUnion style (shownList members)
  | .literal _ values =>
    if values.isEmpty then "typing.Literal[()]"
    else "typing.Literal[" ++ ", ".intercalate (values.map Value.shown) ++ "]"
  | .annotated _ inner items =>
    "typing.Annotated[" ++ ", ".intercalate (inner.shown :: items.map shownItem) ++ "]"
  | .notRequired _ inner => "typing.NotRequired[" ++ inner.shown ++ "]"
  | .required _ inner => "typing.Required[" ++ inner.shown ++ "]"
  | .forward _ name => "ForwardRef(" ++ Text.quoted name ++ ")"
  | .constant _ v => v.shown
  | .field _ _ inner => "FieldInfo(annotation=" ++ inner.shown ++ ")"
where
  shownItem : Metadata → String
    | .constraint (.remark s) => Text.quoted s
    | .constraint _ => "Constraint"
    | .field _ _ => "FieldInfo"
  shownUnion (style : UnionStyle) (members : List String) : String :=
    match style with
    | .form => "typing.Union[" ++ ", ".intercalate members ++ "]"
    | .bar => " | ".intercalate (members.map fun s => if s == "NoneType" then "None" else s)

def shownArgs : List TypeExpr → String
  | [] => "()"
  | t :: rest => ", ".intercalate (t.shown :: shownList rest)

def shownList : List TypeExpr → List String
  | [] => []
  | t :: rest => t.shown :: shownList rest

end

/-- A short name for messages: a class by its own name, anything else as it is shown. -/
def label : TypeExpr → String
  | .atom (.builtin b) => b.name
  | .atom .ellipsis => "Ellipsis"
  | t => t.shown

end TypeExpr

end ToolCatalog
