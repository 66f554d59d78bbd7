import ToolCatalog.TypeExpr.Normal

/-!
Type expressions as they are written, and the objects they stand for.

`Written.make` gives each occurrence its object. A reference stands for the object of the
declaration it names, and so is the same object every time.
-/
namespace ToolCatalog

/-- A type expression as written. -/
inductive Written
  | atom (a : Atom)
  | generic (head : Head) (args : List Written)
  | callable (args : List Written) (result : Written)
  | union (members : List Written)
  /-- A union written with bars. -/
  | bars (members : List Written)
  | literal (values : List Value)
  | annotated (inner : Written) (items : List Metadata)
  | notRequired (inner : Written)
  | required (inner : Written)
  /-- A declaration made before. -/
  | reference (name : String)
  /-- A name that may be declared later. -/
  | forward (name : String)
  | constant (value : Value)
  | field (spec : FieldSpec) (type : Written)
  deriving Inhabited

/-- What a declared name stands for. -/
inductive Binding
  | declared
  | shorthand (t : TypeExpr)

/-- The declared names, the latest first. -/
abbrev Scope := List (String × Binding)

/-- The expression that a name stands for: a declaration, the null value, or a class that is always
in scope. -/
def Scope.find? (scope : Scope) (name : String) : Option TypeExpr :=
  match scope.lookup name with
  | some .declared => some (.declared name)
  | some (.shorthand t) => some t
  | none =>
    if name == "None" then some (.atom .null)
    else (Atom.alwaysInScope? name).map fun b => .atom (.builtin b)

/-- A counter gets a number of its own. -/
def FieldSpec.numbered (spec : FieldSpec) : Making FieldSpec := do
  match spec.factory with
  | some (.counter _) => return { spec with factory := some (.counter (← TypeExpr.fresh)) }
  | _ => return spec

/-- Items that equal only themselves get numbers of their own. -/
def Metadata.numbered : Metadata → Making Metadata
  | .field _ spec => do return .field (← TypeExpr.fresh) (← spec.numbered)
  | .constraint (.object _ attributes) => do
    return .constraint (.object (← TypeExpr.fresh) attributes)
  | .constraint c => return .constraint c

namespace Written

mutual

/-- The expression that a written one stands for. -/
def make (scope : Scope) : Written → Making TypeExpr
  | .atom a => return .atom a
  | .generic head args => do
    let args ← makeAll scope args
    let args := if head.spelling == .form then args.map TypeExpr.asType else args
    return .generic (← TypeExpr.fresh) head args
  | .callable args result => do
    let args ← makeAll scope args
    let result ← make scope result
    TypeExpr.sharedCallable (args.map TypeExpr.asType) result.asType
  | .union members => do TypeExpr.unionOf .form (← makeAll scope members)
  | .bars members => do TypeExpr.barUnion (← makeAll scope members)
  | .literal values => do return .literal (← TypeExpr.fresh) (TypeExpr.literalValues values)
  | .annotated inner items => do
    let inner ← make scope inner
    TypeExpr.annotate inner (← items.mapM Metadata.numbered)
  | .notRequired inner => do
    let inner ← make scope inner
    return .notRequired (← TypeExpr.fresh) inner.asType
  | .required inner => do
    let inner ← make scope inner
    return .required (← TypeExpr.fresh) inner.asType
  | .reference name => return (scope.find? name).getD (.declared name)
  | .forward name => return .forward (← TypeExpr.fresh) name
  | .constant v => do
    if v.isNull then return .atom .null else return .constant (← TypeExpr.fresh) v
  | .field spec inner => do
    let inner ← make scope inner
    return .field (← TypeExpr.fresh) (← spec.numbered) inner

def makeAll (scope : Scope) : List Written → Making (List TypeExpr)
  | [] => return []
  | w :: rest => do
    let t ← make scope w
    return t :: (← makeAll scope rest)

end

end Written

end ToolCatalog
