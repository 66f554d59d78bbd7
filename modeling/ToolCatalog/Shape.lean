import ToolCatalog.Definitions

/-!
The shape of a type expression: a layer around another expression, or a base.

Layers say that a value may be left out, may be null, has a default, or is described and
constrained. Under all layers stands a base, of one of the families that descriptors know, or of
none. `TypeExpr.peel` takes off all layers at once.
-/
namespace ToolCatalog

/-- The special formats of texts. -/
inductive Format
  | email
  | uuid
  | dateTime
  | date
  | time
  | uri
  deriving DecidableEq, Repr

/-- The word for a format in a schema. -/
def Format.name : Format → String
  | .email => "email"
  | .uuid => "uuid"
  | .dateTime => "date-time"
  | .date => "date"
  | .time => "time"
  | .uri => "uri"

/-- What stands under all layers. -/
inductive Base
  | object (c : ObjectClass)
  | string (format : Option Format)
  | number (integer : Bool)
  | boolean
  | array (element : TypeExpr)
  | enumeration (members : List Value)
  | literal (member : Value)
  /-- A JSON object with free keys. -/
  | record (value : TypeExpr)
  | unknown

/-- What a described layer carries. -/
structure Remarks where
  description : Option String
  constraints : List Constraint

/-- A layer around an expression. -/
inductive Layer
  | optional
  | nullable
  | remarks (r : Remarks)
  | default (r : Remarks) (source : DefaultSource)

namespace Layer

/-- The layer of a field. -/
def ofField (spec : FieldSpec) : Layer :=
  let remarks : Remarks := ⟨spec.description?, spec.constraints⟩
  match spec.source? with
  | some source => .default remarks source
  | none => .remarks remarks

/-- The layer of an annotation: the last description that is not empty and the last default of its
items count, and all their constraints. -/
def ofItems (items : List Metadata) : Layer :=
  let specs := Metadata.fields items
  let description := specs.foldl (fun d s => s.description? <|> d) none
  let remarks : Remarks := ⟨description, items.flatMap Metadata.constraints⟩
  match specs.foldl (fun d s => s.source? <|> d) none with
  | some source => .default remarks source
  | none => .remarks remarks

/-- The layer that says nothing. -/
def plain : Layer := .remarks ⟨none, []⟩

/-- The description a layer carries. -/
def description : Layer → Option String
  | .optional | .nullable => none
  | .remarks r | .default r _ => r.description

/-- The constraints a layer carries. -/
def constraints : Layer → List Constraint
  | .optional | .nullable => []
  | .remarks r | .default r _ => r.constraints

/-- The default a layer carries. -/
def source? : Layer → Option DefaultSource
  | .default _ source => some source
  | _ => none

/-- Whether a value may be left out because of this layer. -/
def allowsAbsence : Layer → Bool
  | .optional | .nullable | .default _ _ => true
  | .remarks _ => false

/-- Whether a value may be null because of this layer. -/
def allowsNull : Layer → Bool
  | .nullable => true
  | _ => false

end Layer

/-- The base of a builtin class. -/
def Builtin.base (b : Builtin) : Base :=
  match b with
  | .nothing => .literal .null
  | .text => .string none
  | .email => .string (some .email)
  | .uuid => .string (some .uuid)
  | .dateTime => .string (some .dateTime)
  | .date => .string (some .date)
  | .time => .string (some .time)
  | .anyUrl | .httpUrl | .fileUrl => .string (some .uri)
  | .integer => .number true
  | .real | .decimal => .number false
  | .boolean => .boolean
  | .list | .set | .frozenSet | .tuple => .array .anything
  | .dict => .record .anything
  | .enumeration | .integerEnumeration => .enumeration []
  | _ => .unknown

/-- The base of a class derived from a builtin one: only what derived classes inherit. -/
def Builtin.derivedBase (b : Builtin) : Base :=
  match b with
  | .text => .string none
  | .anyUrl | .httpUrl | .fileUrl => .string (some .uri)
  | .integer | .boolean => .number true
  | .real | .decimal => .number false
  | .enumeration | .integerEnumeration => .enumeration []
  | _ => .unknown

/-- The base of a parametrised type. A tuple is an array only if it has any number of elements of
one type. -/
def Origin.base (o : Origin) (args : List TypeExpr) : Base :=
  if o.isArray then .array (args.head?.getD .anything)
  else if o.isRecord then
    match args with
    | [_, value] => .record value
    | _ => .record .anything
  else match o, args with
    | .tuple, [element, .atom .ellipsis] => .array element
    | _, _ => .unknown

/-- The value a literal stands for: a member of an enumeration stands for its own value. -/
def Value.bare : Value → Value
  | .member _ _ _ v => v
  | v => v

/-- The base of a literal: one value is a constant. -/
def literalBase (values : List Value) : Base :=
  match values.map Value.bare with
  | [v] => .literal v
  | vs => .enumeration vs

/-- The base of a declared class. -/
def ClassBody.base : ClassBody → Base
  | .object c => .object c
  | .enumeration e => .enumeration e.values
  | .derived b => b.derivedBase

namespace TypeExpr

/-- The outermost layer and what it is around, if there is one. -/
def layer? : TypeExpr → Option (Layer × TypeExpr)
  | .field _ spec inner => some (.ofField spec, inner)
  | .annotated _ inner items => some (.ofItems items, inner)
  | .notRequired _ inner => some (.optional, inner)
  | .required _ inner => some (.plain, inner)
  | .nullable _ _ _ inner => some (.nullable, inner)
  | _ => none

/-- All layers, the outermost first, and what stands under them. -/
def peel : TypeExpr → List Layer × TypeExpr
  | .field _ spec inner => let (layers, t) := peel inner; (.ofField spec :: layers, t)
  | .annotated _ inner items => let (layers, t) := peel inner; (.ofItems items :: layers, t)
  | .notRequired _ inner => let (layers, t) := peel inner; (.optional :: layers, t)
  | .required _ inner => let (layers, t) := peel inner; (.plain :: layers, t)
  | .nullable _ _ _ inner => let (layers, t) := peel inner; (.nullable :: layers, t)
  | t => ([], t)

/-- The base of an expression without layers. -/
def base (defs : Definitions) : TypeExpr → Base
  | .atom .null => .literal .null
  | .atom (.builtin b) => b.base
  | .atom (.bare head) => head.origin.base []
  | .declared name => ((defs.find? name).map ClassBody.base).getD .unknown
  | .generic _ head args => head.origin.base args
  | .literal _ values => literalBase values
  | _ => .unknown

end TypeExpr

namespace Base

/-- The documentation that a base brings itself. -/
def description : Base → Option String
  | .object c => c.doc
  | _ => none

end Base

end ToolCatalog
