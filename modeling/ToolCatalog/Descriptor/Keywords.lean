import ToolCatalog.Descriptor.Graph
import ToolCatalog.Session
import ToolCatalog.Shape

/-!
The keywords that a base and its constraints give a descriptor.

Each family knows some attributes of constraint items and the keyword for each; of several items
that set one attribute the last one counts. The members of an enumeration are written as JSON
data, and a type is given if one JSON type covers them all.
-/
namespace ToolCatalog

/-- Why no descriptor can be made. -/
inductive CompileFault
  /-- A member of an enumeration or literal has no JSON data. -/
  | data (f : DataFault)
  /-- The recursion was not given enough room. -/
  | exhausted
  deriving DecidableEq, Repr

/-- Making descriptors; what was done before a fault stays done. -/
abbrev Compile := ExceptT CompileFault (StateM Session)

/-- The keywords of texts. -/
def textKeywords : List (Attribute × String) :=
  [(.minLength, "minLength"), (.maxLength, "maxLength"), (.pattern, "pattern")]

/-- The keywords of numbers. -/
def numberKeywords : List (Attribute × String) :=
  [(.atLeast, "minimum"), (.above, "exclusiveMinimum"), (.atMost, "maximum"),
    (.below, "exclusiveMaximum")]

/-- The keywords of arrays. -/
def arrayKeywords : List (Attribute × String) :=
  [(.minLength, "minItems"), (.maxLength, "maxItems")]

/-- A compiled pattern is written as its source. -/
def Value.asBound : Value → Value
  | .pattern source => .text source
  | v => v

/-- What one constraint item sets, in the order of the family's keywords. -/
def Constraint.keywords (family : List (Attribute × String)) (c : Constraint) :
    List (String × Value) :=
  family.filterMap fun (a, keyword) => (c.attribute? a).map fun v =>
    (keyword, if a = .pattern then v.asBound else v)

namespace Record

/-- Writes keywords in order. -/
def putAll (r : Record) (keywords : List (String × Value)) : Record :=
  keywords.foldl (fun r (k, v) => r.put k (.data v)) r

/-- Writes what constraint items set. -/
def constrain (r : Record) (family : List (Attribute × String)) (cs : List Constraint) : Record :=
  r.putAll (cs.flatMap (Constraint.keywords family))

/-- A descriptor with a type and nothing else. -/
def ofType (name : String) : Record :=
  [("type", .data (.text name))]

end Record

/-- The one JSON type of all these types: integers and numbers together are numbers. A value without
a JSON type leaves none. -/
def commonType? (types : List (Option JsonType)) : Option JsonType :=
  if types.isEmpty then none
  else if types.all fun t => t == some .integer || t == some .number then
    if types.contains (some .number) then some .number else some .integer
  else match types with
    | [] => none
    | t :: rest => if rest.all (· == t) then t else none

/-- The members of an enumeration as JSON data; as they are, if one of them lies outside every data
format. -/
def membersData (members : List Value) : Except CompileFault (List Value) :=
  match (Value.list members).toData with
  | .ok (.list data) => .ok data
  | .ok _ | .error .unserializable => .ok members
  | .error f => .error (.data f)

/-- The descriptor of an enumeration with these members. -/
def enumerationRecord (members : List Value) : Record :=
  let type : Record := match commonType? (members.map Value.jsonType?) with
    | some t => Record.ofType t.name
    | none => []
  type ++ [("enum", .data (.list members))]

/-- The descriptor of a constant. -/
def constantRecord (v : Value) : Record :=
  let type : Record := match v.jsonType? with
    | some t => Record.ofType t.name
    | none => []
  ("const", .data v) :: type

/-- The descriptor of a base that is no object. The descriptor of elements or values is asked of
`child`; `label` names the type in a report. -/
def Base.toRecord (child : TypeExpr → Compile Address) (label : String) (cs : List Constraint) :
    Base → Compile Record
  | .string format =>
    let start : Record := match format with
      | some f => Record.ofType "string" ++ [("format", .data (.text f.name))]
      | none => Record.ofType "string"
    return start.constrain textKeywords cs
  | .number integer =>
    return (Record.ofType (if integer then "integer" else "number")).constrain numberKeywords cs
  | .boolean => return Record.ofType "boolean"
  | .array element => do
    let a ← child element
    let start : Record := Record.ofType "array" ++ [("items", .schema a)]
    return start.constrain arrayKeywords cs
  | .enumeration members => return enumerationRecord (← membersData members)
  | .literal member => do
    match ← membersData [member] with
    | v :: _ => return constantRecord v
    | [] => return constantRecord member
  | .record value => do
    let a ← child value
    return Record.ofType "object" ++ [("additionalProperties", .schema a)]
  | .object _ | .unknown => do
    modify (·.report (.unsupported label))
    return Record.ofType "any"

/-- A type keyword that allows null too. Null is added to a list of types once; a single type
becomes a list. -/
def typeWithNull (type : Option Value) : Value :=
  let absent : Value := .text "null"
  match type with
  | none | some .null => .list [absent]
  | some (.list types) => if absent.memberOf types then .list types else .list (types ++ [absent])
  | some t => if t.equal absent then t else .list [t, absent]

end ToolCatalog
