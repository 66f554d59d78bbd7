/-!
The named types: classes that exist before any declaration, and the heads of parametrised types.
-/
namespace ToolCatalog

/-- A class that needs no declaration. -/
inductive Builtin
  | text
  | integer
  | real
  | boolean
  | bytes
  | byteArray
  | object
  | complex
  | type
  | range
  | list
  | set
  | frozenSet
  | tuple
  | dict
  | decimal
  | uuid
  | dateTime
  | date
  | time
  | timeSpan
  | email
  | namedEmail
  | anyUrl
  | httpUrl
  | fileUrl
  | secretText
  | path
  | namedTuple
  | deque
  | orderedDict
  | enumeration
  | integerEnumeration
  | abstractSequence
  | abstractMapping
  | abstractSet
  /-- The class whose only instance is the null value. -/
  | nothing
  /-- The class of all values. -/
  | anything
  deriving DecidableEq, Repr

namespace Builtin

/-- The module a class is shown with; empty for the classes that are always in scope. -/
def home : Builtin → String
  | .decimal => "decimal."
  | .uuid => "uuid."
  | .dateTime | .date | .time | .timeSpan => "datetime."
  | .email | .namedEmail | .anyUrl | .httpUrl | .fileUrl => "pydantic.networks."
  | .secretText => "pydantic.types."
  | .path => "pathlib."
  | .deque | .orderedDict => "collections."
  | .enumeration | .integerEnumeration => "enum."
  | .abstractSequence | .abstractMapping | .abstractSet => "collections.abc."
  | .anything => "typing."
  | _ => ""

/-- A class's own name. -/
def name : Builtin → String
  | .text => "str"
  | .integer => "int"
  | .real => "float"
  | .boolean => "bool"
  | .bytes => "bytes"
  | .byteArray => "bytearray"
  | .object => "object"
  | .complex => "complex"
  | .type => "type"
  | .range => "range"
  | .list => "list"
  | .set => "set"
  | .frozenSet => "frozenset"
  | .tuple => "tuple"
  | .dict => "dict"
  | .decimal => "Decimal"
  | .uuid => "UUID"
  | .dateTime => "datetime"
  | .date => "date"
  | .time => "time"
  | .timeSpan => "timedelta"
  | .email => "EmailStr"
  | .namedEmail => "NameEmail"
  | .anyUrl => "AnyUrl"
  | .httpUrl => "HttpUrl"
  | .fileUrl => "FileUrl"
  | .secretText => "SecretStr"
  | .path => "Path"
  | .namedTuple => "PointNT"
  | .deque => "deque"
  | .orderedDict => "OrderedDict"
  | .enumeration => "Enum"
  | .integerEnumeration => "IntEnum"
  | .abstractSequence => "Sequence"
  | .abstractMapping => "Mapping"
  | .abstractSet => "Set"
  | .nothing => "NoneType"
  | .anything => "Any"

/-- Whether the class is a class of resource locators. -/
def isUrl : Builtin → Bool
  | .anyUrl | .httpUrl | .fileUrl => true
  | _ => false

end Builtin

/-- What a parametrised type is a type of, whichever way it is spelled. -/
inductive Origin
  | list
  | set
  | frozenSet
  | tuple
  | dict
  | sequence
  | mutableSequence
  | abstractSet
  | mutableSet
  | mapping
  | mutableMapping
  | other (name : String)
  deriving DecidableEq, Repr

/-- The name of an origin. -/
def Origin.name : Origin → String
  | .list => "list"
  | .set => "set"
  | .frozenSet => "frozenset"
  | .tuple => "tuple"
  | .dict => "dict"
  | .sequence => "Sequence"
  | .mutableSequence => "MutableSequence"
  | .abstractSet => "Set"
  | .mutableSet => "MutableSet"
  | .mapping => "Mapping"
  | .mutableMapping => "MutableMapping"
  | .other name => name

/-- Whether values of a type with this origin are written as JSON arrays of one element type. -/
def Origin.isArray : Origin → Bool
  | .list | .set | .frozenSet | .sequence | .mutableSequence | .abstractSet | .mutableSet => true
  | _ => false

/-- Whether values of a type with this origin are written as JSON objects with free keys. -/
def Origin.isRecord : Origin → Bool
  | .dict | .mapping | .mutableMapping => true
  | _ => false

/-- The three ways to spell a parametrised type: by its class, by its alias among the type forms, or
by its abstract class. -/
inductive Spelling
  | direct
  | form
  | abstract
  deriving DecidableEq, Repr

/-- The head of a parametrised type. -/
structure Head where
  spelling : Spelling
  name : String
  origin : Origin
  deriving DecidableEq, Repr

namespace Head

/-- The origin that a name stands for among the type forms. -/
def formOrigin : String → Origin
  | "List" => .list
  | "Set" => .set
  | "FrozenSet" => .frozenSet
  | "Tuple" => .tuple
  | "Dict" => .dict
  | "Sequence" => .sequence
  | "MutableSequence" => .mutableSequence
  | "AbstractSet" => .abstractSet
  | "MutableSet" => .mutableSet
  | "Mapping" => .mapping
  | "MutableMapping" => .mutableMapping
  | "Type" => .other "type"
  | "Deque" => .other "deque"
  | "DefaultDict" => .other "defaultdict"
  | name => .other name

/-- The origin that a name stands for among the abstract classes. -/
def abstractOrigin : String → Origin
  | "Sequence" => .sequence
  | "MutableSequence" => .mutableSequence
  | "Set" => .abstractSet
  | "MutableSet" => .mutableSet
  | "Mapping" => .mapping
  | "MutableMapping" => .mutableMapping
  | name => .other name

/-- The origin that a class name stands for. -/
def directOrigin : String → Origin
  | "list" => .list
  | "set" => .set
  | "frozenset" => .frozenSet
  | "tuple" => .tuple
  | "dict" => .dict
  | name => .other name

/-- A type form's head. -/
def ofForm (name : String) : Head :=
  ⟨.form, name, formOrigin name⟩

/-- Reads a head: `typing.` marks a type form, `abc.` an abstract class. -/
def ofWritten (s : String) : Head :=
  if s.startsWith "typing." then ofForm (s.drop 7).toString
  else if s.startsWith "abc." then
    let name := (s.drop 4).toString
    ⟨.abstract, name, abstractOrigin name⟩
  else ⟨.direct, s, directOrigin s⟩

/-- A head as it is shown. -/
def shown (h : Head) : String :=
  match h.spelling with
  | .form => "typing." ++ h.name
  | .abstract => "collections.abc." ++ h.name
  | .direct =>
    if ["deque", "defaultdict", "OrderedDict", "Counter", "ChainMap"].contains h.name then
      "collections." ++ h.name
    else h.name

end Head

/-- A type without parts. All occurrences of one atom are one object. -/
inductive Atom
  | builtin (b : Builtin)
  /-- A type form without parameters. -/
  | bare (head : Head)
  | newType
  | typeVariable
  /-- A special form that is no type by itself. -/
  | special (name : String)
  /-- The null value, used as a type. -/
  | null
  /-- The mark for "any number of these". -/
  | ellipsis
  deriving DecidableEq, Repr

namespace Atom

/-- The builtin classes that are written under a name of their own. -/
def writtenBuiltins : List (String × Builtin) :=
  [("namedtuple", .namedTuple), ("abc.Sequence", .abstractSequence),
    ("abc.Mapping", .abstractMapping), ("abc.Set", .abstractSet)]

/-- The builtin classes that are written as their name. -/
def plainBuiltins : List Builtin :=
  [.text, .integer, .real, .boolean, .bytes, .byteArray, .object, .complex, .type, .range, .list,
    .set, .frozenSet, .tuple, .dict, .decimal, .uuid, .dateTime, .date, .time, .timeSpan, .email,
    .namedEmail, .anyUrl, .httpUrl, .fileUrl, .secretText, .path, .deque, .orderedDict,
    .enumeration, .integerEnumeration, .nothing, .anything]

/-- The builtin class with this written name. -/
def builtinOfWritten? (s : String) : Option Builtin :=
  match writtenBuiltins.lookup s with
  | some b => some b
  | none => plainBuiltins.find? (·.name == s)

/-- The builtin class that a name means where nothing is declared under it: only the classes that
are always in scope. -/
def alwaysInScope? (s : String) : Option Builtin :=
  plainBuiltins.find? fun b => b.name == s && b.home.isEmpty && b != .nothing

/-- The special forms that are written under the prefix of the type forms. -/
def specialForms : List String :=
  ["Union", "Optional", "Literal", "TypedDict"]

/-- Reads an atom. -/
def ofWritten? (s : String) : Option Atom :=
  match s with
  | "None" => some .null
  | "..." => some .ellipsis
  | "newtype" => some .newType
  | "typevar" => some .typeVariable
  | s =>
    match builtinOfWritten? s with
    | some b => some (.builtin b)
    | none =>
      if s.startsWith "typing." then
        let name := (s.drop 7).toString
        if specialForms.contains name then some (.special name) else some (.bare (Head.ofForm name))
      else none

/-- The written name of an atom. -/
def written : Atom → String
  | .builtin b => ((writtenBuiltins.find? (·.2 == b)).map (·.1)).getD b.name
  | .bare h => "typing." ++ h.name
  | .newType => "newtype"
  | .typeVariable => "typevar"
  | .special name => "typing." ++ name
  | .null => "None"
  | .ellipsis => "..."

end Atom

end ToolCatalog
