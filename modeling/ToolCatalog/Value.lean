import ToolCatalog.Number.Decimal
import ToolCatalog.Time.Moment
import ToolCatalog.UniqueId

/-!
Runtime values: what a default, an enumeration member, a literal or a constraint bound can be.

A value is richer than JSON: it also has byte strings, tuples, sets, dictionaries with keys of
any kind, dates, decimals, enumeration members and opaque objects, which have nothing but an
identity. `Value.jsonType?` names the JSON type a value belongs to without conversion.
-/
namespace ToolCatalog

/-- How an enumeration's members relate to their values: `plain` and `flag` members are only
members, while members of the other kinds also count as a text, an integer or a number. The kinds
`integer`, `textual` and `integerFlag` are shown as their bare value. -/
inductive EnumKind
  | plain
  | text
  | integer
  | real
  | textual
  | flag
  | integerFlag
  deriving DecidableEq, Repr

/-- Which one an opaque object is. -/
inductive Identity
  /-- One of those that the definitions were written with. -/
  | written (number : Nat)
  /-- What a class gives that is called without arguments. It is never compared with another. -/
  | made
  /-- The copy of another object for this purpose. All copies for one purpose count as one. -/
  | copied (purpose : String) (original : Identity)
  deriving DecidableEq, Repr

/-- A runtime value. -/
inductive Value
  | null
  | bool (b : Bool)
  | int (i : Int)
  | float (x : Double)
  | text (s : String)
  | bytes (bs : List UInt8)
  | list (items : List Value)
  | tuple (items : List Value)
  | set (items : List Value)
  | frozenSet (items : List Value)
  | dict (entries : List (Value × Value))
  | decimal (d : Decimal)
  | date (d : Day)
  | dateTime (m : Moment)
  | time (t : TimeOfDay)
  | uuid (u : UniqueId)
  | pattern (source : String)
  /-- A member of an enumeration: the class, the member's own name, and its value. -/
  | member (enumeration name : String) (kind : EnumKind) (value : Value)
  /-- An opaque object: a bare one, without content. No data format can hold it, it equals only
  itself, and a copy of it is another one. -/
  | foreign (identity : Identity)
  /-- A list that contains itself. -/
  | endless
  deriving Inhabited

/-- The types of JSON, with integers told apart from other numbers. -/
inductive JsonType
  | null
  | boolean
  | string
  | integer
  | number
  | array
  | object
  deriving DecidableEq, Repr

/-- The word that names a JSON type in a schema. -/
def JsonType.name : JsonType → String
  | .null => "null"
  | .boolean => "boolean"
  | .string => "string"
  | .integer => "integer"
  | .number => "number"
  | .array => "array"
  | .object => "object"

/-- The JSON type of the values a member of this kind also counts as. -/
def EnumKind.jsonType? : EnumKind → Option JsonType
  | .text | .textual => some .string
  | .integer | .integerFlag => some .integer
  | .real => some .number
  | .plain | .flag => none

namespace Value

/-- The JSON type a value has as it stands, `none` when JSON has no counterpart for it. -/
def jsonType? : Value → Option JsonType
  | .null => some .null
  | .bool _ => some .boolean
  | .text _ => some .string
  | .int _ => some .integer
  | .float _ => some .number
  | .list _ | .tuple _ | .endless => some .array
  | .dict _ => some .object
  | .member _ _ kind _ => kind.jsonType?
  | _ => none

/-- The text a value counts as: a text itself, or a member of a textual enumeration. -/
def textual? : Value → Option String
  | .text s => some s
  | .member _ _ .text (.text s) => some s
  | .member _ _ .textual (.text s) => some s
  | _ => none

/-- Whether a value is absent. -/
def isNull : Value → Bool
  | .null => true
  | _ => false

/-- A list of texts. -/
def texts (names : List String) : Value :=
  .list (names.map .text)

/-- A value inside so many lists. -/
def inLists (v : Value) : Nat → Value
  | 0 => v
  | depth + 1 => inLists (.list [v]) depth

/-- `depth` empty lists inside each other: one is the empty list itself. -/
def nested (depth : Nat) : Value :=
  inLists (.list []) (depth - 1)

end Value

end ToolCatalog
