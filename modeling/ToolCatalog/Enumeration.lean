import ToolCatalog.Enumeration.Conversion
import ToolCatalog.Value.Equality

/-!
Enumerations: named values, where a name for a value that already has one is an alias.

Names of a special form name no member. Iteration over an enumeration goes over its members in the
order of their definition; over a flag enumeration, only those that are a single bit. A member of a
flag enumeration is made of the members that are its bits.
-/
namespace ToolCatalog

/-- A member: its name and its value. -/
structure EnumMember where
  name : String
  value : Value

/-- An enumeration: its members, the aliases with the member each one means, and the names that are
set aside. -/
structure Enumeration where
  name : String
  kind : EnumKind
  members : List EnumMember
  aliases : List (String × String)
  ignored : List String

namespace EnumKind

/-- Whether members of this kind are made of bits. -/
def isFlag : EnumKind → Bool
  | .flag | .integerFlag => true
  | _ => false

/-- Whether iteration over an enumeration of this kind meets a member with this value. -/
def iterates (kind : EnumKind) (v : Value) : Bool :=
  !kind.isFlag || v.integer?.any fun i => 0 < i && i.toNat &&& (i.toNat - 1) == 0

end EnumKind

namespace Enumeration

/-- Whether a name is reserved: one underscore at both ends, or two, and none next to them. -/
def reserved (name : String) : Bool :=
  match name.toList, name.toList.reverse with
  | '_' :: '_' :: a :: _, '_' :: '_' :: b :: _ => 4 < name.length && a != '_' && b != '_'
  | '_' :: a :: _, '_' :: b :: _ => 2 < name.length && a != '_' && b != '_'
  | _, _ => false

/-- Whether a name is private to the enumeration: it starts with the enumeration's name between
underscores and does not end with two of them. -/
def isPrivate (e : Enumeration) (name : String) : Bool :=
  let start := s!"_{e.name}__"
  name.startsWith start && start.length < name.length && !name.endsWith "__"

/-- The names that a value sets aside: those of a list, or the words of a text. -/
def setAside (v : Value) : List String :=
  match v, v.textual? with
  | _, some s => (s.toList.splitBy fun a b => !separates a && !separates b).filterMap fun word =>
      if word.any separates then none else some (String.ofList word)
  | .list items, none | .tuple items, none | .set items, none | .frozenSet items, none =>
    items.filterMap Value.textual?
  | _, none => []
where
  separates (c : Char) : Bool := c == ',' || Text.blank c

/-- The members that iteration meets. -/
def canonical (e : Enumeration) : List EnumMember :=
  e.members.filter fun m => e.kind.iterates m.value

/-- Whether a new value means the same member as an earlier one: values that can be looked up are
looked up among those that can, the others are compared with all. -/
def sameMember (earlier new : Value) : Bool :=
  (!new.hashable || earlier.hashable) && earlier.equal new

/-- The first member that a value means. -/
def find? (e : Enumeration) (v : Value) : Option EnumMember :=
  e.members.find? fun m => sameMember m.value v

/-- Adds a name for a value. -/
def define (e : Enumeration) (name : String) (written : Value) : Enumeration :=
  if name == "_ignore_" then { e with ignored := setAside written }
  else if reserved name || e.isPrivate name || e.ignored.contains name then e
  else
    let value := e.kind.convert written
    match e.find? value with
    | some first => { e with aliases := e.aliases ++ [(name, first.name)] }
    | none => { e with members := e.members ++ [⟨name, value⟩] }

/-- The enumeration with these definitions. -/
def ofDefinitions (name : String) (kind : EnumKind) (definitions : List (String × Value)) :
    Enumeration :=
  definitions.foldl (fun e (n, v) => e.define n v) ⟨name, kind, [], [], []⟩

/-- A member as a value. -/
def toValue (e : Enumeration) (m : EnumMember) : Value :=
  .member e.name m.name e.kind m.value

/-- The member that a name means. -/
def member? (e : Enumeration) (name : String) : Option Value :=
  let name := (e.aliases.lookup name).getD name
  (e.members.find? (·.name == name)).map e.toValue

/-- The values of the members that iteration meets, in order. -/
def values (e : Enumeration) : List Value :=
  e.canonical.map (·.value)

/-- Whether an integer has a bit; of a negative one, all bits from some place on are set. -/
def hasBit (i bit : Int) : Bool :=
  Int.fdiv i bit % 2 == 1

/-- The members that are the bits of a flag, in the order of their definition; bits that are no
member are passed over. -/
def parts? (e : Enumeration) (flag : Value) : Option (List Value) := do
  let i ← flag.integer?
  return (e.canonical.filter fun m => m.value.integer?.any (hasBit i)).map e.toValue

end Enumeration

end ToolCatalog
