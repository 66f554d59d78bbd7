import ToolCatalog.Entries
import ToolCatalog.Value

/-!
Descriptors and how they refer to each other.

A descriptor is a record of keywords. Its subordinate descriptors are given by their addresses, so
that descriptors can be shared and can lead back to themselves. A record never changes once it has
been added; the properties and the required names of an object stand in a body of their own, which
is filled while the object is walked, and which copies of the record share.
-/
namespace ToolCatalog

/-- Where a record or a body stands in a graph. -/
abbrev Address := Nat

/-- What a keyword of a descriptor holds. -/
inductive Slot
  | data (v : Value)
  /-- The descriptor of elements or of the values under free keys. -/
  | schema (a : Address)
  /-- The properties of a body. -/
  | properties (body : Address)
  /-- The required names of a body. -/
  | required (body : Address)

/-- A descriptor: its keywords in order. -/
abbrev Record := Entries Slot

/-- The named part of an object's descriptor. -/
structure Body where
  properties : Entries Address
  required : List String
  deriving Inhabited

/-- Records and bodies by address. -/
structure Graph where
  records : Array Record
  bodies : Array Body

namespace Graph

/-- A graph without descriptors. -/
def empty : Graph := ⟨#[], #[]⟩

/-- The record at an address. -/
def record (g : Graph) (a : Address) : Record :=
  (g.records[a]?).getD []

/-- The body at an address. -/
def body (g : Graph) (b : Address) : Body :=
  (g.bodies[b]?).getD ⟨[], []⟩

/-- Adds a record, and tells its address. -/
def addRecord (g : Graph) (r : Record) : Address × Graph :=
  (g.records.size, { g with records := g.records.push r })

/-- Adds a body, and tells its address. -/
def addBody (g : Graph) (b : Body) : Address × Graph :=
  (g.bodies.size, { g with bodies := g.bodies.push b })

/-- Changes the body at an address. -/
def modifyBody (g : Graph) (b : Address) (f : Body → Body) : Graph :=
  { g with bodies := g.bodies.modify b f }

end Graph

namespace Record

/-- The data that a keyword holds. -/
def data? (r : Record) (key : String) : Option Value :=
  match r.lookup key with
  | some (.data v) => some v
  | _ => none

/-- The body that holds a record's properties. -/
def body? (r : Record) : Option Address :=
  match r.lookup "properties" with
  | some (.properties b) => some b
  | _ => none

end Record

end ToolCatalog
