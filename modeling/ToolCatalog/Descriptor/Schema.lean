import ToolCatalog.Value

/-!
Schemas: descriptors written out as finite trees.

A schema stands by itself, with its subordinate schemas in place. `Schema.toValue` is the JSON data
that it is written as.
-/
namespace ToolCatalog

mutual

/-- A schema: its keywords in order. -/
inductive Schema
  | keywords (parts : List (String × SchemaPart))

/-- What a keyword of a schema holds. -/
inductive SchemaPart
  | data (v : Value)
  /-- The schema of elements or of the values under free keys. -/
  | schema (s : Schema)
  | properties (ps : List (String × Schema))

end

instance : Inhabited Schema := ⟨.keywords []⟩

namespace Schema

/-- The keywords of a schema with what they hold. -/
def parts : Schema → List (String × SchemaPart)
  | .keywords ps => ps

mutual

/-- A schema as a dictionary. -/
def toValue : Schema → Value
  | .keywords ps => .dict (partEntries ps)

/-- What a keyword holds as a value. -/
def partValue : SchemaPart → Value
  | .data v => v
  | .schema s => s.toValue
  | .properties ps => .dict (propertyEntries ps)

def partEntries : List (String × SchemaPart) → List (Value × Value)
  | [] => []
  | (k, p) :: rest => (.text k, partValue p) :: partEntries rest

def propertyEntries : List (String × Schema) → List (Value × Value)
  | [] => []
  | (k, s) :: rest => (.text k, s.toValue) :: propertyEntries rest

end

mutual

/-- The length of the longest chain of schemas inside each other. -/
def depth : Schema → Nat
  | .keywords ps => partsDepth ps + 1

def partsDepth : List (String × SchemaPart) → Nat
  | [] => 0
  | (_, .data _) :: rest => partsDepth rest
  | (_, .schema s) :: rest => max s.depth (partsDepth rest)
  | (_, .properties ps) :: rest => max (propertiesDepth ps) (partsDepth rest)

def propertiesDepth : List (String × Schema) → Nat
  | [] => 0
  | (_, s) :: rest => max s.depth (propertiesDepth rest)

end

end Schema

end ToolCatalog
