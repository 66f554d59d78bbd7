import ToolCatalog.Descriptor.Graph
import ToolCatalog.Descriptor.Schema
import ToolCatalog.Value.Copy
import ToolCatalog.Value.Equality

/-!
Writing out descriptors as schemas.

Descriptors may lead back to themselves, and a schema is finite: where a descriptor is met inside
itself, only the keywords that lead nowhere are written. A descriptor that merely occurs twice is
written twice. The canonical form keeps every keyword; the strict form is a clean JSON schema, in
which `optional` and types that allow anything are left out. Data is copied, so that a schema shares
nothing with the descriptors.
-/
namespace ToolCatalog

/-- The two forms in which descriptors are written out. -/
inductive ExportForm
  | canonical
  | strict
  deriving DecidableEq, Repr

/-- The word for a form. -/
def ExportForm.name : ExportForm → String
  | .canonical => "canonical"
  | .strict => "strict"

/-- Why a descriptor cannot be written out. -/
inductive ExportFault
  /-- The properties are no dictionary of descriptors. -/
  | malformedProperties
  /-- The recursion was not given enough room. -/
  | exhausted
  deriving DecidableEq, Repr

/-- Whether a type keyword allows anything. -/
def allowsAnything : Value → Bool
  | .list types => (Value.text "any").memberOf types
  | v => v.equal (.text "any")

/-- Whether a keyword with this value is kept. -/
def ExportForm.keeps (form : ExportForm) (keyword : String) (v : Value) : Bool :=
  match form with
  | .canonical => true
  | .strict => keyword != "optional" && !(keyword == "type" && allowsAnything v)

/-- Whether a keyword can lead to another descriptor, or belongs to one that does. -/
def leadsOn (keyword : String) : Bool :=
  ["properties", "required", "items", "additionalProperties"].contains keyword

/-- Writing out a descriptor, with the addresses of those that are being written. -/
abbrev Rendering := StateT (List Address) (Except ExportFault)

namespace Graph

/-- The data of a slot that leads nowhere. -/
def slotData? (g : Graph) : Slot → Option Value
  | .data v => some v
  | .required b => some (Value.texts (g.body b).required)
  | .schema _ | .properties _ => none

/-- The copy that is written of what a slot holds under a keyword, if that leads nowhere and the
form keeps it. -/
def copied? (g : Graph) (form : ExportForm) (keyword : String) (slot : Slot) : Option SchemaPart :=
  ((g.slotData? slot).filter (form.keeps keyword)).map fun v => .data (v.copy form.name)

/-- What is written of a descriptor inside itself. It is an object unless it says otherwise. -/
def backEdge (g : Graph) (form : ExportForm) (r : Record) : Schema :=
  let kept : List (String × SchemaPart) := r.filterMap fun (k, slot) =>
    if leadsOn k then none else (g.copied? form k slot).map fun p => (k, p)
  if (kept.lookup "type").isSome then .keywords kept
  else .keywords (kept ++ [("type", .data (.text "object"))])

/-- Writes out the properties of a body. -/
def renderProperties (child : Address → Rendering Schema) :
    Entries Address → Rendering (List (String × Schema))
  | [] => return []
  | (k, a) :: rest => do
    let s ← child a
    return (k, s) :: (← renderProperties child rest)

/-- Writes out the keywords of a record. -/
def renderSlots (g : Graph) (form : ExportForm) (child : Address → Rendering Schema) :
    Record → Rendering (List (String × SchemaPart))
  | [] => return []
  | (k, slot) :: rest => do
    let part? : Option SchemaPart ← match slot with
      | .schema a => do pure (some (.schema (← child a)))
      | .properties b => do
        pure (some (.properties (← renderProperties child (g.body b).properties)))
      | slot =>
        if k = "properties" then throw .malformedProperties
        else pure (g.copied? form k slot)
    let rest ← renderSlots g form child rest
    match part? with
    | some part => return (k, part) :: rest
    | none => return rest

/-- Writes out the descriptor at an address, with at most `room` descriptors inside each other. -/
def renderWithin (g : Graph) (form : ExportForm) : Nat → Address → Rendering Schema
  | 0, _ => throw .exhausted
  | room + 1, a => do
    if (← get).contains a then return g.backEdge form (g.record a)
    else
      modify (a :: ·)
      let parts ← renderSlots g form (renderWithin g form room) (g.record a)
      modify (·.erase a)
      return .keywords parts

/-- The schema of the descriptor at an address. Descriptors inside each other are distinct but for
the last one, so that their number bounds the recursion. -/
def render (g : Graph) (form : ExportForm) (a : Address) : Except ExportFault Schema :=
  (renderWithin g form (g.records.size + 1) a).run' []

end Graph

end ToolCatalog
