import ToolCatalog.Descriptor.Graph

/-!
Reading descriptors from JSON data.

A document is a list of dictionaries, its entries. The dictionary with the one key `$ref` stands for
the entry with that number. Where a descriptor is expected it is that very descriptor, so that a
document can hold descriptors that lead back to themselves; within other data it is what the entry
holds. References within data are followed at most as often as the document has entries, which is
enough unless they lead in a circle.
-/
namespace ToolCatalog

namespace Graph

/-- The entry that a dictionary refers to. -/
def reference? : List (Value × Value) → Option Address
  | [(.text "$ref", .int i)] => some i.toNat
  | _ => none

/-- Whether all values of a dictionary are dictionaries. -/
def allDictionaries (entries : List (Value × Value)) : Bool :=
  entries.all fun
    | (.text _, .dict _) => true
    | _ => false

/-- What references stand for where no descriptor is expected. -/
structure Targets where
  /-- What an entry holds. -/
  data : Address → Value
  /-- The properties that an entry gives, if all its values are dictionaries. -/
  properties : Address → StateM Graph (Option (Entries Address))

mutual

/-- Data with its references replaced. -/
def Targets.replace (t : Targets) : Value → Value
  | .dict entries =>
    match reference? entries with
    | some a => t.data a
    | none => .dict (t.replaceEntries entries)
  | .list items => .list (t.replaceItems items)
  | .tuple items => .tuple (t.replaceItems items)
  | v => v

def Targets.replaceItems (t : Targets) : List Value → List Value
  | [] => []
  | v :: rest => t.replace v :: t.replaceItems rest

def Targets.replaceEntries (t : Targets) : List (Value × Value) → List (Value × Value)
  | [] => []
  | (k, v) :: rest => (k, t.replace v) :: t.replaceEntries rest

end

mutual

/-- Reads a dictionary where a descriptor is expected. -/
def readDescriptor (t : Targets) (entries : List (Value × Value)) : StateM Graph Address := do
  match reference? entries with
  | some a => return a
  | none =>
    let r ← readRecord t entries
    modifyGet (·.addRecord r)

/-- Reads the keywords of a dictionary. -/
def readRecord (t : Targets) : List (Value × Value) → StateM Graph Record
  | [] => return []
  | (.text k, v) :: rest => do
    let slot ← readSlot t k v
    return (k, slot) :: (← readRecord t rest)
  | _ :: rest => readRecord t rest

/-- Reads what a keyword holds. -/
def readSlot (t : Targets) (keyword : String) : Value → StateM Graph Slot
  | .dict entries => do
    if keyword = "properties" then
      let properties? ← match reference? entries with
        | some a => t.properties a
        | none =>
          if allDictionaries entries then some <$> readProperties t entries else pure none
      match properties? with
      | some properties => return .properties (← modifyGet (·.addBody ⟨properties, []⟩))
      | none => return .data (.dict entries)
    else if keyword = "items" || keyword = "additionalProperties" then
      return .schema (← readDescriptor t entries)
    else return .data (t.replace (.dict entries))
  | v => return .data (t.replace v)

def readProperties (t : Targets) : List (Value × Value) → StateM Graph (Entries Address)
  | (.text k, .dict entries) :: rest => do
    let a ← readDescriptor t entries
    return (k, a) :: (← readProperties t rest)
  | _ :: rest => readProperties t rest
  | [] => return []

end

/-- What the references in a document stand for; `room` is how often one is followed inside
another. -/
def targets (document : List Value) : Nat → Targets
  | 0 => ⟨fun a => document[a]?.getD .null, fun _ => return none⟩
  | room + 1 => {
      data := fun a => (targets document room).replace (document[a]?.getD .null)
      properties := fun a => do
        match document[a]? with
        | some (.dict entries) =>
          if allDictionaries entries then
            return some (← readProperties (targets document room) entries)
          else return none
        | _ => return none }

/-- Writes the records of a document's entries at their addresses. -/
def readAll (t : Targets) (a : Address) : List Value → StateM Graph Unit
  | [] => return
  | v :: rest => do
    let r ← match v with
      | .dict entries => readRecord t entries
      | _ => pure []
    modify fun g => { g with records := g.records.setIfInBounds a r }
    readAll t (a + 1) rest

/-- The graph of a document: its descriptors stand at the addresses that are their numbers. -/
def ofDocument (document : List Value) : Graph :=
  let t := targets document document.length
  ((readAll t 0 document).run ⟨(document.map fun _ => ([] : Record)).toArray, #[]⟩).2

end Graph

end ToolCatalog
