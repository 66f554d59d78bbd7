/-!
Entries in the order of their first writing.

Writing an existing key changes its value in place; a new key goes to the end.
-/
namespace ToolCatalog

/-- A map from texts that remembers the order in which its keys were first written. -/
abbrev Entries (α : Type) := List (String × α)

namespace Entries

variable {α : Type}

/-- Writes a key. -/
def put (key : String) (value : α) : Entries α → Entries α
  | [] => [(key, value)]
  | (k, v) :: rest => if k = key then (k, value) :: rest else (k, v) :: put key value rest

/-- Removes a key. -/
def remove (key : String) (entries : Entries α) : Entries α :=
  entries.filter (·.1 ≠ key)

/-- The keys in order. -/
def keys (entries : Entries α) : List String :=
  entries.map (·.1)

/-- The map written by these entries in order. -/
def ofList (entries : List (String × α)) : Entries α :=
  entries.foldl (fun acc (k, v) => put k v acc) []

end Entries

end ToolCatalog
