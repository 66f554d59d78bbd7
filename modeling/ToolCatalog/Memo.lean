/-!
A memo keyed by the identity of objects, which it does not keep alive.

An object occupies a slot; when it dies, another object may take over the slot. An entry therefore
remembers which incarnation of its slot it was written for, and is found only through that one. Each
writing watches its object with a watch of its own, and when an object dies its watches are
reported, at any time after the death: `Memo.expire` drops the entry that was written with a
reported watch and no other.
-/
namespace ToolCatalog

/-- An object: a slot, and which of the objects that have been in it one after the other. -/
structure Occupant (σ : Type) where
  slot : σ
  incarnation : Nat
  deriving DecidableEq, Repr

/-- What was last written for a slot. -/
structure MemoEntry (σ α : Type) where
  slot : σ
  incarnation : Nat
  watch : Nat
  value : α

/-- The entries, at most one for a slot, and the number of the next watch. -/
structure Memo (σ α : Type) where
  entries : List (MemoEntry σ α)
  nextWatch : Nat

namespace Memo

variable {σ α : Type} [DecidableEq σ]

/-- A memo without entries. -/
def empty : Memo σ α := ⟨[], 0⟩

/-- The value remembered for an object. -/
def get? (m : Memo σ α) (o : Occupant σ) : Option α :=
  match m.entries.find? (·.slot = o.slot) with
  | some e => if e.incarnation = o.incarnation then some e.value else none
  | none => none

/-- Remembers a value for an object, in the place of what its slot had. -/
def insert (m : Memo σ α) (o : Occupant σ) (value : α) : Memo σ α :=
  { entries := m.entries.filter (·.slot ≠ o.slot) ++ [⟨o.slot, o.incarnation, m.nextWatch, value⟩]
    nextWatch := m.nextWatch + 1 }

/-- Forgets everything. The watches are forgotten with the entries, so none is reported later. -/
def clear (m : Memo σ α) : Memo σ α :=
  { m with entries := [] }

/-- Reacts to the report of a watch on an object that was in this slot. -/
def expire (m : Memo σ α) (slot : σ) (watch : Nat) : Memo σ α :=
  { m with entries := m.entries.filter fun e => !(e.slot = slot && e.watch = watch) }

/-- The watches on an object. -/
def watches (m : Memo σ α) (o : Occupant σ) : List Nat :=
  (m.entries.filter fun e => e.slot = o.slot && e.incarnation = o.incarnation).map (·.watch)

/-- The death of an object, with all its watches reported at once. -/
def forget (m : Memo σ α) (o : Occupant σ) : Memo σ α :=
  (m.watches o).foldl (fun m w => m.expire o.slot w) m

/-- The number of entries. -/
def size (m : Memo σ α) : Nat :=
  m.entries.length

end Memo

end ToolCatalog
