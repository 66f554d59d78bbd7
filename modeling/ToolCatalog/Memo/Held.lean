import ToolCatalog.Declarations
import ToolCatalog.Session

/-!
A memo of type expressions that are held by names.

An expression lives as long as a name holds it; classes and what the declarations hold live for
ever.
-/
namespace ToolCatalog

/-- A memo, and the names that hold expressions. -/
structure HeldMemo (α : Type) where
  memo : Memo Key α
  names : Entries TypeExpr

/-- Whether an expression lives for ever: atoms, classes and members, and what a name of the
declarations stands for. -/
def Scope.outlasts (scope : Scope) (t : TypeExpr) : Bool :=
  match t.key with
  | .object _ => scope.any fun
    | (_, .shorthand u) => u.key = t.key
    | _ => false
  | _ => true

namespace HeldMemo

variable {α : Type}

/-- Nothing held and nothing remembered. -/
def empty : HeldMemo α := ⟨.empty, []⟩

/-- Reacts to the fact that a name does not hold an expression any more: it dies if nothing else
holds it. -/
def release (h : HeldMemo α) (scope : Scope) (t : TypeExpr) : HeldMemo α :=
  if scope.outlasts t || h.names.any (·.2.key = t.key) then h
  else { h with memo := h.memo.forget (Session.occupant t) }

/-- Changes what the names hold; what a name has held before is released. -/
def rename (h : HeldMemo α) (scope : Scope) (name : String) (names : Entries TypeExpr) :
    HeldMemo α :=
  let changed := { h with names }
  match h.names.lookup name with
  | some t => changed.release scope t
  | none => changed

/-- Lets a name hold an expression. -/
def hold (h : HeldMemo α) (scope : Scope) (name : String) (t : TypeExpr) : HeldMemo α :=
  h.rename scope name (h.names.put name t)

/-- Lets a name hold nothing. -/
def drop (h : HeldMemo α) (scope : Scope) (name : String) : HeldMemo α :=
  h.rename scope name (Entries.remove name h.names)

/-- Remembers a value for what a name holds, if that can be watched, and tells whether it can. -/
def set (h : HeldMemo α) (name : String) (v : α) : Bool × HeldMemo α :=
  match h.names.lookup name with
  | none => (false, h)
  | some t =>
    if t.watchable then (true, { h with memo := h.memo.insert (Session.occupant t) v })
    else (false, h)

/-- The value remembered for what a name holds. -/
def get? (h : HeldMemo α) (name : String) : Option α :=
  (h.names.lookup name).bind fun t => h.memo.get? (Session.occupant t)

/-- Forgets all values. -/
def clear (h : HeldMemo α) : HeldMemo α :=
  { h with memo := h.memo.clear }

end HeldMemo

end ToolCatalog
