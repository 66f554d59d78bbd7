/-!
Exact numbers, so that numbers of different kinds can be compared.

A number is kept as a product: what is left of it without its factors two and five, and how often it
has each of these. The numbers that binary or decimal notation can write all have this form, with
exponents of any size, and two of them are equal exactly if they are the same product.
-/
namespace ToolCatalog

/-- An exact number, or one of the values that are no rational number. -/
inductive Exact
  | zero
  /-- `core` times two and five to their powers; `core` has neither factor itself. -/
  | product (negative : Bool) (core : Nat) (twos fives : Int)
  | infinite (negative : Bool)
  | undefined
  deriving DecidableEq, Repr

namespace Exact

/-- How often a factor divides a number, and what is left of the number; the first argument bounds
how often. -/
def split (factor : Nat) : Nat → Nat → Nat × Nat
  | 0, n => (0, n)
  | room + 1, n =>
    if n % factor == 0 then
      let (count, left) := split factor room (n / factor)
      (count + 1, left)
    else (0, n)

/-- A natural number times two and five to their powers. A number has at most as many factors as it
has binary digits. -/
def scaled (negative : Bool) (m : Nat) (twos fives : Int) : Exact :=
  if m == 0 then .zero
  else
    let (moreTwos, odd) := split 2 (m.log2 + 1) m
    let (moreFives, core) := split 5 (odd.log2 + 1) odd
    .product negative core (twos + moreTwos) (fives + moreFives)

/-- An integer. -/
def ofInt (i : Int) : Exact :=
  scaled (i < 0) i.natAbs 0 0

/-- Equality of numbers; nothing equals an undefined number. -/
def equal (x y : Exact) : Bool :=
  x != .undefined && x == y

end Exact

end ToolCatalog
