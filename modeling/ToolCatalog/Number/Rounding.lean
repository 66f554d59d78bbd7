/-!
Rounding of quotients to whole numbers, and decimal digits of quotients.
-/
namespace ToolCatalog.Number

/-- The whole number nearest to a quotient; of two that are equally near, the even one. -/
def nearest (num den : Nat) : Nat :=
  let low := num / den
  let twice := 2 * (num % den)
  if twice < den then low
  else if den < twice then low + 1
  else if low % 2 == 0 then low
  else low + 1

/-- A quotient times a power of a base, as a numerator and a denominator. -/
def scale (base : Nat) (e : Int) (num den : Nat) : Nat × Nat :=
  if 0 ≤ e then (num * base.pow e.toNat, den) else (num, den * base.pow (-e).toNat)

/-- How many zeros follow the decimal point of a positive quotient less than one; the first argument
bounds how many are counted. -/
def leadingZeros : Nat → Nat → Nat → Nat
  | 0, _, _ => 0
  | room + 1, num, den => if 10 * num < den then leadingZeros room (10 * num) den + 1 else 0

/-- The number of decimal digits of a positive quotient before its point; for a quotient less than
one, the number of zeros after the point, taken negative. The zeros of a quotient are fewer than the
binary digits of its denominator. -/
def pointOf (num den : Nat) : Int :=
  if den ≤ num then (toString (num / den)).length else -(leadingZeros den.log2 num den : Int)

end ToolCatalog.Number
