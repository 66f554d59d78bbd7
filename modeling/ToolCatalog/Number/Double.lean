import ToolCatalog.Number.Exact
import ToolCatalog.Number.Rounding

/-!
Numbers in double precision.

A finite double is a significand of at most 53 binary digits times a power of two. All of its digits
are used unless the exponent is already the least one, so equal doubles are the same. Conversion to
a double takes the nearest one, and of two equally near ones the one with the even significand.
-/
namespace ToolCatalog

/-- A number in double precision. -/
inductive Double
  | finite (negative : Bool) (significand : Nat) (exponent : Int)
  | infinite (negative : Bool)
  | undefined
  deriving DecidableEq, Repr, Inhabited

namespace Double

/-- The exponent below which no double goes. -/
def leastExponent : Int := -1074

/-- The exponent above which there is no finite double. -/
def greatestExponent : Int := 971

/-- Zero. -/
def zero (negative : Bool) : Double :=
  .finite negative 0 leastExponent

/-- The exponent of two with which a positive quotient takes 53 binary digits, if that is not below
the least one. -/
def exponentOf (num den : Nat) : Int :=
  let guess : Int := (num.log2 : Int) - den.log2
  let (n, d) := Number.scale 2 (-guess) num den
  max ((if d ≤ n then guess else guess - 1) - 52) leastExponent

/-- The double nearest to a quotient. -/
def ofQuotient (negative : Bool) (num den : Nat) : Double :=
  if num == 0 then zero negative
  else
    let exponent := exponentOf num den
    let (n, d) := Number.scale 2 (-exponent) num den
    let m := Number.nearest n d
    let (m, exponent) := if m == Nat.pow 2 53 then (Nat.pow 2 52, exponent + 1) else (m, exponent)
    if greatestExponent < exponent then .infinite negative else .finite negative m exponent

/-- The double nearest to an integer. -/
def ofInt (i : Int) : Double :=
  ofQuotient (i < 0) i.natAbs 1

/-- The double nearest to digits times a power of ten. Powers that go far beyond all doubles are
not computed. -/
def ofScientific (negative : Bool) (digits : Nat) (exponent : Int) : Double :=
  let point := (toString digits).length + exponent
  if digits == 0 || point < -330 then zero negative
  else if 320 < point then .infinite negative
  else
    let (num, den) := Number.scale 10 exponent digits 1
    ofQuotient negative num den

/-- The exact number that a double is. -/
def exact : Double → Exact
  | .finite negative significand exponent => .scaled negative significand exponent 0
  | .infinite negative => .infinite negative
  | .undefined => .undefined

/-- The quotient that the size of a finite double is. -/
def quotient (significand : Nat) (exponent : Int) : Nat × Nat :=
  Number.scale 2 exponent significand 1

/-- The integer part, cut towards zero; `none` when there is no such integer. -/
def truncate? : Double → Option Int
  | .finite negative significand exponent =>
    let (num, den) := quotient significand exponent
    let n : Int := (num / den : Nat)
    some (if negative then -n else n)
  | _ => none

end Double

end ToolCatalog
