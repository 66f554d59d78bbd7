import ToolCatalog.Number.Double

/-!
The decimal text of a double: the fewest digits that read back as the same double, and of those the
ones nearest to it.

For each number of digits, the two decimal numbers with that many digits that enclose the double are
tried. The point is written in place for numbers from 0.0001 up to 16 digits before the point; all
other numbers are written with a power of ten of at least two digits.
-/
namespace ToolCatalog.Double

/-- Digits, and how many of them stand before the point; a negative number counts zeros after it. -/
structure Digits where
  digits : String
  point : Int
  deriving DecidableEq, Repr

/-- A text without the zeros at its end. -/
def dropZeros (s : String) : String :=
  String.ofList (s.toList.reverse.dropWhile (· == '0')).reverse

/-- The nearest decimal number with this many digits that reads back as the double. -/
def readsBack? (x : Double) (num den : Nat) (point : Int) (count : Nat) : Option Digits :=
  let exponent := point - count
  let (n, d) := Number.scale 10 (-exponent) num den
  let low := n / d
  let good (m : Nat) : Bool := ofScientific false m exponent == x
  let pick (m : Nat) : Digits :=
    let s := toString m
    ⟨dropZeros s, exponent + s.length⟩
  match good low, good (low + 1) with
  | true, true => some (pick (if Number.nearest n d == low then low else low + 1))
  | true, false => some (pick low)
  | false, true => some (pick (low + 1))
  | false, false => none

/-- The digits of a positive double. Seventeen digits always read back. -/
def shortest (significand : Nat) (exponent : Int) : Digits :=
  let (num, den) := quotient significand exponent
  let point := Number.pointOf num den
  let x : Double := .finite false significand exponent
  ((List.range 17).findSome? fun n => readsBack? x num den point (n + 1)).getD ⟨"0", 1⟩

/-- Zeros. -/
def zeros (n : Nat) : String :=
  String.ofList (List.replicate n '0')

/-- Digits with the point in its place, and at least one digit after it. -/
def positional (d : Digits) : String :=
  let length : Int := d.digits.length
  if d.point ≤ 0 then "0." ++ zeros (-d.point).toNat ++ d.digits
  else if length ≤ d.point then d.digits ++ zeros (d.point - length).toNat ++ ".0"
  else (d.digits.take d.point.toNat).toString ++ "." ++ (d.digits.drop d.point.toNat).toString

/-- A power of ten as it is written after digits. -/
def powerText (e : Int) : String :=
  let size := toString e.natAbs
  (if e < 0 then "e-" else "e+") ++ (if size.length < 2 then "0" ++ size else size)

/-- Digits with the point after the first of them, and a power of ten. -/
def scientific (d : Digits) : String :=
  let fraction := (d.digits.drop 1).toString
  (d.digits.take 1).toString ++ (if fraction.isEmpty then "" else "." ++ fraction)
    ++ powerText (d.point - 1)

/-- The text of the size of a finite double. -/
def sizeText (significand : Nat) (exponent : Int) : String :=
  if significand == 0 then "0.0"
  else
    let d := shortest significand exponent
    if -4 < d.point && d.point ≤ 16 then positional d else scientific d

/-- The text of a double. -/
def text : Double → String
  | .finite negative significand exponent =>
    (if negative then "-" else "") ++ sizeText significand exponent
  | .infinite negative => if negative then "-inf" else "inf"
  | .undefined => "nan"

end ToolCatalog.Double
