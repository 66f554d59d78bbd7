import ToolCatalog.Number.Shortest

/-!
Doubles with a set number of digits.

A double is rounded exactly, and of two equally near texts the one with the even last digit is
taken. There are three styles: a set number of digits after the point, a power of ten with a set
number of digits after its point, and a set number of digits at all, which are written with or
without a power of ten depending on the size of the number.
-/
namespace ToolCatalog

/-- A style in which a number is written with a set number of digits. -/
inductive NumberStyle
  | fixed
  | scientific
  | general
  deriving DecidableEq, Repr

namespace Double

/-- Digits with a point after so many of them. A point at the end is kept only if that is asked
for. -/
def withPoint (keepPoint : Bool) (digits : String) (before : Nat) : String :=
  let fraction := (digits.drop before).toString
  (digits.take before).toString
    ++ if fraction.isEmpty then (if keepPoint then "." else "") else "." ++ fraction

/-- A quotient with so many digits after the point. -/
def fixedText (keepPoint : Bool) (places num den : Nat) : String :=
  let (n, d) := Number.scale 10 places num den
  let ds := toString (Number.nearest n d)
  let ds := zeros (places + 1 - ds.length) ++ ds
  withPoint keepPoint ds (ds.length - places)

/-- So many leading digits of a quotient, at least one. -/
def leadingDigits (count num den : Nat) : Digits :=
  if num == 0 then ⟨zeros count, 1⟩
  else
    let point := Number.pointOf num den
    let (n, d) := Number.scale 10 (count - point) num den
    let m := Number.nearest n d
    if m == Nat.pow 10 count then ⟨toString (m / 10), point + 1⟩ else ⟨toString m, point⟩

/-- Digits with a power of ten. -/
def scientificText (keepPoint : Bool) (d : Digits) : String :=
  withPoint keepPoint d.digits 1 ++ powerText (d.point - 1)

/-- Digits with the point in its place. -/
def positionalText (keepPoint : Bool) (d : Digits) : String :=
  if d.point ≤ 0 then "0." ++ zeros (-d.point).toNat ++ d.digits
  else withPoint keepPoint (d.digits ++ zeros (d.point - d.digits.length).toNat) d.point.toNat

/-- So many digits of a quotient; zeros at the end are kept only if the point is. -/
def generalText (keepPoint : Bool) (count num den : Nat) : String :=
  let d := leadingDigits count num den
  let small := dropZeros d.digits
  let kept : Digits := if keepPoint then d else ⟨if small.isEmpty then "0" else small, d.point⟩
  if -4 < d.point && d.point ≤ count then positionalText keepPoint kept
  else scientificText keepPoint kept

/-- The text of a double in a style with so many digits. -/
def textIn (style : NumberStyle) (keepPoint : Bool) (count : Nat) (x : Double) : String :=
  match x with
  | .finite negative significand exponent =>
    let (num, den) := quotient significand exponent
    let size := match style with
      | .fixed => fixedText keepPoint count num den
      | .scientific => scientificText keepPoint (leadingDigits (count + 1) num den)
      | .general => generalText keepPoint (max count 1) num den
    (if negative then "-" else "") ++ size
  | x => x.text

end Double

end ToolCatalog
