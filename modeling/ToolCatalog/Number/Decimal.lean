import ToolCatalog.Number.Double
import ToolCatalog.Number.Numeral

/-!
Decimal numbers, which keep the digits they are written with.

A decimal number is digits times a power of ten, so that 1.5 and 1.50 are equal and yet not the
same. Its text has the point in its place while at most five zeros follow the point and no digit is
missing before it; otherwise a power of ten is written.
-/
namespace ToolCatalog

/-- A decimal number, or one of the values that are no number. -/
inductive Decimal
  | finite (negative : Bool) (digits : Nat) (exponent : Int)
  | infinite (negative : Bool)
  /-- No number; it may carry a mark, and signalling ones may not be compared. -/
  | undefined (negative signalling : Bool) (mark : Nat)
  deriving DecidableEq, Repr, Inhabited

namespace Decimal

/-- The exact number that a decimal is. -/
def exact : Decimal → Exact
  | .finite negative digits exponent => .scaled negative digits exponent exponent
  | .infinite negative => .infinite negative
  | .undefined _ _ _ => .undefined

/-- Whether a decimal may not be compared. -/
def signals : Decimal → Bool
  | .undefined _ signalling _ => signalling
  | _ => false

/-- The number of digits before the point. -/
def wholeDigits : Decimal → Nat
  | .finite _ digits exponent =>
    if digits == 0 then 1 else ((toString digits).length + exponent).toNat
  | _ => 0

/-- The integer part, cut towards zero; `none` when there is no such integer. -/
def truncate? : Decimal → Option Int
  | .finite negative digits exponent =>
    let n : Int :=
      if digits == 0 then 0
      else if 0 ≤ exponent then (digits * Nat.pow 10 exponent.toNat : Nat)
      else if (toString digits).length + exponent ≤ 0 then 0
      else (digits / Nat.pow 10 (-exponent).toNat : Nat)
    some (if negative then -n else n)
  | _ => none

/-- The double nearest to a decimal. -/
def toDouble : Decimal → Double
  | .finite negative digits exponent => .ofScientific negative digits exponent
  | .infinite negative => .infinite negative
  | .undefined _ _ _ => .undefined

/-- The text of digits and a power of ten. -/
def sizeText (digits : Nat) (exponent : Int) : String :=
  let ds := toString digits
  let point := exponent + ds.length
  if exponent ≤ 0 && -5 ≤ point then
    if exponent == 0 then ds
    else if point ≤ 0 then "0." ++ String.ofList (List.replicate (-point).toNat '0') ++ ds
    else (ds.take point.toNat).toString ++ "." ++ (ds.drop point.toNat).toString
  else
    let fraction := (ds.drop 1).toString
    let power := point - 1
    (ds.take 1).toString ++ (if fraction.isEmpty then "" else "." ++ fraction)
      ++ (if power < 0 then "E-" else "E+") ++ toString power.natAbs

/-- The text of a decimal. -/
def text (d : Decimal) : String :=
  match d with
  | .finite negative digits exponent => sign negative ++ sizeText digits exponent
  | .infinite negative => sign negative ++ "Infinity"
  | .undefined negative signalling mark =>
    sign negative ++ (if signalling then "sNaN" else "NaN")
      ++ (if mark == 0 then "" else toString mark)
where
  sign (negative : Bool) : String := if negative then "-" else ""

/-- Reads the size of a decimal from characters without blanks and underscores. -/
def readSize? (negative : Bool) (cs : List Char) : Option Decimal :=
  let letters := cs.takeWhile (!·.isDigit)
  let mark := cs.dropWhile (!·.isDigit)
  match Number.lowered letters, mark with
  | "inf", [] | "infinity", [] => some (.infinite negative)
  | "nan", mark => (undefined? false mark)
  | "snan", mark => (undefined? true mark)
  | _, _ => (Number.readScientific? cs).map fun n => .finite negative n.digits n.exponent
where
  undefined? (signalling : Bool) (mark : List Char) : Option Decimal :=
    if mark.all Char.isDigit then some (.undefined negative signalling (Number.ofDigits mark))
    else none

/-- Reads a decimal from its text. -/
def ofText? (s : String) : Option Decimal :=
  let (negative, cs) := Number.takeSign ((Number.plainNumeral s).filter (· != '_'))
  readSize? negative cs

end Decimal

end ToolCatalog
