import ToolCatalog.Number.Double
import ToolCatalog.Number.Numeral

/-!
Reading doubles.
-/
namespace ToolCatalog.Double

/-- Reads the size of a double from characters without blanks and underscores. -/
def readSize? (negative : Bool) (cs : List Char) : Option Double :=
  match Number.lowered cs with
  | "inf" | "infinity" => some (.infinite negative)
  | "nan" => some .undefined
  | _ => (Number.readScientific? cs).map fun n => ofScientific negative n.digits n.exponent

/-- Reads a double from its decimal text. -/
def ofText? (s : String) : Option Double := do
  let (negative, cs) := Number.takeSign (← Number.withoutUnderscores? none (Number.plainNumeral s))
  readSize? negative cs

end ToolCatalog.Double
