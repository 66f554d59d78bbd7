import ToolCatalog.Text.Blank
import ToolCatalog.Text.Digit

/-!
Reading numerals.

Blanks around a numeral are passed over, digits may be those of any script, and single underscores
may stand between digits.
-/
namespace ToolCatalog.Number

/-- A numeral with ASCII digits and without blanks around it. -/
def plainNumeral (s : String) : List Char :=
  let digit (c : Char) : Char :=
    match Text.digit? c with
    | some d => Nat.digitChar d
    | none => c
  (Text.trimRight (Text.trimLeft s.toList)).map digit

/-- A numeral without its underscores, if each stands between two digits. `before` is the character
before these, if there is one. -/
def withoutUnderscores? (before : Option Char) : List Char → Option (List Char)
  | [] => if before == some '_' then none else some []
  | c :: rest =>
    if c == '_' then
      if before.any Char.isDigit then withoutUnderscores? (some c) rest else none
    else if before == some '_' && !c.isDigit then none
    else (withoutUnderscores? (some c) rest).map (c :: ·)

/-- A sign, if there is one: whether it is a minus, and what follows. -/
def takeSign : List Char → Bool × List Char
  | '-' :: rest => (true, rest)
  | '+' :: rest => (false, rest)
  | rest => (false, rest)

/-- The number that decimal digits are. -/
def ofDigits (ds : List Char) : Nat :=
  ds.foldl (fun n c => 10 * n + (c.toNat - 48)) 0

/-- The value of a hexadecimal digit. -/
def hexValue? (c : Char) : Option Nat :=
  if c.isDigit then some (c.toNat - 48)
  else if 'a' ≤ c.toLower && c.toLower ≤ 'f' then some (c.toLower.toNat - 87)
  else none

/-- The number that hexadecimal digits are. -/
def ofHex? (ds : List Char) : Option Nat :=
  ds.foldlM (fun n c => (hexValue? c).map (16 * n + ·)) 0

/-- A decimal number as it is written: digits, and the power of ten that they count. -/
structure Scientific where
  digits : Nat
  exponent : Int
  deriving DecidableEq, Repr

/-- Reads an optional power of ten. -/
def readPower? : List Char → Option Int
  | [] => some 0
  | mark :: rest =>
    if mark == 'e' || mark == 'E' then
      let (negative, ds) := takeSign rest
      if ds.isEmpty || !ds.all Char.isDigit then none
      else some (if negative then -(ofDigits ds : Int) else ofDigits ds)
    else none

/-- Reads digits with an optional point and an optional power of ten. -/
def readScientific? (cs : List Char) : Option Scientific := do
  let whole := cs.takeWhile Char.isDigit
  let afterWhole := cs.dropWhile Char.isDigit
  let (fraction, afterFraction) := match afterWhole with
    | '.' :: rest => (rest.takeWhile Char.isDigit, rest.dropWhile Char.isDigit)
    | rest => ([], rest)
  if whole.isEmpty && fraction.isEmpty then none
  let power ← readPower? afterFraction
  return ⟨ofDigits (whole ++ fraction), power - fraction.length⟩

/-- ASCII letters in lower case. -/
def lowered (cs : List Char) : String :=
  String.ofList (cs.map Char.toLower)

end ToolCatalog.Number
