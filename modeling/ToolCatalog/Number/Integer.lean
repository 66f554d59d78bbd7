import ToolCatalog.Number.Numeral

/-!
Reading integers, in bases from two to thirty-six.

The base zero stands for the base that the numeral itself names: `0x`, `0o` or `0b` before the
digits mean sixteen, eight or two, and nothing before them means ten.
-/
namespace ToolCatalog.Number

/-- The value of a digit in bases up to thirty-six. -/
def digitValue? (c : Char) : Option Nat :=
  if c.isDigit then some (c.toNat - 48)
  else if c.isAlpha then some (c.toLower.toNat - 87)
  else none

/-- The digits of an integer in a base; single underscores may stand between them. `value` is the
number that the digits before are. -/
def readDigits? (base : Nat) (value : Nat) : List Char → Option Nat
  | [] => some value
  | '_' :: c :: rest => do
    let d ← (digitValue? c).filter (· < base)
    readDigits? base (base * value + d) rest
  | c :: rest => do
    let d ← (digitValue? c).filter (· < base)
    readDigits? base (base * value + d) rest

/-- At least one digit, and no underscore in front of it. -/
def readNatural? (base : Nat) (cs : List Char) : Option Nat :=
  match cs with
  | [] | '_' :: _ => none
  | cs => readDigits? base 0 cs

/-- The digits after a mark for their base; one underscore may stand between. -/
def afterMark : List Char → List Char
  | '_' :: rest => rest
  | rest => rest

/-- The base that a letter after a zero marks. -/
def markedBase? (c : Char) : Option Nat :=
  match c.toLower with
  | 'x' => some 16
  | 'o' => some 8
  | 'b' => some 2
  | _ => none

/-- Reads an integer without its sign. -/
def readUnsigned? (base : Nat) (cs : List Char) : Option Nat :=
  match cs with
  | '0' :: mark :: rest =>
    match markedBase? mark with
    | some marked =>
      if base == 0 || base == marked then readNatural? marked (afterMark rest)
      else readNatural? base cs
    | none =>
      if base == 0 then (readNatural? 10 cs).filter (· == 0) else readNatural? base cs
  | cs => readNatural? (if base == 0 then 10 else base) cs

/-- Reads an integer in a base. -/
def readInteger? (base : Nat) (s : String) : Option Int :=
  let (negative, cs) := takeSign (plainNumeral s)
  (readUnsigned? base cs).map fun n => if negative then -(n : Int) else n

end ToolCatalog.Number
