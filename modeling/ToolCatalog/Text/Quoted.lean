import ToolCatalog.Text.Printable

/-!
Text shown between quotes, so that no two texts look alike.

Single quotes are the rule; double quotes are taken when the text holds a single quote and no double
one. The quote in use, the backslash, and what is not printable are written as escapes.
-/
namespace ToolCatalog.Text

/-- The `width` lowest hexadecimal digits of a number, in lower case. -/
def hexDigits (width n : Nat) : List Char :=
  match width with
  | 0 => []
  | width + 1 => hexDigits width (n / 16) ++ [Nat.digitChar (n % 16)]

/-- The quotation mark for a text with these characters. -/
def quoteMark (s : List Char) : Char :=
  if s.contains '\x27' && !s.contains '\x22' then '\x22' else '\x27'

/-- One character between the given quotes. -/
def quotedChar (mark c : Char) : List Char :=
  if c == mark || c == '\x5c' then ['\x5c', c]
  else if c == '\n' then ['\x5c', 'n']
  else if c == '\r' then ['\x5c', 'r']
  else if c == '\t' then ['\x5c', 't']
  else if printable c then [c]
  else if c.toNat < 0x100 then '\x5c' :: 'x' :: hexDigits 2 c.toNat
  else if c.toNat < 0x10000 then '\x5c' :: 'u' :: hexDigits 4 c.toNat
  else '\x5c' :: 'U' :: hexDigits 8 c.toNat

/-- A text between quotes. -/
def quoted (s : String) : String :=
  let mark := quoteMark s.toList
  String.ofList (mark :: s.toList.flatMap (quotedChar mark) ++ [mark])

/-- One byte between the given quotes: only printable ASCII stands for itself. -/
def quotedByte (mark : Char) (b : UInt8) : List Char :=
  if b < 0x7F then
    if b < 0x20 && b != 0x09 && b != 0x0A && b != 0x0D then '\x5c' :: 'x' :: hexDigits 2 b.toNat
    else quotedChar mark (Char.ofNat b.toNat)
  else '\x5c' :: 'x' :: hexDigits 2 b.toNat

/-- Bytes between quotes, with the letter that marks them as bytes. -/
def quotedBytes (bs : List UInt8) : String :=
  let mark := quoteMark (bs.map fun b => Char.ofNat b.toNat)
  String.ofList ('b' :: mark :: bs.flatMap (quotedByte mark) ++ [mark])

end ToolCatalog.Text
