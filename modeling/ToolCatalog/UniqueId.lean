import ToolCatalog.Number.Numeral
import ToolCatalog.Text.Quoted

/-!
Unique identifiers: numbers of 128 binary digits.

The text of an identifier is its 32 hexadecimal digits in groups. Reading also takes the digits
without groups, in any case, between braces, or after the words that mark an identifier.
-/
namespace ToolCatalog

/-- A unique identifier. -/
structure UniqueId where
  number : Nat
  deriving DecidableEq, Repr, Inhabited

namespace UniqueId

/-- The text of an identifier. -/
def text (u : UniqueId) : String :=
  let ds := Text.hexDigits 32 u.number
  let part (start size : Nat) : String := String.ofList ((ds.drop start).take size)
  "-".intercalate [part 0 8, part 8 4, part 12 4, part 16 4, part 20 12]

/-- Reads an identifier from its text. -/
def ofText? (s : String) : Option UniqueId :=
  let bare := ((s.replace "urn:" "").replace "uuid:" "").toList
  let ds := bare.filter fun c => c != '-' && c != '\x7b' && c != '\x7d'
  if ds.length == 32 then (Number.ofHex? ds).map UniqueId.mk else none

end UniqueId

end ToolCatalog
