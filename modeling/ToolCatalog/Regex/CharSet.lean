import ToolCatalog.Text.Blank
import ToolCatalog.Text.Fold
import ToolCatalog.Text.Word

/-!
Sets of characters in regular expressions.

Where case is ignored, a character is in a set if some character that counts as the same is. The
kinds of characters, and which letters have a case, go either by Unicode or by ASCII alone.
-/
namespace ToolCatalog

/-- The kinds of characters that have a name. -/
inductive CharKind
  | digit
  | space
  | word
  deriving DecidableEq, Repr

/-- Whether case is ignored, and whether only ASCII counts. -/
structure CharMode where
  ignoreCase : Bool
  ascii : Bool
  deriving DecidableEq, Repr, Inhabited

/-- A part of a set. Characters are given by their code points. -/
inductive CharItem
  | char (code : Nat)
  | range (low high : Nat)
  | kind (k : CharKind) (negated : Bool)
  deriving DecidableEq, Repr

/-- A set of characters: all in one of the parts, or all in none of them. -/
structure CharSet where
  negated : Bool
  items : List CharItem
  deriving DecidableEq, Repr, Inhabited

namespace CharKind

/-- Whether a character is of a kind. -/
def contains (k : CharKind) (ascii : Bool) (c : Char) : Bool :=
  match k with
  | .digit => if ascii then c.isDigit else (Text.digit? c).isSome
  | .space => Text.blank c && (!ascii || (c.toNat < 0x80 && !(0x1C ≤ c.toNat && c.toNat ≤ 0x1F)))
  | .word => if ascii then Text.asciiWordChar c else Text.wordChar c

end CharKind

namespace CharMode

/-- The characters that count as the same as this one. -/
def variants (mode : CharMode) (c : Char) : List Char :=
  if !mode.ignoreCase then [c] else if mode.ascii then Text.asciiVariants c else Text.variants c

/-- The form by which characters are compared. -/
def lowered (mode : CharMode) (c : Char) : Char :=
  if !mode.ignoreCase then c else if mode.ascii then Text.asciiLower c else Text.lowerLetter c

end CharMode

namespace CharItem

/-- Whether a part contains one of the characters that count as the same as `c`. A letter beyond the
basic plane that stands beside other parts is met by its lower case alone. -/
def contains (mode : CharMode) (alone : Bool) (c : Char) : CharItem → Bool
  | .char code =>
    if alone || code < 0x10000 then (mode.variants c).any (·.toNat == code)
    else (mode.lowered c).toNat == code
  | .range low high => (mode.variants c).any fun d => low ≤ d.toNat && d.toNat ≤ high
  | .kind k negated => k.contains mode.ascii c != negated

end CharItem

namespace CharSet

/-- Whether a character is in a set. -/
def contains (mode : CharMode) (s : CharSet) (c : Char) : Bool :=
  s.items.any (CharItem.contains mode (s.items.length ≤ 1) c) != s.negated

/-- The set of one character. -/
def single (code : Nat) : CharSet := ⟨false, [.char code]⟩

/-- All characters but the line feed. -/
def anyInLine : CharSet := ⟨true, [.char 10]⟩

/-- All characters. -/
def any : CharSet := ⟨true, []⟩

/-- The set of all characters of a kind, or of all others. -/
def ofKind (k : CharKind) (negated : Bool) : CharSet := ⟨false, [.kind k negated]⟩

end CharSet

end ToolCatalog
