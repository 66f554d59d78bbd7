import ToolCatalog.Number.Numeral
import ToolCatalog.Regex.Reader

/-!
Escapes in patterns: what a backslash and the characters after it stand for.

Letters have meanings of their own, or none; every other character stands for itself. Inside a set,
places in the text and groups cannot be referred to, so some escapes mean something else there.
-/
namespace ToolCatalog

/-- What an escape stands for. -/
inductive RegexEscape
  | char (code : Nat)
  | kind (k : CharKind) (negated : Bool)
  | anchor (a : Anchor)
  | group (index : Nat)
  deriving DecidableEq, Repr

namespace RegexEscape

open RegexParsing

/-- The control characters that letters stand for. -/
def controls : List (Char × Nat) :=
  [('a', 7), ('f', 12), ('n', 10), ('r', 13), ('t', 9), ('v', 11)]

/-- The kinds of characters that letters stand for. -/
def kinds : List (Char × CharKind × Bool) :=
  [('d', .digit, false), ('D', .digit, true), ('s', .space, false), ('S', .space, true),
    ('w', .word, false), ('W', .word, true)]

/-- The places in a text that letters stand for. -/
def anchor? (ascii : Bool) : Char → Option Anchor
  | 'A' => some .start
  | 'Z' => some .veryEnd
  | 'b' => some (.wordEdge ascii false)
  | 'B' => some (.wordEdge ascii true)
  | _ => none

/-- Whether a character is a digit in base eight. -/
def octalDigit (c : Char) : Bool :=
  '0' ≤ c && c ≤ '7'

/-- Whether a character is a hexadecimal digit. -/
def hexDigit (c : Char) : Bool :=
  (Number.hexValue? c).isSome

/-- An escape as it is written. -/
def written (ds : List Char) : String :=
  String.ofList ('\x5c' :: ds)

/-- The number that digits in base eight are. -/
def octal (ds : List Char) : Nat :=
  ds.foldl (fun n c => 8 * n + (c.toNat - 48)) 0

/-- Refuses an escape that has been read, as it is written. -/
def refuse {α : Type} (ds : List Char) (m : String → RegexMistake) : RegexParsing α :=
  fail (m (written ds)) (ds.length + 1)

/-- The character with a number in base eight of three digits. -/
def octalChar (ds : List Char) : RegexParsing RegexEscape := do
  if 255 < octal ds then refuse ds .octalTooLarge else return .char (octal ds)

/-- Reads the character with a number of exactly so many hexadecimal digits. -/
def hexChar (mark : Char) (width : Nat) : RegexParsing RegexEscape := do
  let ds ← takeUpTo hexDigit width
  if ds.length != width then refuse (mark :: ds) .incompleteEscape
  else
    let code := (Number.ofHex? ds).getD 0
    if 0x10FFFF < code then refuse (mark :: ds) .badEscape else return .char code

/-- The words for the marks of ASCII, as far as characters are known by their names. -/
def markNames : List (String × Nat) :=
  [("SPACE", 32), ("EXCLAMATION MARK", 33), ("QUOTATION MARK", 34), ("NUMBER SIGN", 35),
    ("DOLLAR SIGN", 36), ("PERCENT SIGN", 37), ("AMPERSAND", 38), ("APOSTROPHE", 39),
    ("LEFT PARENTHESIS", 40), ("RIGHT PARENTHESIS", 41), ("ASTERISK", 42), ("PLUS SIGN", 43),
    ("COMMA", 44), ("HYPHEN-MINUS", 45), ("FULL STOP", 46), ("SOLIDUS", 47), ("COLON", 58),
    ("SEMICOLON", 59), ("LESS-THAN SIGN", 60), ("EQUALS SIGN", 61), ("GREATER-THAN SIGN", 62),
    ("QUESTION MARK", 63), ("COMMERCIAL AT", 64), ("LEFT SQUARE BRACKET", 91),
    ("REVERSE SOLIDUS", 92), ("RIGHT SQUARE BRACKET", 93), ("CIRCUMFLEX ACCENT", 94),
    ("LOW LINE", 95), ("GRAVE ACCENT", 96), ("LEFT CURLY BRACKET", 123), ("VERTICAL LINE", 124),
    ("RIGHT CURLY BRACKET", 125), ("TILDE", 126), ("NO-BREAK SPACE", 160), ("EN DASH", 0x2013),
    ("EM DASH", 0x2014), ("BULLET", 0x2022), ("EURO SIGN", 0x20AC)]

/-- The words for the digits. -/
def digitNames : List String :=
  ["ZERO", "ONE", "TWO", "THREE", "FOUR", "FIVE", "SIX", "SEVEN", "EIGHT", "NINE"]

/-- The character with a name, in any case. -/
def named? (name : String) : Option Nat :=
  let name := String.ofList (name.toList.map Char.toUpper)
  let digits := digitNames.zipIdx.map fun (word, n) => ("DIGIT " ++ word, 48 + n)
  let letters := (List.range 26).flatMap fun n =>
    let letter := String.singleton (Char.ofNat (65 + n))
    [("LATIN CAPITAL LETTER " ++ letter, 65 + n), ("LATIN SMALL LETTER " ++ letter, 97 + n)]
  (markNames ++ digits ++ letters).lookup name

/-- Reads the name of a character between braces. -/
def namedChar : RegexParsing RegexEscape := do
  if !(← accept '\x7b') then fail .noBrace
  let name ← nameUntil '\x7d' "character name"
  match named? name with
  | some code => return .char code
  | none => fail (.unknownCharacter name) (name.length + 4)

/-- Reads the rest of an escape that starts with `c` inside a set. -/
def readInSet (c : Char) : RegexParsing RegexEscape := do
  if c == 'b' then return .char 8
  match controls.lookup c, kinds.lookup c with
  | some code, _ => return .char code
  | none, some (k, negated) => return .kind k negated
  | none, none =>
    if c == 'x' then hexChar c 2
    else if c == 'u' then hexChar c 4
    else if c == 'U' then hexChar c 8
    else if c == 'N' then namedChar
    else if octalDigit c then do octalChar (c :: (← takeUpTo octalDigit 2))
    else if c.isAlphanum then refuse [c] .badEscape
    else return .char c.toNat

/-- Reads the rest of an escape that starts with a digit other than zero: a character, if these are
three digits in base eight, or else a group. -/
def readNumber (c : Char) : RegexParsing RegexEscape := do
  let ds := c :: (← takeUpTo Char.isDigit 1)
  let third ← if ds.length == 2 && ds.all octalDigit then takeUpTo octalDigit 1 else pure []
  if !third.isEmpty then octalChar (ds ++ third)
  else
    let index := Number.ofDigits ds
    if index < (← groupCount) then
      if (← groupWidth? index).isNone then fail .openGroup (ds.length + 1)
      checkLookBehind index
      return .group index
    else fail (.invalidGroup index) ds.length

/-- Reads the rest of an escape that starts with `c` outside of sets. -/
def read (ascii : Bool) (c : Char) : RegexParsing RegexEscape := do
  match anchor? ascii c, kinds.lookup c, controls.lookup c with
  | some a, _, _ => return .anchor a
  | none, some (k, negated), _ => return .kind k negated
  | none, none, some code => return .char code
  | none, none, none =>
    if c == 'x' then hexChar c 2
    else if c == 'u' then hexChar c 4
    else if c == 'U' then hexChar c 8
    else if c == 'N' then namedChar
    else if c == '0' then return .char (octal (← takeUpTo octalDigit 2))
    else if c.isDigit then readNumber c
    else if c.isAlpha then refuse [c] .badEscape
    else return .char c.toNat

end RegexEscape

end ToolCatalog
