import ToolCatalog.Text.Case
import ToolCatalog.Text.Quoted

/-!
Texts from bytes.

Bytes are read one character at a time. Where no character can be read, the bytes that cannot start
one are a mistake, which is refused, passed over, replaced by a mark, or written out byte by byte.
-/
namespace ToolCatalog.Text

/-- An encoding of texts. -/
inductive Encoding
  | ascii
  | latin
  | utf8
  deriving DecidableEq, Repr

/-- What becomes of a mistake. -/
inductive MistakeHandling
  | refuse
  | pass
  | replace
  | escape
  deriving DecidableEq, Repr

namespace Encoding

/-- The names of the encodings. -/
def names : List (String × Encoding) :=
  [("utf8", .utf8), ("utf", .utf8), ("u8", .utf8), ("cp65001", .utf8), ("ascii", .ascii),
    ("usascii", .ascii), ("us", .ascii), ("646", .ascii), ("latin1", .latin), ("latin", .latin),
    ("l1", .latin), ("iso88591", .latin), ("cp819", .latin), ("8859", .latin)]

/-- The encoding with a name; case and marks within the name do not count. -/
def ofName? (name : String) : Option Encoding :=
  names.lookup (String.ofList ((lower name).toList.filter Char.isAlphanum))

/-- Whether a byte continues a character of several bytes. -/
def continues (b : UInt8) : Bool :=
  0x80 ≤ b && b < 0xC0

/-- How many bytes follow the first byte of a character, the range of the second byte, and the bits
of the character that the first byte holds. -/
def lead? (b : UInt8) : Option (Nat × UInt8 × UInt8 × Nat) :=
  let bits (size : Nat) : Nat := b.toNat % size
  if b < 0xC2 then none
  else if b < 0xE0 then some (1, 0x80, 0xBF, bits 0x20)
  else if b < 0xF0 then
    some (2, if b == 0xE0 then 0xA0 else 0x80, if b == 0xED then 0x9F else 0xBF, bits 0x10)
  else if b < 0xF5 then
    some (3, if b == 0xF0 then 0x90 else 0x80, if b == 0xF4 then 0x8F else 0xBF, bits 0x08)
  else none

/-- How many bytes belong to the character that starts with `b`, as far as the bytes after it can
continue it, and the character if it is complete. -/
def readUtf8 (b : UInt8) (rest : List UInt8) : Option Char × Nat :=
  if b < 0x80 then (some (Char.ofNat b.toNat), 1)
  else
    match lead? b, rest with
    | some (more, low, high, bits), second :: later =>
      if low ≤ second && second ≤ high then
        let tail := second :: (later.take (more - 1)).takeWhile continues
        let code := tail.foldl (fun n b => 64 * n + b.toNat % 64) bits
        if tail.length == more then (some (Char.ofNat code), more + 1) else (none, tail.length + 1)
      else (none, 1)
    | _, _ => (none, 1)

/-- The character that bytes start with, if there is one, and how many bytes it or the mistake
has. -/
def readChar (encoding : Encoding) (b : UInt8) (rest : List UInt8) : Option Char × Nat :=
  match encoding with
  | .ascii => (if b < 0x80 then some (Char.ofNat b.toNat) else none, 1)
  | .latin => (some (Char.ofNat b.toNat), 1)
  | .utf8 => readUtf8 b rest

/-- A byte written out. -/
def escapeByte (b : UInt8) : List Char :=
  '\x5c' :: 'x' :: hexDigits 2 b.toNat

/-- The characters that bytes are; the first argument bounds their number. -/
def readAll (encoding : Encoding) (handling : MistakeHandling) :
    Nat → List UInt8 → Option (List Char)
  | 0, _ | _, [] => some []
  | room + 1, b :: rest =>
    let (char?, count) := encoding.readChar b rest
    let later := readAll encoding handling room (rest.drop (count - 1))
    match char?, handling with
    | some c, _ => later.map (c :: ·)
    | none, .refuse => none
    | none, .pass => later
    | none, .replace => later.map ('\ufffd' :: ·)
    | none, .escape => later.map (((b :: rest).take count).flatMap escapeByte ++ ·)

/-- The text that bytes are. -/
def decode? (encoding : Encoding) (handling : MistakeHandling) (bs : List UInt8) : Option String :=
  (readAll encoding handling bs.length bs).map String.ofList

end Encoding

/-- The handling of mistakes with a name. -/
def MistakeHandling.ofName? : String → Option MistakeHandling
  | "strict" => some .refuse
  | "ignore" => some .pass
  | "replace" => some .replace
  | "backslashreplace" => some .escape
  | _ => none

end ToolCatalog.Text
