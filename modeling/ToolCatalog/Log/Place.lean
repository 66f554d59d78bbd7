import ToolCatalog.Number.Places
import ToolCatalog.Text.Case
import ToolCatalog.Value.Exact
import ToolCatalog.Value.Shown

/-!
Places for arguments in messages, and what stands in them.

A place has a kind: any value (`s`, `r`, `a`), a character (`c`), an integer (`d`, `i`, `u`, or `o`,
`x`, `X` in another base), or a number with a set number of digits (`e`, `f`, `g` and their
capitals). It may ask for a least width, for a number of digits or characters, and for a sign, a
mark of the base, or zeros in front.
-/
namespace ToolCatalog

/-- Why arguments do not fit a message. -/
inductive MessageFault
  /-- A place has no argument left. -/
  | noArgument
  /-- An argument has no place. -/
  | spareArgument
  /-- A place names its argument, but the arguments have no names. -/
  | noNames
  /-- No argument has this name. -/
  | unknownName (name : String)
  /-- An argument of another kind than the place. -/
  | unfit
  /-- A place that is not finished. -/
  | unfinished
  /-- A place of an unknown kind. -/
  | unknownPlace
  /-- A width or precision written with too many digits. -/
  | sizeTooLong
  /-- A width, precision, number or character beyond its range. -/
  | beyondRange
  /-- A text beyond all storage. -/
  | tooWide
  /-- A number that is not defined. -/
  | undefinedNumber
  /-- An integer with more digits than are written. -/
  | tooManyDigits
  deriving DecidableEq, Repr

/-- A place in a message. -/
structure Place where
  /-- Fill up on the right instead of the left. -/
  toLeft : Bool
  /-- Write a plus sign in front of what is not negative. -/
  plus : Bool
  /-- Write a blank in front of what is not negative. -/
  blank : Bool
  /-- Mark the base of an integer, or keep the point of a number. -/
  marked : Bool
  /-- Fill up a number with zeros. -/
  zeros : Bool
  width : Nat
  precision : Option Nat
  kind : Char
  deriving DecidableEq, Repr

namespace Place

/-- The greatest number of decimal digits of an integer that are written. -/
def digitLimit : Nat := 4300

/-- The greatest number of digits that can be asked for. -/
def precisionLimit : Nat := Nat.pow 2 31 - 4

/-- The greatest width that can be stored. -/
def storageLimit : Nat := Nat.pow 2 34

/-- A text split into its minus sign and the rest. -/
def splitMinus (s : String) : String × String :=
  if s.startsWith "-" then ("-", (s.drop 1).toString) else ("", s)

/-- The sign in front of a number. -/
def sign (p : Place) (minus : String) : String :=
  if minus != "" then minus
  else if p.plus then "+"
  else if p.blank then " "
  else ""

/-- A text filled up to the width of its place; zeros go between what stands in front and the
text. -/
def fill (p : Place) (front s : String) (zeros : Bool) : Except MessageFault String :=
  if storageLimit < p.width then .error .tooWide
  else
    let missing := p.width - (front.length + s.length)
    let filler (c : Char) : String := String.ofList (List.replicate missing c)
    .ok <|
      if p.toLeft then front ++ s ++ filler ' '
      else if zeros then front ++ filler '0' ++ s
      else filler ' ' ++ front ++ s

/-- A text that is no number; the precision cuts it off. -/
def text (p : Place) (s : String) : Except MessageFault String :=
  let s := match p.precision with
    | some n => (s.take n).toString
    | none => s
  p.fill "" s false

/-- A text in ASCII: all other characters are written as escapes. -/
def inAscii (s : String) : String :=
  String.ofList <| s.toList.flatMap fun c =>
    if c.toNat < 0x80 then [c]
    else if c.toNat < 0x100 then '\x5c' :: 'x' :: Text.hexDigits 2 c.toNat
    else if c.toNat < 0x10000 then '\x5c' :: 'u' :: Text.hexDigits 4 c.toNat
    else '\x5c' :: 'U' :: Text.hexDigits 8 c.toNat

/-- The character that a value stands for. -/
def character (v : Value) : Except MessageFault String :=
  match v.textual?, v.integer? with
  | some s, _ => if s.length == 1 then .ok s else .error .unfit
  | none, some (.ofNat n) =>
    if n < 0x110000 then .ok (String.singleton (Char.ofNat n)) else .error .beyondRange
  | none, some (.negSucc _) => .error .beyondRange
  | none, none => .error .unfit

/-- The integer part of a number. A unique identifier is the number of its digits. -/
def integerPart (v : Value) : Except MessageFault Int :=
  match v with
  | .uuid u => .ok u.number
  | .float x | .member _ _ .real (.float x) => part x.exact x.truncate?
  | .decimal d => if digitLimit < d.wholeDigits then .error .tooManyDigits
    else part d.exact d.truncate?
  | v => match v.integer? with
    | some i => .ok i
    | none => .error .unfit
where
  part (x : Exact) (i : Option Int) : Except MessageFault Int :=
    match x, i with
    | _, some i => .ok i
    | .undefined, none => .error .undefinedNumber
    | _, none => .error .beyondRange

/-- The double that a value counts as. -/
def double (v : Value) : Except MessageFault Double :=
  match v with
  | .float x | .member _ _ .real (.float x) => .ok x
  | .decimal d => if d.signals then .error .undefinedNumber else .ok d.toDouble
  | v => match v.integer? with
    | none => .error .unfit
    | some i =>
      match Double.ofInt i with
      | .infinite _ => .error .beyondRange
      | x => .ok x

/-- An integer with the mark of its base and its digits. -/
def integer (p : Place) (i : Int) (mark digits : String) : Except MessageFault String :=
  match p.precision with
  | some n =>
    if precisionLimit < n then .error .beyondRange
    else fillWith (String.ofList (List.replicate (n - digits.length) '0') ++ digits)
  | none => fillWith digits
where
  fillWith (digits : String) : Except MessageFault String :=
    p.fill (p.sign (if i < 0 then "-" else "") ++ mark) digits p.zeros

/-- An integer in base ten. -/
def decimal (p : Place) (i : Int) : Except MessageFault String :=
  let digits := toString i.natAbs
  if digitLimit < digits.length then .error .tooManyDigits else p.integer i "" digits

/-- An integer in another base, which a letter marks. -/
def inBase (p : Place) (base : Nat) (letter : String) (i : Int) : Except MessageFault String :=
  p.integer i (if p.marked then "0" ++ letter else "")
    (String.ofList (Nat.toDigits base i.natAbs))

/-- A number in a style, perhaps in capitals. -/
def number (p : Place) (style : NumberStyle) (capitals : Bool) (x : Double) :
    Except MessageFault String :=
  let s := x.textIn style p.marked (p.precision.getD 6)
  let (minus, size) := splitMinus (if capitals then Text.upper s else s)
  p.fill (p.sign minus) size p.zeros

/-- A value in its place. -/
def written (p : Place) (v : Value) : Except MessageFault String := do
  match p.kind with
  | 's' => p.text v.plain
  | 'r' => p.text v.shown
  | 'a' => p.text (inAscii v.shown)
  | 'c' => p.fill "" (← character v) false
  | 'd' | 'i' | 'u' => p.decimal (← integerPart v)
  | 'o' => p.inBase 8 "o" (← index v)
  | 'x' => p.inBase 16 "x" (← index v)
  | 'X' => return Text.upper (← p.inBase 16 "x" (← index v))
  | 'e' => p.number .scientific false (← double v)
  | 'E' => p.number .scientific true (← double v)
  | 'f' => p.number .fixed false (← double v)
  | 'F' => p.number .fixed true (← double v)
  | 'g' => p.number .general false (← double v)
  | 'G' => p.number .general true (← double v)
  | _ => .error .unknownPlace
where
  index (v : Value) : Except MessageFault Int :=
    match v.integer? with
    | some i => .ok i
    | none => .error .unfit

end Place

end ToolCatalog
