import ToolCatalog.Number.Numeral
import ToolCatalog.Time.Text

/-!
Reading days, times of day and moments.

The marks between the numbers may be left out, and so may minutes and seconds; `Z` is the offset
zero. Between the day and the time of a moment any one character may stand.
-/
namespace ToolCatalog

/-- Reads a number of exactly so many digits. -/
def readFixed? (width : Nat) (cs : List Char) : Option (Nat × List Char) :=
  let ds := cs.take width
  if ds.length == width && ds.all Char.isDigit then some (Number.ofDigits ds, cs.drop width)
  else none

/-- What follows a mark, if it stands here. -/
def skipMark (mark : Char) : List Char → List Char
  | c :: rest => if c == mark then rest else c :: rest
  | [] => []

/-- Reads a day. -/
def Day.read? (cs : List Char) : Option (Day × List Char) := do
  let (year, cs) ← readFixed? 4 cs
  let (month, cs) ← readFixed? 2 (skipMark '-' cs)
  let (day, cs) ← readFixed? 2 (skipMark '-' cs)
  return (⟨year, month, day⟩, cs)

/-- Reads a two-digit number that may be left out. -/
def readPart (cs : List Char) : Nat × List Char :=
  (readFixed? 2 (skipMark ':' cs)).getD (0, cs)

/-- Reads a fraction of a second, of which six digits count. -/
def readFraction (cs : List Char) : Nat × List Char :=
  match cs with
  | mark :: rest =>
    if mark == '.' || mark == ',' then
      let ds := (rest.takeWhile Char.isDigit).take 6
      (Number.ofDigits (ds ++ List.replicate (6 - ds.length) '0'), rest.dropWhile Char.isDigit)
    else (0, cs)
  | [] => (0, [])

/-- Reads what a clock shows. -/
def Clock.read? (cs : List Char) : Option (Clock × List Char) := do
  let (hour, cs) ← readFixed? 2 cs
  let (minute, cs) := readPart cs
  let (second, cs) := readPart cs
  let (microsecond, cs) := readFraction cs
  return (⟨hour, minute, second, microsecond⟩, cs)

/-- Reads an offset, or that there is none. An offset of less than a second is read as zero. -/
def Offset.read? : List Char → Option (Option Offset)
  | [] => some none
  | ['Z'] => some (some 0)
  | mark :: cs => do
    if mark != '+' && mark != '-' then none
    let (c, rest) ← Clock.read? cs
    if !rest.isEmpty then none
    if c.seconds == 0 then return some 0
    let size : Nat := c.seconds * microsecondsPerSecond + c.microsecond
    return some (if mark == '-' then -(size : Int) else size)

/-- Reads a day from its text. -/
def Day.ofText? (s : String) : Option Day := do
  let (d, rest) ← Day.read? s.toList
  if rest.isEmpty then return d else none

/-- Reads a time of day from its text. -/
def TimeOfDay.ofText? (s : String) : Option TimeOfDay := do
  let (clock, rest) ← Clock.read? (skipMark 'T' s.toList)
  return ⟨clock, ← Offset.read? rest⟩

/-- Reads a moment from its text; without a time, it is the start of the day. -/
def Moment.ofText? (s : String) : Option Moment := do
  let (day, rest) ← Day.read? s.toList
  match rest with
  | [] => return ⟨day, ⟨0, 0, 0, 0⟩, none⟩
  | _ :: rest =>
    let (clock, rest) ← Clock.read? rest
    return ⟨day, clock, ← Offset.read? rest⟩

end ToolCatalog
