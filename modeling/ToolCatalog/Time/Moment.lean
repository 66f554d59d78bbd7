/-!
Days, times of day, and moments.

A time of day or a moment may say how far its clock is ahead of universal time. Two moments that
both say so are the same if they are the same instant; one that does not say so is never the same as
one that does.
-/
namespace ToolCatalog

/-- A day of the calendar. -/
structure Day where
  year : Nat
  month : Nat
  day : Nat
  deriving DecidableEq, Repr, Inhabited

/-- What a clock shows. -/
structure Clock where
  hour : Nat
  minute : Nat
  second : Nat
  microsecond : Nat
  deriving DecidableEq, Repr, Inhabited

/-- A time of day, with the microseconds by which its clock is ahead of universal time. -/
structure TimeOfDay where
  clock : Clock
  offset : Option Int
  deriving DecidableEq, Repr, Inhabited

/-- A moment: a day and a time of day. -/
structure Moment where
  day : Day
  clock : Clock
  offset : Option Int
  deriving DecidableEq, Repr, Inhabited

namespace Day

/-- Whether a year has a leap day. -/
def leap (year : Nat) : Bool :=
  year % 4 == 0 && (year % 100 != 0 || year % 400 == 0)

/-- The days of a year before a month. -/
def daysBefore (year month : Nat) : Nat :=
  let lengths := [31, if leap year then 29 else 28, 31, 30, 31, 30, 31, 31, 30, 31, 30, 31]
  (lengths.take (month - 1)).foldr (· + ·) 0

/-- The number of a day, counted from the first day of the year one. -/
def number (d : Day) : Nat :=
  let years := d.year - 1
  365 * years + years / 4 - years / 100 + years / 400 + daysBefore d.year d.month + d.day

end Day

namespace Clock

/-- The seconds since midnight. -/
def seconds (c : Clock) : Nat :=
  3600 * c.hour + 60 * c.minute + c.second

end Clock

/-- The microseconds of a second. -/
def microsecondsPerSecond : Nat := 1000000

/-- The seconds of a day. -/
def secondsPerDay : Nat := 86400

namespace TimeOfDay

/-- The second and the microsecond in universal time; of an offset only the whole seconds count. -/
def universal (t : TimeOfDay) (offset : Int) : Int × Nat :=
  ((t.clock.seconds : Int) - Int.fdiv offset microsecondsPerSecond, t.clock.microsecond)

/-- Whether two times of day are the same. -/
def same (t u : TimeOfDay) : Bool :=
  match t.offset, u.offset with
  | some a, some b => (a == b && t.clock == u.clock) || t.universal a == u.universal b
  | none, none => t.clock == u.clock
  | _, _ => false

end TimeOfDay

namespace Moment

/-- The microseconds from the start of the calendar up to a moment, by its own clock. -/
def count (m : Moment) : Nat :=
  (m.day.number * secondsPerDay + m.clock.seconds) * microsecondsPerSecond + m.clock.microsecond

/-- Whether two moments are the same. -/
def same (m n : Moment) : Bool :=
  match m.offset, n.offset with
  | some a, some b => (m.count : Int) - a == (n.count : Int) - b
  | none, none => m.count == n.count
  | _, _ => false

end Moment

end ToolCatalog
