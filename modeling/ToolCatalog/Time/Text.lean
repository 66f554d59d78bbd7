import ToolCatalog.Time.Moment

/-!
Texts of days, times of day and moments.

The standard text gives a fraction of a second in six digits if there is one, and an offset down to
the smallest unit it needs. In JSON data an offset is first rounded to whole seconds, and then given
in hours and minutes, or as `Z` if it is zero.
-/
namespace ToolCatalog

/-- A number with zeros in front of it up to a width. -/
def padded (width n : Nat) : String :=
  let s := toString n
  String.ofList (List.replicate (width - s.length) '0') ++ s

/-- The text of a day. -/
def Day.text (d : Day) : String :=
  s!"{padded 4 d.year}-{padded 2 d.month}-{padded 2 d.day}"

/-- The text of what a clock shows. -/
def Clock.text (c : Clock) : String :=
  s!"{padded 2 c.hour}:{padded 2 c.minute}:{padded 2 c.second}"
    ++ if c.microsecond == 0 then "" else s!".{padded 6 c.microsecond}"

/-- An offset from universal time, in microseconds. -/
abbrev Offset := Int

namespace Offset

/-- The sign of an offset. -/
def sign (o : Offset) : String :=
  if o < 0 then "-" else "+"

/-- Hours and minutes of so many seconds. -/
def hoursAndMinutes (seconds : Nat) : String :=
  s!"{padded 2 (seconds / 3600)}:{padded 2 (seconds / 60 % 60)}"

/-- The standard text of an offset. -/
def text (o : Offset) : String :=
  let seconds := o.natAbs / microsecondsPerSecond
  let rest := o.natAbs % microsecondsPerSecond
  let short := o.sign ++ hoursAndMinutes seconds
  if rest != 0 then s!"{short}:{padded 2 (seconds % 60)}.{padded 6 rest}"
  else if seconds % 60 != 0 then s!"{short}:{padded 2 (seconds % 60)}"
  else short

/-- The text of an offset in JSON data. Half a second is rounded away from zero. -/
def dataText (o : Offset) : String :=
  let seconds := (2 * o.natAbs + microsecondsPerSecond) / (2 * microsecondsPerSecond)
  if seconds == 0 then "Z" else o.sign ++ hoursAndMinutes seconds

/-- The span of an offset, shown as days, seconds and microseconds, of which only the days can be
negative. -/
def shownSpan (o : Offset) : String :=
  let seconds := Int.fdiv o microsecondsPerSecond
  let days := Int.fdiv seconds secondsPerDay
  let part (name : String) (n : Int) : List String := if n == 0 then [] else [s!"{name}={n}"]
  let parts := part "days" days ++ part "seconds" (Int.fmod seconds secondsPerDay)
    ++ part "microseconds" (Int.fmod o microsecondsPerSecond)
  "datetime.timedelta(" ++ ", ".intercalate parts ++ ")"

/-- An offset shown as a time zone. -/
def shown (o : Offset) : String :=
  if o == 0 then "datetime.timezone.utc" else s!"datetime.timezone({shownSpan o})"

end Offset

/-- The numbers of a clock: seconds and their fraction only where something follows that is not
zero. -/
def Clock.numbers (c : Clock) : List Nat :=
  if c.microsecond != 0 then [c.hour, c.minute, c.second, c.microsecond]
  else if c.second != 0 then [c.hour, c.minute, c.second]
  else [c.hour, c.minute]

/-- Numbers and a time zone between commas. -/
def listedWithZone (numbers : List Nat) (offset : Option Offset) : String :=
  let zone := offset.toList.map fun o => s!"tzinfo={Offset.shown o}"
  ", ".intercalate (numbers.map toString ++ zone)

/-- A day, shown. -/
def Day.shown (d : Day) : String :=
  s!"datetime.date({listedWithZone [d.year, d.month, d.day] none})"

namespace TimeOfDay

/-- The standard text of a time of day. -/
def text (t : TimeOfDay) : String :=
  t.clock.text ++ (t.offset.map Offset.text).getD ""

/-- The text of a time of day in JSON data. -/
def dataText (t : TimeOfDay) : String :=
  t.clock.text ++ (t.offset.map Offset.dataText).getD ""

/-- A time of day, shown. -/
def shown (t : TimeOfDay) : String :=
  s!"datetime.time({listedWithZone t.clock.numbers t.offset})"

end TimeOfDay

namespace Moment

/-- The text of a moment with a mark between day and time. -/
def textWith (mark : String) (m : Moment) : String :=
  m.day.text ++ mark ++ m.clock.text ++ (m.offset.map Offset.text).getD ""

/-- The standard text of a moment. -/
def text (m : Moment) : String :=
  m.textWith "T"

/-- The text of a moment in JSON data. -/
def dataText (m : Moment) : String :=
  m.day.text ++ "T" ++ m.clock.text ++ (m.offset.map Offset.dataText).getD ""

/-- A moment, shown. -/
def shown (m : Moment) : String :=
  let d := m.day
  s!"datetime.datetime({listedWithZone ([d.year, d.month, d.day] ++ m.clock.numbers) m.offset})"

end Moment

end ToolCatalog
