import Newsreel.Calendar.Elapsed
import Newsreel.Calendar.Reader
import Newsreel.Decode

/-!
Points in time, kept in universal time: as stamps with an offset, and as values.
-/

namespace Newsreel

namespace Calendar

namespace DateTime

/-- Date and time of day with a `T` between them. -/
def stampText (t : DateTime) : String := t.date.text ++ "T" ++ t.clockText

/-- The point in time as it is kept in values. -/
def zuluText (t : DateTime) : String := t.stampText ++ "Z"

/-- The point in time with the offset of universal time. -/
def offsetText (t : DateTime) : String := t.stampText ++ "+00:00"

/-- Whole milliseconds from the second time to the first one. -/
def millisecondsSince (t base : DateTime) : Int := (t.nanosecondsSince base).tdiv 1000000

end DateTime

/-- The point in time that a stamp with an offset states. Blanks may follow it. -/
def readInstant (text : String) : Except DateFault DateTime := do
  let (fields, rest) ← readStamp (({} : TimeFields), text.toList)
  if !(skipBlanks rest).isEmpty then .error .tooLong
  else
    let offset := fields.offset.getD 0
    let wallTime ← fields.dateTime offset
    match DateTime.ofSeconds? (wallTime.seconds - offset) wallTime.clock.nanosecond with
    | some t => .ok t
    | none => .error .impossible

end Calendar

namespace Decode

/-- A point in time. -/
def instant : Value → Except DecodeFault Calendar.DateTime
  | .string s => (Calendar.readInstant s).mapError fun fault => .malformed fault.message
  | value => .error (unexpected value "an RFC 3339 formatted date and time string")

end Decode

end Newsreel
