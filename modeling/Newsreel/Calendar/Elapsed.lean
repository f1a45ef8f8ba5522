import Newsreel.Calendar.Fields

/-!
Times in order, and the time between them. A leap second lies behind the second that it prolongs and
counts where the other time lies on the far side of it.
-/

namespace Newsreel.Calendar.DateTime

/-- A number that grows with the time. -/
def rank (t : DateTime) : Int := 2000000000 * t.seconds + t.clock.nanosecond

/-- The seconds of the day, a leap second not counted. -/
def secondOfDay (t : DateTime) : Int :=
  3600 * t.clock.hour + 60 * t.clock.minute + t.clock.second

/-- The nanoseconds from the second time to the first one. -/
def nanosecondsSince (t base : DateTime) : Int :=
  let leap : Int :=
    if base.secondOfDay < t.secondOfDay ∧ 1000000000 ≤ base.clock.nanosecond then 1
    else if t.secondOfDay < base.secondOfDay ∧ 1000000000 ≤ t.clock.nanosecond then -1
    else 0
  1000000000 * (t.seconds - base.seconds + leap) + t.clock.nanosecond - base.clock.nanosecond

/-- The time so many seconds before another one, if its year can be written down. From within a leap
second every way leads out of it, to the next second first where the way leads back. -/
def secondsBefore? (t : DateTime) (offset : Int) : Option DateTime :=
  if t.clock.nanosecond < 1000000000 ∨ offset = 0 then
    ofSeconds? (t.seconds - offset) t.clock.nanosecond
  else
    let passed : Int := if 0 < offset then 1 else 0
    ofSeconds? (t.seconds + passed - offset) (t.clock.nanosecond - 1000000000)

/-- Whole seconds between two times, in either direction. -/
def secondsApart (t other : DateTime) : Nat := ((t.nanosecondsSince other).tdiv 1000000000).natAbs

/-- The decimal places of a second: none, three, six or nine of them. -/
def placesText (nanosecond : Nat) : String :=
  if nanosecond = 0 then ""
  else if nanosecond % 1000000 = 0 then "." ++ Text.padded 3 (nanosecond / 1000000)
  else if nanosecond % 1000 = 0 then "." ++ Text.padded 6 (nanosecond / 1000)
  else "." ++ Text.padded 9 nanosecond

/-- Hours, minutes and seconds. -/
def clockText (t : DateTime) : String :=
  let leap := t.clock.nanosecond / 1000000000
  Text.padded 2 t.clock.hour ++ ":" ++ Text.padded 2 t.clock.minute ++ ":"
    ++ Text.padded 2 (t.clock.second + leap) ++ placesText (t.clock.nanosecond % 1000000000)

/-- Date and time of day with a blank between them. -/
def text (t : DateTime) : String := t.date.text ++ " " ++ t.clockText

end Newsreel.Calendar.DateTime
