import Newsreel.Text.Digits

/-!
Days of the Gregorian calendar, carried on in both directions, and their weekdays and weeks.

Days are counted from the first of January 1970. Weekdays count from Monday, which is 0.
-/

namespace Newsreel.Calendar

structure Date where
  year : Int
  month : Nat
  day : Nat
  deriving DecidableEq, Repr

def isLeap (year : Int) : Bool := year % 4 = 0 && (year % 100 ≠ 0 || year % 400 = 0)

def yearLength (year : Int) : Nat := if isLeap year then 366 else 365

/-- The lengths of the months of a year. -/
def monthLengths (year : Int) : List Nat :=
  [31, if isLeap year then 29 else 28, 31, 30, 31, 30, 31, 31, 30, 31, 30, 31]

/-- The days of a year before a month, which counts from 1. -/
def daysBeforeMonth (year : Int) (month : Nat) : Nat :=
  ((monthLengths year).take (month - 1)).foldl (· + ·) 0

/-- The days from the beginning of the count to the first of January of a year. -/
def daysBeforeYear (year : Int) : Int :=
  let y := year - 1
  365 * y + y.fdiv 4 - y.fdiv 100 + y.fdiv 400 - 719162

/-- The years that can be written down. -/
def yearRange : Int × Int := (-262143, 262142)

def isYear (year : Int) : Bool := yearRange.1 ≤ year && year ≤ yearRange.2

namespace Date

/-- The date of a year, a month and a day, if there is one. -/
def ofYmd? (year : Int) (month day : Nat) : Option Date :=
  match (monthLengths year)[month - 1]? with
  | some length =>
    if isYear year ∧ 1 ≤ month ∧ 1 ≤ day ∧ day ≤ length then some ⟨year, month, day⟩ else none
  | none => none

/-- The day of the year, from 1. -/
def ordinal (date : Date) : Nat := daysBeforeMonth date.year date.month + date.day

/-- The number of the day in the count. -/
def number (date : Date) : Int := daysBeforeYear date.year + date.ordinal - 1

/-- The weekday, Monday being 0. -/
def weekday (date : Date) : Nat := ((date.number + 3) % 7).toNat

/-- The month and the day that lie `rest` days behind the first of a month. -/
def inMonth (month rest : Nat) : List Nat → Nat × Nat
  | [] => (month, rest + 1)
  | length :: lengths =>
    if rest < length then (month, rest + 1) else inMonth (month + 1) (rest - length) lengths

/-- The date of a year and a day of the year, if there is one. -/
def ofOrdinal? (year : Int) (ordinal : Nat) : Option Date :=
  if isYear year ∧ 1 ≤ ordinal ∧ ordinal ≤ yearLength year then
    let (month, day) := inMonth 1 (ordinal - 1) (monthLengths year)
    some ⟨year, month, day⟩
  else none

/-- The year in which a day of the count lies: the mean year gives a guess that is off by one at
most. -/
def yearOf (number : Int) : Int :=
  let guess := (400 * (number + 719162)).fdiv 146097 + 1
  if number < daysBeforeYear guess then guess - 1
  else if number < daysBeforeYear (guess + 1) then guess
  else guess + 1

/-- The date of a day of the count, if its year can be written down. -/
def ofNumber? (number : Int) : Option Date :=
  let year := yearOf number
  ofOrdinal? year (number - daysBeforeYear year + 1).toNat

/-- The Thursday of the week that begins on the Monday before the date. A week belongs to the year
of its Thursday. -/
def thursday (date : Date) : Int := date.number - date.weekday + 3

def isoYear (date : Date) : Int := yearOf date.thursday

def isoWeek (date : Date) : Nat :=
  ((date.thursday - daysBeforeYear date.isoYear) / 7).toNat + 1

/-- The number of weeks that begin on the given weekday up to a date. -/
def weeksFrom (date : Date) (first : Nat) : Nat :=
  (date.ordinal + 6 - (date.weekday + 7 - first) % 7) / 7

/-- The number of the Monday in the week of the fourth of January. -/
def firstIsoMonday (year : Int) : Int :=
  let fourth := daysBeforeYear year + 3
  fourth - (fourth + 3) % 7

/-- The date of a year's week and a weekday, if the year has that week. -/
def ofIsoWeek? (year : Int) (week weekday : Nat) : Option Date :=
  if isYear year ∧ 1 ≤ week ∧ firstIsoMonday year + 7 * (week - 1) < firstIsoMonday (year + 1) then
    ofNumber? (firstIsoMonday year + 7 * ((week : Int) - 1) + weekday)
  else none

/-- A year in four digits, or with its sign where four digits do not hold it. -/
def yearText (year : Int) : String :=
  if 0 ≤ year ∧ year ≤ 9999 then Text.padded 4 year.toNat
  else (if year < 0 then "-" else "+") ++ Text.padded 4 year.natAbs

/-- Year, month and day with hyphens between them. -/
def text (date : Date) : String :=
  yearText date.year ++ "-" ++ Text.padded 2 date.month ++ "-" ++ Text.padded 2 date.day

end Date

end Newsreel.Calendar
