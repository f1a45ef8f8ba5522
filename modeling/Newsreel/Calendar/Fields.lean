import Newsreel.Calendar.Date
import Newsreel.Calendar.Fault

/-!
The fields read from a text, and the date and the time that they determine.

A field that is read twice has to be the same both times, and a date has to agree with every field
about it, also with those that were not needed to find it.
-/

namespace Newsreel.Calendar

structure TimeFields where
  year : Option Int := none
  century : Option Int := none
  yearOfCentury : Option Int := none
  isoYear : Option Int := none
  isoYearOfCentury : Option Int := none
  quarter : Option Nat := none
  month : Option Nat := none
  day : Option Nat := none
  weekFromSunday : Option Nat := none
  weekFromMonday : Option Nat := none
  isoWeek : Option Nat := none
  /-- Monday is 0. -/
  weekday : Option Nat := none
  ordinal : Option Nat := none
  afternoon : Option Bool := none
  /-- The hour of the half day, from 0 to 11. -/
  hourOfHalf : Option Nat := none
  minute : Option Nat := none
  second : Option Nat := none
  nanosecond : Option Nat := none
  timestamp : Option Int := none
  /-- Seconds east of the zero meridian. -/
  offset : Option Int := none

/-- A value for a field that may hold one already. -/
def agree [DecidableEq α] (old : Option α) (new : α) : Except DateFault (Option α) :=
  match old with
  | some value => if value = new then .ok (some new) else .error .impossible
  | none => .ok (some new)

/-- A whole number within bounds. -/
def within (low high n : Int) : Except DateFault Nat :=
  if low ≤ n ∧ n ≤ high then .ok n.toNat else .error .outOfRange

/-- A time of day. A leap second has a thousand million nanoseconds and more. -/
structure Clock where
  hour : Nat
  minute : Nat
  second : Nat
  nanosecond : Nat := 0
  deriving DecidableEq, Repr

/-- A date and a time of day. -/
structure DateTime where
  date : Date
  clock : Clock
  deriving DecidableEq, Repr

namespace DateTime

/-- Whole seconds since the beginning of 1970. -/
def seconds (t : DateTime) : Int :=
  86400 * t.date.number + 3600 * t.clock.hour + 60 * t.clock.minute + t.clock.second

/-- The time so many seconds after the beginning of 1970, if its year can be written down. -/
def ofSeconds? (seconds : Int) (nanosecond : Nat) : Option DateTime :=
  let rest := (seconds % 86400).toNat
  (Date.ofNumber? (seconds / 86400)).map fun date =>
    ⟨date, rest / 3600, rest / 60 % 60, rest % 60, nanosecond⟩

/-- A time to the second, in a form that can stand in a file name. -/
def stamp (t : DateTime) : String :=
  t.date.text ++ "_" ++ Text.padded 2 t.clock.hour ++ "-" ++ Text.padded 2 t.clock.minute ++ "-"
    ++ Text.padded 2 (t.clock.second + t.clock.nanosecond / 1000000000)

end DateTime

namespace TimeFields

/-- The year given whole, by its century and its place there, or by its place alone; then it lies
between 1970 and 2069. -/
def resolveYear : (year century place : Option Int) → Except DateFault (Option Int)
  | year, none, none => .ok year
  | some year, century, place =>
    if year < 0 then .error .impossible
    else if century.getD (year / 100) = year / 100 ∧ place.getD (year % 100) = year % 100 then
      .ok (some year)
    else .error .impossible
  | none, some century, some place => .ok (some (100 * century + place))
  | none, none, some place => .ok (some (if place < 70 then 2000 + place else 1900 + place))
  | none, some _, none => .error .notEnough

/-- The field is absent or has the given value. -/
def allows [DecidableEq α] (field : Option α) (value : α) : Bool :=
  match field with
  | none => true
  | some given => given = value

/-- The century and place of a year that is not negative agree with the fields. -/
def allowsParts (century place : Option Int) (year : Int) : Bool :=
  if 0 ≤ year then allows century (year / 100) && allows place (year % 100)
  else century.isNone && place.isNone

def agreesYmd (f : TimeFields) (date : Date) : Bool :=
  allows f.year date.year && allowsParts f.century f.yearOfCentury date.year
    && allows f.month date.month && allows f.day date.day

def agreesIsoWeek (f : TimeFields) (date : Date) : Bool :=
  allows f.isoYear date.isoYear && allowsParts none f.isoYearOfCentury date.isoYear
    && allows f.isoWeek date.isoWeek && allows f.weekday date.weekday

def agreesOrdinal (f : TimeFields) (date : Date) : Bool :=
  allows f.ordinal date.ordinal && allows f.weekFromSunday (date.weeksFrom 6)
    && allows f.weekFromMonday (date.weeksFrom 0)

/-- The date of a weekday in a week of the year; weeks begin on the given weekday, and the first one
with the first such day of the year. -/
def weekDate (year : Int) (week weekday first : Nat) : Except DateFault Date :=
  match Date.ofOrdinal? year 1 with
  | none => .error .outOfRange
  | some january =>
    let start : Int := 1 + ((first + 7 - january.weekday) % 7 : Nat)
    let ordinal := start + ((week : Int) - 1) * 7 + ((weekday + 7 - first) % 7 : Nat)
    if ordinal ≤ 0 then .error .impossible
    else match Date.ofOrdinal? year ordinal.toNat with
      | some date => .ok date
      | none => .error .impossible

def orOutOfRange (date : Option Date) : Except DateFault Date :=
  match date with
  | some date => .ok date
  | none => .error .outOfRange

/-- The date found, and whether the fields not used for it agree with it. -/
def findDate (f : TimeFields) : Except DateFault (Date × Bool) := do
  let year ← resolveYear f.year f.century f.yearOfCentury
  let isoYear ← resolveYear f.isoYear none f.isoYearOfCentury
  match year, f.month, f.day with
  | some year, some month, some day =>
    let date ← orOutOfRange (Date.ofYmd? year month day)
    return (date, f.agreesIsoWeek date && f.agreesOrdinal date)
  | _, _, _ =>
  match year, f.ordinal with
  | some year, some ordinal =>
    let date ← orOutOfRange (Date.ofOrdinal? year ordinal)
    return (date, f.agreesYmd date && f.agreesIsoWeek date && f.agreesOrdinal date)
  | _, _ =>
  match year, f.weekFromSunday, f.weekday with
  | some year, some week, some weekday =>
    let date ← weekDate year week weekday 6
    return (date, f.agreesYmd date && f.agreesIsoWeek date && f.agreesOrdinal date)
  | _, _, _ =>
  match year, f.weekFromMonday, f.weekday with
  | some year, some week, some weekday =>
    let date ← weekDate year week weekday 0
    return (date, f.agreesYmd date && f.agreesIsoWeek date && f.agreesOrdinal date)
  | _, _, _ =>
  match isoYear, f.isoWeek, f.weekday with
  | some year, some week, some weekday =>
    let date ← orOutOfRange (Date.ofIsoWeek? year week weekday)
    return (date, f.agreesYmd date && f.agreesOrdinal date)
  | _, _, _ => .error .notEnough

/-- The date that the fields determine. -/
def date (f : TimeFields) : Except DateFault Date := do
  let (date, agrees) ← f.findDate
  if agrees && allows f.quarter ((date.month - 1) / 3 + 1) then .ok date else .error .impossible

/-- The time of day that the fields determine; seconds may be missing. -/
def clock (f : TimeFields) : Except DateFault Clock :=
  match f.afternoon, f.hourOfHalf, f.minute with
  | some afternoon, some hour, some minute =>
    let second := f.second.getD 0
    match f.nanosecond, f.second with
    | some _, none => .error .notEnough
    | nanosecond, _ =>
      .ok {
        hour := (if afternoon then 12 else 0) + hour
        minute
        second := min second 59
        nanosecond := nanosecond.getD 0 + (if second = 60 then 1000000000 else 0) }
  | _, _, _ => .error .notEnough

/-! ## Setting fields -/

/-- One more than the greatest year that can be read. -/
def yearLimit : Int := 2147483648

def setYear (f : TimeFields) (n : Int) : Except DateFault TimeFields := do
  if n < -yearLimit ∨ yearLimit ≤ n then .error .outOfRange
  else return { f with year := ← agree f.year n }

def setIsoYear (f : TimeFields) (n : Int) : Except DateFault TimeFields := do
  if n < -yearLimit ∨ yearLimit ≤ n then .error .outOfRange
  else return { f with isoYear := ← agree f.isoYear n }

def setMonth (f : TimeFields) (n : Int) : Except DateFault TimeFields := do
  return { f with month := ← agree f.month (← within 1 12 n) }

def setDay (f : TimeFields) (n : Int) : Except DateFault TimeFields := do
  return { f with day := ← agree f.day (← within 1 31 n) }

def setOrdinal (f : TimeFields) (n : Int) : Except DateFault TimeFields := do
  return { f with ordinal := ← agree f.ordinal (← within 1 366 n) }

def setWeekday (f : TimeFields) (n : Nat) : Except DateFault TimeFields := do
  return { f with weekday := ← agree f.weekday n }

def setAfternoon (f : TimeFields) (b : Bool) : Except DateFault TimeFields := do
  return { f with afternoon := ← agree f.afternoon b }

def setHour (f : TimeFields) (n : Int) : Except DateFault TimeFields := do
  let hour ← within 0 23 n
  let f ← f.setAfternoon (12 ≤ hour)
  return { f with hourOfHalf := ← agree f.hourOfHalf (hour % 12) }

def setHour12 (f : TimeFields) (n : Int) : Except DateFault TimeFields := do
  let hour ← within 1 12 n
  return { f with hourOfHalf := ← agree f.hourOfHalf (hour % 12) }

def setMinute (f : TimeFields) (n : Int) : Except DateFault TimeFields := do
  return { f with minute := ← agree f.minute (← within 0 59 n) }

def setSecond (f : TimeFields) (n : Int) : Except DateFault TimeFields := do
  return { f with second := ← agree f.second (← within 0 60 n) }

def setNanosecond (f : TimeFields) (n : Int) : Except DateFault TimeFields := do
  return { f with nanosecond := ← agree f.nanosecond (← within 0 999999999 n) }

def setOffset (f : TimeFields) (n : Int) : Except DateFault TimeFields := do
  return { f with offset := ← agree f.offset n }

/-! ## Date and time together -/

/-- The fields with those that follow from a time stamp. A second of 60 is kept where the stamp
names the second before or after it. -/
def fillFrom (f : TimeFields) (seconds : Int) : Except DateFault TimeFields := do
  match DateTime.ofSeconds? seconds 0 with
  | none => .error .outOfRange
  | some t =>
    let (f, t) ←
      if f.second = some 60 then
        if t.clock.second = 59 then pure (f, t)
        else if t.clock.second = 0 then
          match DateTime.ofSeconds? (seconds - 1) 0 with
          | some t => pure (f, t)
          | none => .error .outOfRange
        else .error .impossible
      else pure (← f.setSecond t.clock.second, t)
    let f ← f.setYear t.date.year
    let f ← f.setOrdinal t.date.ordinal
    let f ← f.setHour t.clock.hour
    f.setMinute t.clock.minute

/-- The local date and time that the fields determine, `offset` seconds east. A time stamp has to
agree with them, or stands in for what is missing. -/
def dateTime (f : TimeFields) (offset : Int) : Except DateFault DateTime :=
  match f.date, f.clock, f.timestamp with
  | .ok date, .ok clock, none => .ok ⟨date, clock⟩
  | .ok date, .ok clock, some given =>
    let t : DateTime := ⟨date, clock⟩
    let seconds := t.seconds - offset
    if given = seconds ∨ (1000000000 ≤ clock.nanosecond ∧ given = seconds + 1) then .ok t
    else .error .impossible
  | .error fault, _, none => .error fault
  | .ok _, .error fault, none => .error fault
  | date, clock, some given =>
    let faults := [date.toOption.isNone, clock.toOption.isNone]
    let isFault (fault : DateFault) : Bool :=
      (match date with
        | .error f => f = fault
        | .ok _ => false) ||
      (match clock with
        | .error f => f = fault
        | .ok _ => false)
    if faults.any id && isFault .outOfRange then .error .outOfRange
    else if faults.any id && isFault .impossible then .error .impossible
    else do
      let filled ← f.fillFrom (given + offset)
      return ⟨← filled.date, ← filled.clock⟩

end TimeFields

end Newsreel.Calendar
