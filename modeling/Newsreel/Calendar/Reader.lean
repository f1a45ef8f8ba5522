import Newsreel.Calendar.Fields
import Newsreel.Calendar.Pattern

/-!
Dates and times read from texts by a pattern.

White space before a number is passed over. A number without a sign has no more digits than its
item allows; a year with a sign may have any. The text has to be used up.
-/

namespace Newsreel.Calendar

/-- The fields read so far and the rest of the text. -/
abbrev Progress := TimeFields × List Char

/-- The bytes of a text. -/
def byteLength : List Char → Nat
  | [] => 0
  | c :: cs => c.utf8Size + byteLength cs

def skipBlanks (cs : List Char) : List Char := cs.dropWhile Text.isBlank

/-- The greatest number that can be read. -/
def numberLimit : Nat := Text.integerLimit

/-- Up to `most` further digits after `n`. -/
def digitsUpTo : (most n : Nat) → List Char → Except DateFault (Nat × List Char)
  | 0, n, cs => .ok (n, cs)
  | _ + 1, n, [] => .ok (n, [])
  | most + 1, n, c :: cs => match Text.digit? c with
    | none => .ok (n, c :: cs)
    | some d =>
      if numberLimit ≤ 10 * n + d then .error .outOfRange else digitsUpTo most (10 * n + d) cs

/-- One to `most` digits. -/
def number (most : Nat) (cs : List Char) : Except DateFault (Nat × List Char) :=
  match cs with
  | [] => .error .tooShort
  | c :: _ => if Text.isDigit c then digitsUpTo most 0 cs else .error .invalid

/-- Exactly so many digits. -/
def exactly (count : Nat) (cs : List Char) : Except DateFault (Nat × List Char) :=
  if byteLength cs < count then .error .tooShort
  else if (cs.take count).length = count ∧ (cs.take count).all Text.isDigit then
    digitsUpTo count 0 cs
  else .error .invalid

/-- A number that may have a sign; with one it may have any count of digits. -/
def signedNumber (most : Nat) (cs : List Char) : Except DateFault (Int × List Char) :=
  match cs with
  | '-' :: rest => (number rest.length rest).map fun (n, rest) => (-(n : Int), rest)
  | '+' :: rest => (number rest.length rest).map fun (n, rest) => ((n : Int), rest)
  | _ => (number most cs).map fun (n, rest) => ((n : Int), rest)

/-- The most digits of a number, where its length is limited. -/
def Numeral.width : Numeral → Option Nat
  | .year | .isoYear => some 4
  | .century | .yearOfCentury | .isoYearOfCentury | .month | .day | .weekFromSunday
  | .weekFromMonday | .isoWeek | .hour | .hour12 | .minute | .second => some 2
  | .quarter | .weekdayFromSunday | .weekdayFromMonday => some 1
  | .ordinal => some 3
  | .nanosecond => some 9
  | .timestamp => none

def Numeral.isSigned : Numeral → Bool
  | .year | .isoYear => true
  | _ => false

/-- The fields with a number that was read. -/
def Numeral.set (f : TimeFields) (n : Int) : Numeral → Except DateFault TimeFields
  | .year => f.setYear n
  | .century => do return { f with century := ← agree f.century n }
  | .yearOfCentury => do return { f with yearOfCentury := ← agree f.yearOfCentury n }
  | .isoYear => f.setIsoYear n
  | .isoYearOfCentury => do return { f with isoYearOfCentury := ← agree f.isoYearOfCentury n }
  | .quarter => do return { f with quarter := ← agree f.quarter (← within 1 4 n) }
  | .month => f.setMonth n
  | .day => f.setDay n
  | .weekFromSunday => do
    return { f with weekFromSunday := ← agree f.weekFromSunday (← within 0 53 n) }
  | .weekFromMonday => do
    return { f with weekFromMonday := ← agree f.weekFromMonday (← within 0 53 n) }
  | .isoWeek => do return { f with isoWeek := ← agree f.isoWeek (← within 1 53 n) }
  | .weekdayFromSunday => do f.setWeekday (((← within 0 6 n) + 6) % 7)
  | .weekdayFromMonday => do f.setWeekday ((← within 1 7 n) - 1)
  | .ordinal => f.setOrdinal n
  | .hour => f.setHour n
  | .hour12 => f.setHour12 n
  | .minute => f.setMinute n
  | .second => f.setSecond n
  | .nanosecond => f.setNanosecond n
  | .timestamp => do return { f with timestamp := ← agree f.timestamp n }

/-- The names of the months. -/
def months : List String :=
  ["january", "february", "march", "april", "may", "june", "july", "august", "september",
    "october", "november", "december"]

/-- The names of the weekdays, Monday first. -/
def weekdays : List String :=
  ["monday", "tuesday", "wednesday", "thursday", "friday", "saturday", "sunday"]

/-- A name, of which the first three letters decide; the rest is taken as well if it stands there
and may. Capitals and small letters are alike. -/
def nameIn (names : List String) (long : Bool) (cs : List Char) :
    Except DateFault (Nat × List Char) :=
  if byteLength cs < 3 then .error .tooShort
  else
    let letters := (cs.take 3).map Char.toLower
    match names.findIdx? fun name => name.toList.take 3 = letters with
    | none => .error .invalid
    | some i =>
      let suffix := ((names[i]?.getD "").toList).drop 3
      let rest := cs.drop 3
      if long ∧ (rest.take suffix.length).map Char.toLower = suffix then
        .ok (i, rest.drop suffix.length)
      else .ok (i, rest)

/-- Two letters for the half of the day. -/
def halfOfDay (cs : List Char) : Except DateFault (Bool × List Char) :=
  if byteLength cs < 2 then .error .tooShort
  else match (cs.take 2).map Char.toLower with
    | ['a', 'm'] => .ok (false, cs.drop 2)
    | ['p', 'm'] => .ok (true, cs.drop 2)
    | _ => .error .invalid

/-- Decimals of a second; what goes beyond nanoseconds is passed over. -/
def decimalsOfSecond (cs : List Char) : Except DateFault (Nat × List Char) := do
  let (n, rest) ← number 9 cs
  return (n * Nat.pow 10 (9 - (cs.length - rest.length)), rest.dropWhile Text.isDigit)

/-- Exactly so many decimals of a second. -/
def exactDecimals (places : Nat) (cs : List Char) : Except DateFault (Nat × List Char) := do
  let (n, rest) ← exactly places cs
  return (n * Nat.pow 10 (9 - places), rest)

/-- The two bytes that come next, as far as they are characters of one byte. -/
def twoBytes (cs : List Char) : Except DateFault (Option (Char × Char)) :=
  if byteLength cs < 2 then .error .tooShort
  else match cs with
    | a :: b :: _ => .ok (some (a, b))
    | _ => .ok none

/-- Two digits, the first of which is below a limit. -/
def twoDigits (cs : List Char) : Except DateFault (Nat × List Char) := do
  match ← twoBytes cs with
  | some (a, b) => match Text.digit? a, Text.digit? b with
    | some a, some b => .ok (10 * a + b, cs.drop 2)
    | _, _ => .error .invalid
  | none => .error .invalid

/-- The sign of an offset; a true minus sign will do as well. -/
def offsetSign (cs : List Char) : Except DateFault (Bool × List Char) :=
  match cs with
  | '+' :: rest => .ok (false, rest)
  | '-' :: rest => .ok (true, rest)
  | '−' :: rest => .ok (true, rest)
  | _ :: _ => .error .invalid
  | [] => .error .tooShort

/-- An offset in seconds: a sign, hours, perhaps colons or blanks, minutes. -/
def zoneOffset (zulu hoursOnly : Bool) (cs : List Char) : Except DateFault (Int × List Char) := do
  match zulu, cs with
  | true, 'Z' :: rest => return (0, rest)
  | true, 'z' :: rest => return (0, rest)
  | _, _ =>
    let (negative, rest) ← offsetSign cs
    let (hours, rest) ← twoDigits rest
    let rest := rest.dropWhile fun c => c = ':' || Text.isBlank c
    let signed (minutes : Nat) : Int :=
      let seconds : Nat := 3600 * hours + 60 * minutes
      if negative then -(seconds : Int) else seconds
    if byteLength rest < 2 then
      if hoursOnly then
        if rest.isEmpty then return (signed 0, rest) else .error .tooShort
      else .error .tooShort
    else
      let (minutes, rest) ← twoDigits rest
      if 60 ≤ minutes then .error .outOfRange else return (signed minutes, rest)

/-- Reads one item other than a whole time stamp. -/
def readPlain (item : Item) : Progress → Except DateFault Progress
  | (f, cs) => match item with
    | .literal text =>
      if byteLength cs < byteLength text then .error .tooShort
      else if cs.take text.length = text then .ok (f, cs.drop text.length)
      else .error .invalid
    | .blank => .ok (f, skipBlanks cs)
    | .numeral n => do
      let cs := skipBlanks cs
      let most := n.width.getD cs.length
      let (value, rest) ← if n.isSigned then signedNumber most cs
        else (number most cs).map fun (n, rest) => ((n : Int), rest)
      return (← n.set f value, rest)
    | .monthName long => do
      let (i, rest) ← nameIn months long cs
      return (← f.setMonth (i + 1), rest)
    | .weekdayName long => do
      let (i, rest) ← nameIn weekdays long cs
      return (← f.setWeekday i, rest)
    | .halfOfDay => do
      let (afternoon, rest) ← halfOfDay cs
      return (← f.setAfternoon afternoon, rest)
    | .fraction => match cs with
      | '.' :: rest => do
        let (n, rest) ← decimalsOfSecond rest
        return (← f.setNanosecond n, rest)
      | _ => .ok (f, cs)
    | .decimals places => match cs with
      | '.' :: rest => do
        let (n, rest) ← exactDecimals places rest
        return (← f.setNanosecond n, rest)
      | _ => .ok (f, cs)
    | .bareDecimals places => do
      let (n, rest) ← exactDecimals places cs
      return (← f.setNanosecond n, rest)
    | .zoneName => .ok (f, cs.dropWhile fun c => !Text.isBlank c)
    | .zoneOffset zulu hoursOnly => do
      let (offset, rest) ← zoneOffset zulu hoursOnly (skipBlanks cs)
      return (← f.setOffset offset, rest)
    | .stamp => .error .badPattern
    | .bad => .error .badPattern

/-- The date of a time stamp; blanks are allowed before a hyphen. -/
def stampDate : List Item :=
  [.numeral .year, .blank, Pattern.char '-', .numeral .month, .blank, Pattern.char '-',
    .numeral .day]

/-- The time of a time stamp. -/
def stampClock : List Item :=
  [.numeral .hour, .blank, Pattern.char ':', .numeral .minute, .blank, Pattern.char ':',
    .numeral .second, .fraction, .blank]

/-- A date, a `T` or a blank, a time and an offset. -/
def readStamp (progress : Progress) : Except DateFault Progress := do
  let (f, cs) ← stampDate.foldlM (fun p item => readPlain item p) progress
  let cs ← match cs with
    | [] => .error .tooShort
    | c :: rest => if c = 'T' ∨ c = 't' ∨ c = ' ' then .ok rest else .error .invalid
  let (f, cs) ← stampClock.foldlM (fun p item => readPlain item p) (f, cs)
  let cs := skipBlanks cs
  if (cs.take 3).map Char.toLower = ['u', 't', 'c'] then return (← f.setOffset 0, cs.drop 3)
  else
    let (offset, rest) ← zoneOffset true false cs
    return (← f.setOffset offset, rest)

def readItem (item : Item) (progress : Progress) : Except DateFault Progress :=
  match item with
  | .stamp => readStamp progress
  | item => readPlain item progress

/-- The fields of a text that matches a pattern from beginning to end. -/
def fields (text pattern : String) : Except DateFault TimeFields := do
  let (f, rest) ← (Pattern.items pattern).foldlM (fun p item => readItem item p)
    (({} : TimeFields), text.toList)
  if rest.isEmpty then .ok f else .error .tooLong

/-- The local date and time of a text. -/
def readDateTime (text pattern : String) : Except DateFault DateTime := do
  (← fields text pattern).dateTime 0

/-- The date of a text, for which no time of day is needed. Where none is found, the fault is that
of reading a date and a time. -/
def readDate (text pattern : String) : Except DateFault Date :=
  match fields text pattern >>= TimeFields.date with
  | .ok date => .ok date
  | .error _ => (readDateTime text pattern).map DateTime.date

/-- The names of the weekdays in German, Monday first. -/
def germanWeekdays : List String :=
  ["Montag", "Dienstag", "Mittwoch", "Donnerstag", "Freitag", "Samstag", "Sonntag"]

def weekdayName (date : Date) : String := germanWeekdays[date.weekday]?.getD ""

end Newsreel.Calendar
