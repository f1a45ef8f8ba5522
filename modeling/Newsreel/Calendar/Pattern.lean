import Newsreel.Text.Blank

/-!
Date patterns: what a text that states a date consists of, item by item.

A percent sign begins a specifier; a run of white space stands for any white space, none included;
everything else stands for itself.
-/

namespace Newsreel.Calendar

/-- A number that a pattern can ask for. -/
inductive Numeral where
  | year | century | yearOfCentury
  | isoYear | isoYearOfCentury
  | quarter | month | day
  | weekFromSunday | weekFromMonday | isoWeek
  | weekdayFromSunday | weekdayFromMonday
  | ordinal
  | hour | hour12 | minute | second | nanosecond
  | timestamp
  deriving DecidableEq, Repr

inductive Item where
  | literal (text : List Char)
  | blank
  | numeral (n : Numeral)
  /-- The first three letters of a month, the rest of its name being allowed if `long`. -/
  | monthName (long : Bool)
  | weekdayName (long : Bool)
  | halfOfDay
  /-- A point and decimals of a second, or nothing. -/
  | fraction
  /-- A point and so many decimals, or nothing. -/
  | decimals (places : Nat)
  /-- So many decimals without a point. -/
  | bareDecimals (places : Nat)
  /-- Everything up to the next white space. -/
  | zoneName
  /-- The offset of a time zone; a `Z` and an offset of hours only may be allowed. -/
  | zoneOffset (zulu hoursOnly : Bool)
  /-- A whole time stamp with its offset. -/
  | stamp
  /-- No specifier. -/
  | bad
  deriving DecidableEq, Repr

namespace Pattern

def char (c : Char) : Item := .literal [c]

/-- Hours, minutes and seconds. -/
def clock (hours : Numeral) : List Item :=
  [.numeral hours, char ':', .numeral .minute, char ':', .numeral .second]

/-- What a specifier of one letter stands for. -/
def specifier : Char → List Item
  | 'A' => [.weekdayName true]
  | 'B' => [.monthName true]
  | 'C' => [.numeral .century]
  | 'D' | 'x' =>
    [.numeral .month, char '/', .numeral .day, char '/', .numeral .yearOfCentury]
  | 'F' => [.numeral .year, char '-', .numeral .month, char '-', .numeral .day]
  | 'G' => [.numeral .isoYear]
  | 'H' | 'k' => [.numeral .hour]
  | 'I' | 'l' => [.numeral .hour12]
  | 'M' => [.numeral .minute]
  | 'P' | 'p' => [.halfOfDay]
  | 'R' => [.numeral .hour, char ':', .numeral .minute]
  | 'S' => [.numeral .second]
  | 'T' | 'X' => clock .hour
  | 'U' => [.numeral .weekFromSunday]
  | 'V' => [.numeral .isoWeek]
  | 'W' => [.numeral .weekFromMonday]
  | 'Y' => [.numeral .year]
  | 'Z' => [.zoneName]
  | 'a' => [.weekdayName false]
  | 'b' | 'h' => [.monthName false]
  | 'c' =>
    [.weekdayName false, .blank, .monthName false, .blank, .numeral .day, .blank] ++ clock .hour
      ++ [.blank, .numeral .year]
  | 'd' | 'e' => [.numeral .day]
  | 'f' => [.numeral .nanosecond]
  | 'g' => [.numeral .isoYearOfCentury]
  | 'j' => [.numeral .ordinal]
  | 'm' => [.numeral .month]
  | 'n' | 't' => [.blank]
  | 'q' => [.numeral .quarter]
  | 'r' => clock .hour12 ++ [.blank, .halfOfDay]
  | 's' => [.numeral .timestamp]
  | 'u' => [.numeral .weekdayFromMonday]
  | 'v' => [.numeral .day, char '-', .monthName false, char '-', .numeral .year]
  | 'w' => [.numeral .weekdayFromSunday]
  | 'y' => [.numeral .yearOfCentury]
  | 'z' => [.zoneOffset false false]
  | '+' => [.stamp]
  | '%' => [char '%']
  | _ => [.bad]

/-- A change of padding before a specifier is allowed on a single number only; it does not matter to
what can be read. -/
def padded : List Item → List Item
  | [.numeral n] => [.numeral n]
  | _ => [.bad]

/-- Items of a text that stands between specifiers. -/
def between (read : List Char) (items : List Item) : List Item :=
  if read.isEmpty then items else .literal read.reverse :: items

/-- The items of a pattern. `read` holds literal text, backwards; `blank` tells that the character
before was white space. A pattern cut off within a specifier ends in a bad item, and so does one
whose specifier of several letters is unknown, which then goes on behind what was looked at. -/
def itemsFrom (read : List Char) : (blank : Bool) → List Char → List Item
  | _, [] => between read []
  | _, ['%'] => between read [.bad]
  | _, '%' :: '#' :: 'z' :: rest => between read (.zoneOffset true true :: itemsFrom [] false rest)
  | _, '%' :: '#' :: _ :: rest => between read (.bad :: itemsFrom [] false rest)
  | _, '%' :: ':' :: ':' :: ':' :: 'z' :: rest =>
    between read (.zoneOffset false false :: itemsFrom [] false rest)
  | _, '%' :: ':' :: ':' :: 'z' :: rest =>
    between read (.zoneOffset false false :: itemsFrom [] false rest)
  | _, '%' :: ':' :: 'z' :: rest =>
    between read (.zoneOffset false false :: itemsFrom [] false rest)
  | _, '%' :: '.' :: 'f' :: rest => between read (.fraction :: itemsFrom [] false rest)
  | _, '%' :: '.' :: '3' :: 'f' :: rest => between read (.decimals 3 :: itemsFrom [] false rest)
  | _, '%' :: '.' :: '6' :: 'f' :: rest => between read (.decimals 6 :: itemsFrom [] false rest)
  | _, '%' :: '.' :: '9' :: 'f' :: rest => between read (.decimals 9 :: itemsFrom [] false rest)
  | _, '%' :: '3' :: 'f' :: rest => between read (.bareDecimals 3 :: itemsFrom [] false rest)
  | _, '%' :: '6' :: 'f' :: rest => between read (.bareDecimals 6 :: itemsFrom [] false rest)
  | _, '%' :: '9' :: 'f' :: rest => between read (.bareDecimals 9 :: itemsFrom [] false rest)
  | _, '%' :: '-' :: c :: rest => between read (padded (specifier c) ++ itemsFrom [] false rest)
  | _, '%' :: '0' :: c :: rest => between read (padded (specifier c) ++ itemsFrom [] false rest)
  | _, '%' :: '_' :: c :: rest => between read (padded (specifier c) ++ itemsFrom [] false rest)
  | _, '%' :: c :: rest => between read (specifier c ++ itemsFrom [] false rest)
  | blank, c :: rest =>
    if Text.isBlank c then
      if blank then itemsFrom read true rest else between read (.blank :: itemsFrom [] true rest)
    else itemsFrom (c :: read) false rest

/-- The items of a pattern. -/
def items (pattern : String) : List Item := itemsFrom [] false pattern.toList

end Pattern

end Newsreel.Calendar
