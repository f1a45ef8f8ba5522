import Newsreel.Decimal.Binary
import Newsreel.Text.Digits

/-!
The fewest decimal digits that read back as a given binary64 number, and how they are laid out.

All reals of one interval round to the same number. For one, two, three digits and so on, the two
neighbours of the value on that decimal grid are tested against the interval; the first grid with a
hit wins, and of two hits the nearer one.
-/

namespace Newsreel.Decimal

/-- A positive value and the ends of the interval that rounds to it, over one denominator. -/
structure Interval where
  low : Nat
  value : Nat
  high : Nat
  denominator : Nat
  /-- The ends themselves round to the value. -/
  closed : Bool

/-- The interval of `mantissa · 2 ^ exponent`: half a unit of the last bit to each side, and a
quarter below a power of two, where the numbers lie twice as dense. -/
def interval (mantissa : Nat) (exponent : Int) : Interval :=
  let below := if mantissa = hiddenBit ∧ -1074 < exponent then 1 else 2
  let scale := Nat.pow 2 (exponent - 2).toNat
  { low := (4 * mantissa - below) * scale
    value := 4 * mantissa * scale
    high := (4 * mantissa + 2) * scale
    denominator := Nat.pow 2 (2 - exponent).toNat
    closed := mantissa % 2 = 0 }

/-- The number of digits before the point of `value / denominator`, or minus the number of zeros
behind the point where nothing stands before it. -/
def Interval.magnitude (i : Interval) : Int :=
  if i.denominator ≤ i.value then (Nat.toDigits 10 (i.value / i.denominator)).length
  else
    let width := (Nat.toDigits 10 (i.denominator / i.value)).length
    if i.denominator ≤ i.value * Nat.pow 10 (width - 1) then 2 - (width : Int)
    else 1 - (width : Int)

/-- A point of the grid `candidate · 10 ^ grid` lies in the interval. -/
def Interval.holds (i : Interval) (grid : Int) (candidate : Nat) : Bool :=
  let point := candidate * Nat.pow 10 grid.toNat * i.denominator
  let down := Nat.pow 10 (-grid).toNat
  if i.closed then i.low * down ≤ point ∧ point ≤ i.high * down
  else i.low * down < point ∧ point < i.high * down

/-- The neighbour of the value on a grid that lies in the interval, the nearer one if both do. An
exact tie goes to the even neighbour. -/
def Interval.onGrid? (i : Interval) (grid : Int) : Option Nat :=
  let unit := i.denominator * Nat.pow 10 grid.toNat
  let scaled := i.value * Nat.pow 10 (-grid).toNat
  let lower := scaled / unit
  let upper := lower + 1
  match i.holds grid lower, i.holds grid upper with
  | false, false => none
  | true, false => some lower
  | false, true => some upper
  | true, true =>
    let twice := 2 * (scaled - lower * unit)
    if twice < unit ∨ (twice = unit ∧ lower % 2 = 0) then some lower else some upper

/-- The first grid with a hit, from `places` digits on. A hit on the next power of ten is that power
itself, which has one digit. -/
def Interval.search (i : Interval) (magnitude : Int) (places : Nat) : (tries : Nat) → Nat × Int
  | 0 => (i.value / i.denominator, 0)
  | tries + 1 =>
    match i.onGrid? (magnitude - places) with
    | some digits =>
      if digits = Nat.pow 10 places then (1, magnitude) else (digits, magnitude - places)
    | none => i.search magnitude (places + 1) tries

/-- Digits and a power of ten, `digits · 10 ^ exponent`, for a positive `mantissa · 2 ^ exponent`.
Seventeen digits always suffice. -/
def shortest (mantissa : Nat) (exponent : Int) : Nat × Int :=
  let i := interval mantissa exponent
  i.search i.magnitude 1 17

/-- How a number is laid out. -/
structure Layout where
  /-- The powers of ten of a leading digit that are written without an exponent, all if none. -/
  positional : Option (Int × Int)
  /-- A whole number keeps a point and a zero. -/
  keepPoint : Bool
  infinity : String
  nan : String

/-- Zeros in a row. -/
def zeros (n : Nat) : String := String.ofList (List.replicate n '0')

/-- Digits with a decimal point before the last `places` of them. -/
def withPoint (digits : String) (places : Nat) : String :=
  let text := String.ofList (List.replicate (places + 1 - digits.length) '0') ++ digits
  let whole := text.toList.take (text.length - places)
  let rest := text.toList.drop (text.length - places)
  if places = 0 then digits else String.ofList (whole ++ '.' :: rest)

/-- Positional notation of `digits · 10 ^ exponent`. -/
def Layout.positionalText (layout : Layout) (digits : String) (exponent : Int) : String :=
  if 0 ≤ exponent then
    digits ++ zeros exponent.toNat ++ (if layout.keepPoint then ".0" else "")
  else withPoint digits (-exponent).toNat

/-- One digit before the point, the others behind it, and the exponent with its sign. -/
def scientificText (digits : String) (leading : Int) : String :=
  withPoint digits (digits.length - 1)
    ++ (if leading < 0 then "e-" else "e+") ++ Text.natural leading.natAbs

/-- The text of a number in the given layout. -/
def Layout.write (layout : Layout) (x : Float) : String :=
  match parts x with
  | .nan => layout.nan
  | .infinite negative => (if negative then "-" else "") ++ layout.infinity
  | .finite negative mantissa exponent =>
    let sign := if negative then "-" else ""
    if mantissa = 0 then sign ++ layout.positionalText "0" 0
    else
      let (number, power) := shortest mantissa exponent
      let digits := Text.natural number
      let leading := power + digits.length - 1
      let positional := match layout.positional with
        | none => true
        | some (least, greatest) => decide (least ≤ leading ∧ leading ≤ greatest)
      sign ++ if positional then layout.positionalText digits power
        else scientificText digits leading

/-- Inside a document a number has an exponent below a hundred-thousandth and from ten quadrillion
on, and a whole one keeps its point. -/
def documentLayout : Layout := ⟨some (-5, 15), true, "null", "null"⟩

/-- In a command line a number has no exponent, and a whole one no point. -/
def plainLayout : Layout := ⟨none, false, "inf", "NaN"⟩

end Newsreel.Decimal
