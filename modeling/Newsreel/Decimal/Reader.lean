import Newsreel.Text.Blank
import Newsreel.Text.Digits

/-!
Decimal texts read as binary64 numbers, each rounded to the nearest.

A text has a sign or none, digits with a point among, before or behind them, and perhaps an
exponent. The words for infinity and for what is no number are read in any case.
-/

namespace Newsreel.Decimal

/-- Digits from the beginning of a text and the rest. -/
def takeDigits (cs : List Char) : List Char × List Char := cs.span Text.isDigit

/-- The exponent that ends a text, and nothing but it. -/
def exponent? : List Char → Option Int
  | [] => some 0
  | c :: rest =>
    if c = 'e' ∨ c = 'E' then
      match rest with
      | '-' :: digits => (Text.digits? digits).map fun n => -(n : Int)
      | '+' :: digits => (Text.digits? digits).map fun n => (n : Int)
      | digits => (Text.digits? digits).map fun n => (n : Int)
    else none

/-- The powers of ten beyond which every number is zero or infinite. -/
def powerLimit : Int := 400

/-- The number of some digits times a power of ten. -/
def ofDigits (digits : Nat) (power : Int) : Float :=
  let leading := (Nat.toDigits 10 digits).length + power
  if digits = 0 ∨ leading < -powerLimit then 0
  else if powerLimit < leading then 1 / 0
  else if power < 0 then Float.ofScientific digits true power.natAbs
  else Float.ofScientific digits false power.natAbs

/-- A number without a sign. -/
def magnitude? (cs : List Char) : Option Float :=
  match Text.lowerAscii (String.ofList cs) with
  | "inf" | "infinity" => some (1 / 0)
  | "nan" => some (0 / 0)
  | _ =>
    let (whole, rest) := takeDigits cs
    let (places, rest) := match rest with
      | '.' :: rest => takeDigits rest
      | rest => ([], rest)
    match Text.digits? (whole ++ places), exponent? rest with
    | some digits, some power => some (ofDigits digits (power - places.length))
    | _, _ => none

/-- The number that a text states. -/
def read? (s : String) : Option Float :=
  match s.toList with
  | '-' :: rest => (magnitude? rest).map fun x => -x
  | '+' :: rest => magnitude? rest
  | cs => magnitude? cs

end Newsreel.Decimal
