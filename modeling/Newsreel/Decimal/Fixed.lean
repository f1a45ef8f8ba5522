import Newsreel.Decimal.Shortest

/-!
A number written with a fixed count of decimal places: the exact value rounded once, a half to the
even neighbour.
-/

namespace Newsreel.Decimal

/-- The quotient rounded to the nearest whole number, a half to the even one. -/
def roundDiv (numerator denominator : Nat) : Nat :=
  let quotient := numerator / denominator
  let twice := 2 * (numerator % denominator)
  if twice < denominator ∨ (twice = denominator ∧ quotient % 2 = 0) then quotient else quotient + 1

/-- The text of `mantissa · 2 ^ exponent` with the given places. No finite number has more than
`-exponent` of them, so whatever is asked beyond that is zeros. -/
def fixedMagnitude (mantissa : Nat) (exponent : Int) (places : Nat) : String :=
  let denominator := Nat.pow 2 (-exponent).toNat
  let exact := min places (-exponent).toNat
  let scaled := roundDiv (mantissa * Nat.pow 2 exponent.toNat * Nat.pow 10 exact) denominator
  let text := withPoint (Text.natural scaled) exact
  if places = exact then text
  else (if exact = 0 then text ++ "." else text) ++ zeros (places - exact)

/-- A number with a fixed count of places; the sign of a zero is kept. -/
def fixed (x : Float) (places : Nat) : String :=
  match parts x with
  | .nan => "NaN"
  | .infinite negative => if negative then "-inf" else "inf"
  | .finite negative mantissa exponent =>
    (if negative then "-" else "") ++ fixedMagnitude mantissa exponent places

end Newsreel.Decimal
