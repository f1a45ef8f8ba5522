/-!
A binary64 number taken apart into integers, so that what is written of it can be computed exactly.
-/

namespace Newsreel.Decimal

/-- What a binary64 number stands for; a finite one is `± mantissa · 2 ^ exponent`. -/
inductive Parts where
  | nan
  | infinite (negative : Bool)
  | finite (negative : Bool) (mantissa : Nat) (exponent : Int)
  deriving DecidableEq, Repr

/-- The bit that is set in numbers below zero, also in minus zero. -/
def signBit : Nat := Nat.pow 2 63

/-- The leading bit of a mantissa, which is not written down. -/
def hiddenBit : Nat := Nat.pow 2 52

/-- The sign, the significand with its leading bit, and the power of two of its last bit. -/
def parts (x : Float) : Parts :=
  let bits := x.toBits.toNat
  let negative := decide (signBit ≤ bits)
  let biased : Nat := bits / hiddenBit % 2048
  let fraction := bits % hiddenBit
  if biased = 2047 then
    if fraction = 0 then .infinite negative else .nan
  else if biased = 0 then .finite negative fraction (-1074)
  else .finite negative (hiddenBit + fraction) ((biased : Int) - 1075)

/-- The sign bit is set, also on a zero. -/
def isNegative (x : Float) : Bool := decide (signBit ≤ x.toBits.toNat)

def isFinite (x : Float) : Bool := match parts x with
  | .finite .. => true
  | _ => false

/-- A number that is not less than zero, minus zero included. -/
def isNonNegative (x : Float) : Bool := match parts x with
  | .nan => false
  | .infinite negative => !negative
  | .finite negative mantissa _ => !negative || mantissa == 0

/-- The whole number nearest to a finite one; a half goes away from zero. -/
def nearestInt? (x : Float) : Option Int := match parts x with
  | .finite negative mantissa exponent =>
    let magnitude : Nat :=
      if 0 ≤ exponent then mantissa * Nat.pow 2 exponent.toNat
      else
        let unit := Nat.pow 2 (-exponent).toNat
        (2 * mantissa + unit) / (2 * unit)
    some (if negative then -(magnitude : Int) else magnitude)
  | _ => none

end Newsreel.Decimal
