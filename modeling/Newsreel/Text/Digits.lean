/-!
Whole numbers read from decimal digits, within the ranges of the machine words that hold them.
-/

namespace Newsreel.Text

/-- The value of a decimal digit. -/
def digit? (c : Char) : Option Nat :=
  if '0' ≤ c ∧ c ≤ '9' then some (c.toNat - '0'.toNat) else none

def isDigit (c : Char) : Bool := (digit? c).isSome

/-- The value of the digits read after `n`, or none at the first other character. -/
def digitsFrom (n : Nat) : List Char → Option Nat
  | [] => some n
  | c :: cs => (digit? c).bind fun d => digitsFrom (10 * n + d) cs

/-- The value of at least one digit and nothing else. -/
def digits? : List Char → Option Nat
  | [] => none
  | cs => digitsFrom 0 cs

/-- One more than the greatest index or count. -/
def countLimit : Nat := Nat.pow 2 64

/-- One more than the greatest signed number. -/
def integerLimit : Nat := Nat.pow 2 63

/-- A count: digits after an optional plus sign, below `countLimit`. -/
def count? (s : String) : Option Nat :=
  let digits := match s.toList with
    | '+' :: rest => rest
    | cs => cs
  (digits? digits).filter (· < countLimit)

/-- A signed number: digits after an optional sign, within 64 bits. -/
def integer? (s : String) : Option Int :=
  let value : Option Int := match s.toList with
    | '+' :: rest => (digits? rest).map Int.ofNat
    | '-' :: rest => (digits? rest).map fun n => -(n : Int)
    | cs => (digits? cs).map Int.ofNat
  value.filter fun n => -(integerLimit : Int) ≤ n ∧ n < integerLimit

/-- The decimal digits of a number. -/
def natural (n : Nat) : String := String.ofList (Nat.toDigits 10 n)

/-- The decimal digits of a number after its minus sign, if it has one. -/
def integer (n : Int) : String :=
  if n < 0 then "-" ++ natural n.natAbs else natural n.natAbs

/-- The digits of a number behind as many zeros as fill the width. -/
def padded (width : Nat) (n : Nat) : String :=
  let text := natural n
  String.ofList (List.replicate (width - text.length) '0') ++ text

/-- The value of a hexadecimal digit of either case. -/
def hexDigit? (c : Char) : Option Nat :=
  if '0' ≤ c ∧ c ≤ '9' then some (c.toNat - '0'.toNat)
  else if 'a' ≤ c ∧ c ≤ 'f' then some (c.toNat - 'a'.toNat + 10)
  else if 'A' ≤ c ∧ c ≤ 'F' then some (c.toNat - 'A'.toNat + 10)
  else none

/-- The small hexadecimal digits of a number. -/
def hexadecimal (n : Nat) : String := String.ofList (Nat.toDigits 16 n)

end Newsreel.Text
