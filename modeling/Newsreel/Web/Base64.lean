/-!
Bytes as text in base 64: four signs for three bytes, the last group filled up with equals signs.
-/

namespace Newsreel.Web

/-- The signs for the numbers below 64. -/
def base64Signs : List Char :=
  "ABCDEFGHIJKLMNOPQRSTUVWXYZabcdefghijklmnopqrstuvwxyz0123456789+/".toList

/-- The sign of a number below 64. -/
def base64Sign (n : Nat) : Char := base64Signs[n % 64]?.getD '='

def base64Chars : List UInt8 → List Char
  | [] => []
  | [a] =>
    let n := a.toNat * 16
    [base64Sign (n / 64), base64Sign n, '=', '=']
  | [a, b] =>
    let n := (a.toNat * 256 + b.toNat) * 4
    [base64Sign (n / 4096), base64Sign (n / 64), base64Sign n, '=']
  | a :: b :: c :: rest =>
    let n := a.toNat * 65536 + b.toNat * 256 + c.toNat
    base64Sign (n / 262144) :: base64Sign (n / 4096) :: base64Sign (n / 64) :: base64Sign n
      :: base64Chars rest

def base64 (bytes : List UInt8) : String := String.ofList (base64Chars bytes)

end Newsreel.Web
