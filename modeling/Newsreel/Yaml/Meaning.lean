import Newsreel.Decimal.Reader
import Newsreel.Value
import Newsreel.Yaml.Node

/-!
What scalars stand for.

A plain scalar is nothing, a truth value, a number or else a text; every other one is a text. A tag
of the common set decides instead, and one of a document's own has no meaning here.
-/

namespace Newsreel.Yaml

def isNull (text : String) : Bool := ["null", "Null", "NULL", "~"].contains text

def truth? (text : String) : Option Bool :=
  if ["true", "True", "TRUE"].contains text then some true
  else if ["false", "False", "FALSE"].contains text then some false
  else none

/-- The text without a plus sign; there is none where a second sign follows. -/
def withoutPlus? : List Char → Option (List Char)
  | '+' :: c :: cs => if c = '+' ∨ c = '-' then none else some (c :: cs)
  | '+' :: [] => some []
  | cs => some cs

/-- Digits behind a leading zero, which make a text and not a number. -/
def isPaddedNumber (cs : List Char) : Bool :=
  let digits := match cs with
    | '-' :: rest => rest
    | '+' :: rest => rest
    | cs => cs
  match digits with
  | '0' :: c :: rest => (c :: rest).all Text.isDigit
  | _ => false

/-- The value of at least one digit of a radix and nothing else. -/
def radixDigits? (radix : Nat) (cs : List Char) : Option Nat :=
  if cs.isEmpty then none
  else cs.foldlM (fun n c => do
    let digit ← Text.hexDigit? c
    if digit < radix then some (radix * n + digit) else none) 0

/-- The value of digits behind the mark of their radix. -/
def markedDigits? : List Char → Option Nat
  | '0' :: 'x' :: cs => radixDigits? 16 cs
  | '0' :: 'o' :: cs => radixDigits? 8 cs
  | '0' :: 'b' :: cs => radixDigits? 2 cs
  | _ => none

/-- The whole number that a text states. -/
def integer? (cs : List Char) : Option Int :=
  match cs with
  | '-' :: digits =>
    ((markedDigits? digits).or (if isPaddedNumber cs then none else Text.digits? digits)).map
      fun n => -(n : Int)
  | _ => (withoutPlus? cs).bind fun digits =>
    ((markedDigits? digits).or (if isPaddedNumber cs then none else Text.digits? digits)).map
      Int.ofNat

/-- What becomes of a whole number: a number of 64 bits, nothing if it is too large for 128 bits,
and a fault in between. -/
def sizedInteger? (n : Int) : Option (Except Fault Number) :=
  let half : Nat := Nat.pow 2 127
  if -(Text.integerLimit : Int) ≤ n ∧ n < Text.countLimit then some (.ok (.int n))
  else if -(half : Int) ≤ n ∧ n < 2 * half then some (.error .numberOutOfRange)
  else none

/-- The binary64 number that a text states. Only the words with a point stand for infinity and for
what is no number. -/
def real? (cs : List Char) : Option Float :=
  match String.ofList cs with
  | "-.inf" | "-.Inf" | "-.INF" => some (-1 / 0)
  | ".nan" | ".NaN" | ".NAN" => some (0 / 0)
  | _ => (withoutPlus? cs).bind fun digits =>
    if [".inf", ".Inf", ".INF"].contains (String.ofList digits) then some (1 / 0)
    else (Decimal.read? (String.ofList digits)).filter Decimal.isFinite

/-- What a plain scalar stands for. -/
def plainMeaning (text : String) : Except Fault Value :=
  let cs := text.toList
  if text.isEmpty || isNull text then .ok .null
  else match truth? text, (integer? cs).bind sizedInteger? with
    | some b, _ => .ok (.bool b)
    | none, some (.ok n) => .ok (.number n)
    | none, some (.error fault) => .error fault
    | none, none =>
      if isPaddedNumber cs then .ok (.string text)
      else match real? cs with
        | some x => .ok (.ofFloat x)
        | none => .ok (.string text)

/-- A tag of the common set. -/
def commonTag (name : String) : String := "tag:yaml.org,2002:" ++ name

/-- A tag of the document's own. -/
def isLocalTag (tag : Option String) : Bool := match tag with
  | some tag => tag.toList.head? = some '!'
  | none => false

/-- What a scalar stands for. -/
def meaning (tag : Option String) (style : ScalarStyle) (text : String) : Except Fault Value :=
  if isLocalTag tag then .error (.mismatch "an untagged value")
  else if tag = some (commonTag "bool") then match truth? text with
    | some b => .ok (.bool b)
    | none => .error (.mismatch "a boolean")
  else if tag = some (commonTag "int") then
    match (integer? text.toList).bind sizedInteger? with
    | some (.ok n) => .ok (.number n)
    | some (.error fault) => .error fault
    | none => .error (.mismatch "an integer")
  else if tag = some (commonTag "float") then match real? text.toList with
    | some x => .ok (.ofFloat x)
    | none => .error (.mismatch "a float")
  else if tag = some (commonTag "null") then
    if isNull text then .ok .null else .error (.mismatch "null")
  else if tag.isNone ∧ style = .plain then plainMeaning text
  else .ok (.string text)

end Newsreel.Yaml
