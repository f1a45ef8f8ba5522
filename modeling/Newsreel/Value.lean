import Newsreel.Decimal.Shortest

/-!
Values: what documents, configurations, responses and snapshots are made of.

An object is a list of fields in the order in which they were first written. Writing a field that is
already there keeps its place, so reading, changing and printing a value never reorders it.
-/

namespace Newsreel

/-- A number keeps the form it was written in: whole numbers of a 64-bit word stay exact, all others
are finite binary64 numbers. -/
inductive Number where
  | int (n : Int)
  | float (x : Float)
  deriving DecidableEq, Repr, Inhabited

inductive Value where
  | null
  | bool (b : Bool)
  | number (n : Number)
  | string (s : String)
  | array (items : List Value)
  | object (fields : List (String × Value))
  deriving Repr, Inhabited

/-- The fields of an object, in order, each name once. -/
abbrev Fields := List (String × Value)

namespace Number

/-- The nearest binary64 number. -/
def toFloat : Number → Float
  | .int n => Float.ofInt n
  | .float x => x

/-- The number as a whole number of a signed 64-bit word. -/
def toInt? : Number → Option Int
  | .int n => if n < Text.integerLimit then some n else none
  | .float _ => none

/-- The number as a count. -/
def toCount? : Number → Option Nat
  | .int n => if 0 ≤ n then some n.toNat else none
  | .float _ => none

def text : Number → String
  | .int n => Text.integer n
  | .float x => Decimal.documentLayout.write x

/-- A finite binary64 number; infinities and not-a-number have no value. -/
def ofFloat? (x : Float) : Option Number :=
  if Decimal.isFinite x then some (.float x) else none

end Number

namespace Fields

/-- The value under a name. -/
def find? (name : String) : Fields → Option Value
  | [] => none
  | (key, value) :: rest => if key = name then some value else find? name rest

/-- The fields with a value under a name: in its old place, or last if the name is new. -/
def insert (name : String) (value : Value) : Fields → Fields
  | [] => [(name, value)]
  | (key, old) :: rest =>
    if key = name then (key, value) :: rest else (key, old) :: insert name value rest

/-- The fields without a name. -/
def erase (name : String) : Fields → Fields
  | [] => []
  | (key, value) :: rest => if key = name then rest else (key, value) :: erase name rest

/-- Fields written one after the other. -/
def ofList (fields : List (String × Value)) : Fields :=
  fields.foldl (fun written (name, value) => insert name value written) []

end Fields

namespace Value

def ofNat (n : Nat) : Value := .number (.int n)

def ofInt (n : Int) : Value := .number (.int n)

/-- A number, or null where a value cannot hold it. -/
def ofFloat (x : Float) : Value := match Number.ofFloat? x with
  | some n => .number n
  | none => .null

def ofOption (f : α → Value) : Option α → Value
  | none => .null
  | some a => f a

def isObject : Value → Bool
  | .object _ => true
  | _ => false

mutual
/-- The levels of nesting of a value. -/
def depth : Value → Nat
  | .null => 1
  | .bool _ => 1
  | .number _ => 1
  | .string _ => 1
  | .array items => depthOfItems items + 1
  | .object fields => depthOfFields fields + 1

def depthOfItems : List Value → Nat
  | [] => 0
  | item :: items => max (depth item) (depthOfItems items)

def depthOfFields : List (String × Value) → Nat
  | [] => 0
  | (_, value) :: fields => max (depth value) (depthOfFields fields)
end

/-- The kind of a value in the words of a complaint. -/
def kindText : Value → String
  | .null => "null"
  | .bool _ => "a boolean"
  | .number _ => "a number"
  | .string _ => "a string"
  | .array _ => "an array"
  | .object _ => "an object"

end Value

end Newsreel
