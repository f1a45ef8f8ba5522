import Newsreel.Decode
import Newsreel.Text.Search

/-!
The ids of runs: thirty-two hexadecimal digits in five groups.

An id may be given with its groups or without them, in braces, or behind the name of its kind. It is
kept in one form, in small digits with a hyphen between the groups, so equal ids are equal texts.
-/

namespace Newsreel

/-- Why a text is no id. -/
inductive IdFault where
  /-- Neither a digit nor a hyphen, with its place in bytes. -/
  | character (c : Char) (place : Nat)
  /-- Digits alone, but not thirty-two of them. -/
  | length (found : Nat)
  | groupCount (found : Nat)
  | groupLength (group expected found : Nat)
  deriving DecidableEq, Repr

namespace IdFault

def message : IdFault → String
  | .character c place =>
    "invalid character: found `" ++ String.singleton c ++ "` at " ++ Text.natural place
  | .length found =>
    "invalid length: expected length 32 for simple format, found " ++ Text.natural found
  | .groupCount found =>
    "invalid group count: expected 5, found " ++ Text.natural found
  | .groupLength group expected found =>
    "invalid group length in group " ++ Text.natural group ++ ": expected "
      ++ Text.natural expected ++ ", found " ++ Text.natural found

end IdFault

namespace RunId

/-- The digits of each group. -/
def groupLengths : List Nat := [8, 4, 4, 4, 12]

def isDigit (c : Char) : Bool := (Text.hexDigit? c).isSome

/-- A list cut into pieces of the given lengths. -/
def pieces : List Nat → List Char → List (List Char)
  | [], _ => []
  | n :: ns, cs => cs.take n :: pieces ns (cs.drop n)

/-- The one form of an id. -/
def format (digits : List Char) : String :=
  String.ofList (Text.join ['-'] (pieces groupLengths (digits.map Char.toLower)))

/-- What an id in groups may stand in, with the length of what stands before it. -/
def unwrap (cs : List Char) : Option (Nat × List Char) :=
  match cs, Text.after? "urn:uuid:".toList cs with
  | _, some inner => some (9, inner)
  | '\x7b' :: rest, none => (Text.before? ['\x7d'] rest).map fun inner => (1, inner)
  | _, none => none

/-- The digits of an id in one of its forms. -/
def digits? (cs : List Char) : Option (List Char) :=
  if cs.length = 32 ∧ cs.all isDigit then some cs
  else
    let inner := match unwrap cs with
      | some (_, inner) => inner
      | none => cs
    let groups := Text.splitChars '-' inner
    if groups.map List.length = groupLengths ∧ groups.all fun group => group.all isDigit then
      some groups.flatten
    else none

/-- The first character that no id has. -/
def stranger? : (place : Nat) → List Char → Option IdFault
  | _, [] => none
  | place, c :: cs =>
    if c = '-' ∨ isDigit c then stranger? (place + c.utf8Size) cs else some (.character c place)

/-- The first group of a wrong length; `rest` is reported as the length of a last one. -/
def misfit (rest : Nat) : (group : Nat) → List Nat → List Nat → IdFault
  | group, [n], _ => .groupLength group n rest
  | group, n :: ns, found :: more =>
    if found = n then misfit rest (group + 1) ns more else .groupLength group n found
  | group, _, _ => .groupCount group

/-- What is wrong with a text that is no id. -/
def fault (cs : List Char) : IdFault :=
  let (offset, inner) := match unwrap cs with
    | some wrapped => wrapped
    | none => (0, cs)
  match stranger? offset inner with
  | some fault => fault
  | none =>
    let groups := Text.splitChars '-' inner
    if groups.length = 1 ∧ (unwrap cs).isNone then .length cs.length
    else if groups.length ≠ 5 then .groupCount groups.length
    else misfit (cs.length - 24) 0 groupLengths (groups.map List.length)

/-- The id that a text states, in its one form. -/
def read (text : String) : Except IdFault String := match digits? text.toList with
  | some digits => .ok (format digits)
  | none => .error (fault text.toList)

/-- The id that a number below `16 ^ 32` stands for, but for the two digits that say how ids of
random numbers are made. -/
def ofNumber (n : Nat) : String :=
  let limit := Nat.pow 16 32
  let digits := (Text.hexadecimal (limit + n % limit)).toList.drop 1
  format ((digits.set 12 '4').set 16 '8')

/-- The first eight digits, which are enough for people. -/
def short (id : String) : String := String.ofList (id.toList.take 8)

end RunId

namespace Decode

/-- The id of a run. -/
def runId : Value → Except DecodeFault String
  | .string s => (RunId.read s).mapError fun fault =>
    .malformed ("UUID parsing failed: " ++ fault.message)
  | value => .error (unexpected value "a UUID string")

end Decode

end Newsreel
