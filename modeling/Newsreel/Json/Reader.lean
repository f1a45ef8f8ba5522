import Newsreel.Json.Fault
import Newsreel.Value

/-!
JSON read into a value, or the reason why not with its line and column.

A number without point and exponent that fits a 64-bit word stays a whole number. Any other one is
its digits, as many as fit a word, converted once and scaled once by a power of ten in binary
arithmetic; so its last bit may differ from the nearest number's. Of two fields with one name the
last value counts, in the place of the first.
-/

namespace Newsreel.Json

/-- What is left of the text and where it begins; columns count bytes. -/
structure Cursor where
  rest : List Char
  line : Nat
  column : Nat

namespace Cursor

def start (s : String) : Cursor := ⟨s.toList, 1, 0⟩

/-- The cursor behind the next character. -/
def advance (here : Cursor) : Cursor := match here.rest with
  | [] => here
  | '\n' :: rest => ⟨rest, here.line + 1, 0⟩
  | c :: rest => ⟨rest, here.line, here.column + c.utf8Size⟩

/-- A fault at the cursor. -/
def fault (here : Cursor) (reason : Reason) : Fault := ⟨reason, here.line, here.column⟩

/-- A fault of the byte that comes next, or at the end where none comes. -/
def faultNext (here : Cursor) (reason : Reason) : Fault := match here.rest with
  | [] => ⟨reason, here.line, here.column⟩
  | '\n' :: _ => ⟨reason, here.line + 1, 0⟩
  | _ => ⟨reason, here.line, here.column + 1⟩

/-- Steps over what remains, keeping count of lines and columns. -/
def skipBlanksFrom (line column : Nat) : List Char → Cursor
  | ' ' :: rest => skipBlanksFrom line (column + 1) rest
  | '\t' :: rest => skipBlanksFrom line (column + 1) rest
  | '\r' :: rest => skipBlanksFrom line (column + 1) rest
  | '\n' :: rest => skipBlanksFrom (line + 1) 0 rest
  | rest => ⟨rest, line, column⟩

def skipBlanks (here : Cursor) : Cursor := skipBlanksFrom here.line here.column here.rest

/-- Steps over a number of bytes, within a character if need be. -/
def skipBytesFrom (line column : Nat) : Nat → List Char → Cursor
  | _, [] => ⟨[], line, column⟩
  | n, c :: rest =>
    if n = 0 then ⟨c :: rest, line, column⟩
    else if c = '\n' then skipBytesFrom (line + 1) 0 (n - 1) rest
    else if c.utf8Size ≤ n then skipBytesFrom line (column + c.utf8Size) (n - c.utf8Size) rest
    else ⟨c :: rest, line, column + n⟩

def skipBytes (n : Nat) (here : Cursor) : Cursor :=
  skipBytesFrom here.line here.column n here.rest

end Cursor

/-! ## Numbers -/

/-- Digits added to a significand as long as it fits 64 bits, and how many were taken. -/
def absorb (significand : Nat) (taken : Nat) (here : Cursor) : List Char → Nat × Nat × Cursor
  | [] => (significand, taken, here)
  | c :: rest => match Text.digit? c with
    | some d =>
      if 10 * significand + d < Text.countLimit then
        absorb (10 * significand + d) (taken + 1) here.advance rest
      else (significand, taken, here)
    | none => (significand, taken, here)

/-- Digits passed over, and how many they were. -/
def passDigits (passed : Nat) (here : Cursor) : List Char → Nat × Cursor
  | [] => (passed, here)
  | c :: rest =>
    if Text.isDigit c then passDigits (passed + 1) here.advance rest else (passed, here)

/-- The power of ten nearest to `10 ^ exponent`. -/
def powerOfTen (exponent : Nat) : Float := Float.ofScientific 1 false exponent

/-- A number scaled by a power of ten, none if it leaves the range. Powers beyond the range of the
format are applied in steps. -/
def scale (x : Float) (exponent : Int) : (steps : Nat) → Option Float
  | 0 => some x
  | steps + 1 =>
    if 0 ≤ exponent then
      if 308 < exponent then if x == 0.0 then some x else none
      else
        let scaled := x * powerOfTen exponent.toNat
        if Decimal.isFinite scaled then some scaled else none
    else if -308 ≤ exponent then some (x / powerOfTen (-exponent).toNat)
    else if x == 0.0 then some x
    else scale (x / powerOfTen 308) (exponent + 308) steps

/-- The number with the given significand and power of ten. Three steps bring any significand of a
word to zero. -/
def scaled (negative : Bool) (significand : Nat) (exponent : Int) (here : Cursor) :
    Except Fault (Number × Cursor) :=
  match scale (Float.ofNat significand) exponent 4 with
  | some x => .ok (.float (if negative then -x else x), here)
  | none => .error (here.fault .outOfRange)

/-- One more than the greatest exponent that is looked at. -/
def exponentLimit : Nat := 2147483648

/-- The exponent behind an `e`, added to the power of ten so far. -/
def readExponent (negative : Bool) (significand : Nat) (power : Int) (here : Cursor) :
    Except Fault (Number × Cursor) :=
  let (down, here) := match here.rest with
    | '+' :: _ => (false, here.advance)
    | '-' :: _ => (true, here.advance)
    | _ => (false, here)
  match here.rest with
  | [] => .error (here.fault .endInValue)
  | c :: _ =>
    if !Text.isDigit c then .error (here.advance.fault .badNumber)
    else
      let (_, behind) := passDigits 0 here here.rest
      let digits := here.rest.take (here.rest.length - behind.rest.length)
      let exponent := (Text.digits? digits).getD 0
      if exponentLimit ≤ exponent then
        if significand ≠ 0 ∧ !down then .error (here.fault .outOfRange)
        else .ok (.float (if negative then -0.0 else 0.0), behind)
      else scaled negative significand (if down then power - exponent else power + exponent) behind

/-- What follows the digits before the point, `power` of which were passed over. -/
def readFraction (negative : Bool) (significand : Nat) (power : Nat) (here : Cursor) :
    Except Fault (Number × Cursor) :=
  match here.rest with
  | '.' :: _ =>
    let first := here.advance
    let (significand, taken, here) := absorb significand 0 first first.rest
    let (passed, behind) := passDigits 0 here here.rest
    if taken + passed = 0 then
      .error (here.faultNext (if here.rest.isEmpty then .endInValue else .badNumber))
    else
      let power := (power : Int) - taken
      match behind.rest with
      | 'e' :: _ => readExponent negative significand power behind.advance
      | 'E' :: _ => readExponent negative significand power behind.advance
      | _ => scaled negative significand power behind
  | 'e' :: _ => readExponent negative significand power here.advance
  | 'E' :: _ => readExponent negative significand power here.advance
  | _ => scaled negative significand power here

/-- A whole number, or a float where a point, an exponent or the size asks for one. -/
def readAfterDigits (negative : Bool) (significand : Nat) (here : Cursor) :
    Except Fault (Number × Cursor) :=
  match here.rest with
  | '.' :: _ => readFraction negative significand 0 here
  | 'e' :: _ => readFraction negative significand 0 here
  | 'E' :: _ => readFraction negative significand 0 here
  | _ =>
    if !negative then .ok (.int significand, here)
    else if significand = 0 ∨ Text.integerLimit < significand then
      .ok (.float (-(Float.ofNat significand)), here)
    else .ok (.int (-(significand : Int)), here)

/-- A number behind its sign. -/
def readNumber (negative : Bool) (here : Cursor) : Except Fault (Number × Cursor) :=
  match here.rest with
  | [] => .error (here.fault .endInValue)
  | c :: _ => match Text.digit? c with
    | none => .error (here.advance.fault .badNumber)
    | some 0 => match here.advance.rest with
      | d :: _ =>
        if Text.isDigit d then .error (here.advance.faultNext .badNumber)
        else readAfterDigits negative 0 here.advance
      | [] => readAfterDigits negative 0 here.advance
    | some _ =>
      let (significand, _, here) := absorb 0 0 here here.rest
      let (passed, behind) := passDigits 0 here here.rest
      if passed = 0 then readAfterDigits negative significand here
      else readFraction negative significand passed behind

/-! ## Strings -/

/-- Four hexadecimal digits. -/
def readHex (here : Cursor) : Except Fault (Nat × Cursor) :=
  match here.rest with
  | a :: b :: c :: d :: _ =>
    match Text.hexDigit? a, Text.hexDigit? b, Text.hexDigit? c, Text.hexDigit? d with
    | some a, some b, some c, some d =>
      .ok (((a * 16 + b) * 16 + c) * 16 + d, Cursor.skipBytes 4 here)
    | _, _, _, _ => .error ((Cursor.skipBytes 4 here).fault .badEscape)
  | rest =>
    if (String.ofList rest).utf8ByteSize < 4 then
      .error ((Cursor.skipBytes 4 here).fault .endInString)
    else .error ((Cursor.skipBytes 4 here).fault .badEscape)

/-- The next character has to be the given one, in the middle of a pair of escapes. -/
def expectInPair (wanted : Char) (here : Cursor) : Except Fault Cursor :=
  match here.rest with
  | [] => .error (here.fault .endInString)
  | c :: _ =>
    if c = wanted then .ok here.advance
    else .error ((Cursor.skipBytes 1 here).fault .cutEscape)

/-- The character of an escape by code unit; two halves of a pair make one character. -/
def readCodeUnit (here : Cursor) : Except Fault (Char × Cursor) := do
  let (unit, here) ← readHex here
  if 0xDC00 ≤ unit ∧ unit ≤ 0xDFFF then .error (here.fault .loneSurrogate)
  else if unit < 0xD800 ∨ 0xDBFF < unit then .ok (Char.ofNat unit, here)
  else
    let here ← expectInPair '\\' here
    let here ← expectInPair 'u' here
    let (low, here) ← readHex here
    if low < 0xDC00 ∨ 0xDFFF < low then .error (here.fault .loneSurrogate)
    else .ok (Char.ofNat ((unit - 0xD800) * 0x400 + (low - 0xDC00) + 0x10000), here)

/-- The character behind a backslash. -/
def readEscape (here : Cursor) : Except Fault (Char × Cursor) :=
  match here.rest with
  | [] => .error (here.fault .endInString)
  | c :: _ =>
    let behind := here.advance
    match c with
    | '"' => .ok ('"', behind)
    | '\\' => .ok ('\\', behind)
    | '/' => .ok ('/', behind)
    | 'b' => .ok ('\x08', behind)
    | 'f' => .ok ('\x0c', behind)
    | 'n' => .ok ('\n', behind)
    | 'r' => .ok ('\r', behind)
    | 't' => .ok ('\t', behind)
    | 'u' => readCodeUnit behind
    | _ => .error ((Cursor.skipBytes 1 here).fault .badEscape)

/-- The characters of a string up to its closing quote; `read` holds them backwards. -/
def readChars : (fuel : Nat) → (read : List Char) → Cursor → Except Fault (String × Cursor)
  | 0, _, here => .error (here.fault .endInString)
  | fuel + 1, read, here => match here.rest with
    | [] => .error (here.fault .endInString)
    | '"' :: _ => .ok (String.ofList read.reverse, here.advance)
    | '\\' :: _ => do
      let (c, behind) ← readEscape here.advance
      readChars fuel (c :: read) behind
    | c :: _ =>
      if c.toNat < 0x20 then .error (here.advance.fault .controlCharacter)
      else readChars fuel (c :: read) here.advance

/-- A string behind its opening quote. -/
def readString (here : Cursor) : Except Fault (String × Cursor) :=
  readChars (here.rest.length + 1) [] here

/-! ## Values -/

/-- The rest of a word whose first letter has been read. -/
def readWord (word : List Char) (value : Value) (here : Cursor) : Except Fault (Value × Cursor) :=
  match word with
  | [] => .ok (value, here)
  | w :: word => match here.rest with
    | [] => .error (here.fault .endInValue)
    | c :: _ =>
      if c = w then readWord word value here.advance
      else .error ((Cursor.skipBytes 1 here).fault .noWord)

mutual
/-- A value; `depth` more levels of nesting are allowed. -/
def readValue : (fuel depth : Nat) → Cursor → Except Fault (Value × Cursor)
  | 0, _, here => .error (here.fault .tooDeep)
  | fuel + 1, depth, here =>
    let here := here.skipBlanks
    match here.rest with
    | [] => .error (here.faultNext .endInValue)
    | 'n' :: _ => readWord ['u', 'l', 'l'] .null here.advance
    | 't' :: _ => readWord ['r', 'u', 'e'] (.bool true) here.advance
    | 'f' :: _ => readWord ['a', 'l', 's', 'e'] (.bool false) here.advance
    | '-' :: _ => (readNumber true here.advance).map fun (n, here) => (.number n, here)
    | '"' :: _ => (readString here.advance).map fun (s, here) => (.string s, here)
    | '[' :: _ =>
      if depth ≤ 1 then .error (here.faultNext .tooDeep)
      else do
        let here := here.advance.skipBlanks
        match here.rest with
        | [] => .error (here.faultNext .endInArray)
        | ']' :: _ => .ok (.array [], here.advance)
        | _ =>
          let (items, here) ← readItems fuel (depth - 1) [] here
          .ok (.array items, here)
    | '\x7b' :: _ =>
      if depth ≤ 1 then .error (here.faultNext .tooDeep)
      else do
        let here := here.advance.skipBlanks
        match here.rest with
        | [] => .error (here.faultNext .endInObject)
        | '\x7d' :: _ => .ok (.object [], here.advance)
        | '"' :: _ =>
          let (fields, here) ← readFields fuel (depth - 1) [] here
          .ok (.object fields, here)
        | _ => .error (here.faultNext .keyNotString)
    | c :: _ =>
      if Text.isDigit c then (readNumber false here).map fun (n, here) => (.number n, here)
      else .error (here.faultNext .noValue)

/-- The items of an array up to its end; `read` holds the items before, backwards. -/
def readItems : (fuel depth : Nat) → (read : List Value) → Cursor →
    Except Fault (List Value × Cursor)
  | 0, _, _, here => .error (here.fault .tooDeep)
  | fuel + 1, depth, read, here => do
    let (item, here) ← readValue fuel depth here
    let here := here.skipBlanks
    match here.rest with
    | [] => .error (here.faultNext .endInArray)
    | ']' :: _ => .ok ((item :: read).reverse, here.advance)
    | ',' :: _ =>
      let here := here.advance.skipBlanks
      match here.rest with
      | [] => .error (here.faultNext .endInValue)
      | ']' :: _ => .error (here.faultNext .trailingComma)
      | _ => readItems fuel depth (item :: read) here
    | _ => .error (here.faultNext .noArraySeparator)

/-- The fields of an object from the quote of a name to its end. -/
def readFields : (fuel depth : Nat) → (read : Fields) → Cursor → Except Fault (Fields × Cursor)
  | 0, _, _, here => .error (here.fault .tooDeep)
  | fuel + 1, depth, read, here => do
    let (name, here) ← readString here.advance
    let here := here.skipBlanks
    match here.rest with
    | [] => .error (here.faultNext .endInObject)
    | ':' :: _ =>
      let (value, here) ← readValue fuel depth here.advance
      let read := Fields.insert name value read
      let here := here.skipBlanks
      match here.rest with
      | [] => .error (here.faultNext .endInObject)
      | '\x7d' :: _ => .ok (read, here.advance)
      | ',' :: _ =>
        let here := here.advance.skipBlanks
        match here.rest with
        | [] => .error (here.faultNext .endInValue)
        | '"' :: _ => readFields fuel depth read here
        | '\x7d' :: _ => .error (here.faultNext .trailingComma)
        | _ => .error (here.faultNext .keyNotString)
      | _ => .error (here.faultNext .noObjectSeparator)
    | _ => .error (here.faultNext .noColon)
end

/-- The levels of nesting below which a text is refused. -/
def depthLimit : Nat := 128

/-- The value of a text that holds one value and blanks. -/
def read (s : String) : Except Fault Value := do
  let here := Cursor.start s
  let (value, here) ← readValue (2 * here.rest.length + 2) depthLimit here
  let here := here.skipBlanks
  if here.rest.isEmpty then .ok value else .error (here.faultNext .trailingText)

end Newsreel.Json
