import Newsreel.Value

/-!
Values written as JSON, without blanks or indented by two spaces, and the text that stands for a
value inside a longer text.
-/

namespace Newsreel.Json

/-- A character inside a quoted string. Control characters have a short escape or four hexadecimal
digits; all others but the quote and the backslash stand for themselves. -/
def escapeChar (c : Char) : String :=
  match c with
  | '"' => "\\\""
  | '\\' => "\\\\"
  | '\x08' => "\\b"
  | '\x0c' => "\\f"
  | '\n' => "\\n"
  | '\r' => "\\r"
  | '\t' => "\\t"
  | c =>
    if c.toNat < 0x20 then
      let digits := Text.hexadecimal c.toNat
      "\\u" ++ String.ofList (List.replicate (4 - digits.length) '0') ++ digits
    else String.singleton c

def quoted (s : String) : String :=
  "\"" ++ String.join (s.toList.map escapeChar) ++ "\""

mutual
/-- The value without any blank. -/
def compact : Value → String
  | .null => "null"
  | .bool b => if b then "true" else "false"
  | .number n => n.text
  | .string s => quoted s
  | .array items => "[" ++ compactItems items ++ "]"
  | .object fields => "\x7b" ++ compactFields fields ++ "\x7d"

def compactItems : List Value → String
  | [] => ""
  | [item] => compact item
  | item :: items => compact item ++ "," ++ compactItems items

def compactFields : List (String × Value) → String
  | [] => ""
  | [(name, value)] => quoted name ++ ":" ++ compact value
  | (name, value) :: fields => quoted name ++ ":" ++ compact value ++ "," ++ compactFields fields
end

/-- A new line at a depth of nesting, two spaces for each level. -/
def newLine (depth : Nat) : String := "\n" ++ String.ofList (List.replicate (2 * depth) ' ')

mutual
/-- The value with each item and field on a line of its own; empty ones stay closed up. -/
def pretty (depth : Nat) : Value → String
  | .null => "null"
  | .bool b => if b then "true" else "false"
  | .number n => n.text
  | .string s => quoted s
  | .array [] => "[]"
  | .array (item :: items) =>
    "[" ++ newLine (depth + 1) ++ pretty (depth + 1) item ++ prettyItems (depth + 1) items
      ++ newLine depth ++ "]"
  | .object [] => "\x7b\x7d"
  | .object ((name, value) :: fields) =>
    "\x7b" ++ newLine (depth + 1) ++ quoted name ++ ": " ++ pretty (depth + 1) value
      ++ prettyFields (depth + 1) fields ++ newLine depth ++ "\x7d"

def prettyItems (depth : Nat) : List Value → String
  | [] => ""
  | item :: items => "," ++ newLine depth ++ pretty depth item ++ prettyItems depth items

def prettyFields (depth : Nat) : List (String × Value) → String
  | [] => ""
  | (name, value) :: fields =>
    "," ++ newLine depth ++ quoted name ++ ": " ++ pretty depth value ++ prettyFields depth fields
end

end Newsreel.Json

namespace Newsreel.Value

/-- The value as a part of a text: a string as it is, nothing for null, all others as JSON. -/
def text : Value → String
  | .string s => s
  | .null => ""
  | value => Json.compact value

/-- What counts as true where a condition is asked for. -/
def isTruthy : Value → Bool
  | .null => false
  | .bool b => b
  | .number n => n.toFloat != 0.0
  | .string s => s != "" && s != "false"
  | .array items => !items.isEmpty
  | .object fields => !fields.isEmpty

end Newsreel.Value
