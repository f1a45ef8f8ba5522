import Newsreel.Text.Digits

/-!
Why a text is no JSON, and where the reader stood.
-/

namespace Newsreel.Json

inductive Reason where
  | endInArray
  | endInObject
  | endInString
  | endInValue
  | noColon
  | noArraySeparator
  | noObjectSeparator
  | noWord
  | noValue
  | badEscape
  | badNumber
  | outOfRange
  | badCodePoint
  | controlCharacter
  | keyNotString
  | loneSurrogate
  | trailingComma
  | trailingText
  | cutEscape
  | tooDeep
  deriving DecidableEq, Repr

def Reason.message : Reason → String
  | .endInArray => "EOF while parsing a list"
  | .endInObject => "EOF while parsing an object"
  | .endInString => "EOF while parsing a string"
  | .endInValue => "EOF while parsing a value"
  | .noColon => "expected `:`"
  | .noArraySeparator => "expected `,` or `]`"
  | .noObjectSeparator => "expected `,` or `\x7d`"
  | .noWord => "expected ident"
  | .noValue => "expected value"
  | .badEscape => "invalid escape"
  | .badNumber => "invalid number"
  | .outOfRange => "number out of range"
  | .badCodePoint => "invalid unicode code point"
  | .controlCharacter => "control character (\\u0000-\\u001F) found while parsing a string"
  | .keyNotString => "key must be a string"
  | .loneSurrogate => "lone leading surrogate in hex escape"
  | .trailingComma => "trailing comma"
  | .trailingText => "trailing characters"
  | .cutEscape => "unexpected end of hex escape"
  | .tooDeep => "recursion limit exceeded"

structure Fault where
  reason : Reason
  line : Nat
  column : Nat
  deriving DecidableEq, Repr

def Fault.message (f : Fault) : String :=
  f.reason.message ++ " at line " ++ Text.natural f.line ++ " column " ++ Text.natural f.column

end Newsreel.Json
