import Newsreel.Text.Digits

/-!
A text quoted for a complaint: quotes, backslashes and everything without a visible form of its own
are escaped, so that the reader sees where the text begins and ends.
-/

namespace Newsreel.Text

/-- Ranges of code points that a quoted text does not show as they are: controls, format characters,
separators, marks that would join the character before them, surrogates, private use. -/
def hiddenRanges : List (Nat × Nat) :=
  [(0x0, 0x1F), (0x7F, 0xA0), (0xAD, 0xAD), (0x300, 0x36F), (0x483, 0x489), (0x591, 0x5BD),
    (0x600, 0x605), (0x610, 0x61A), (0x61C, 0x61C), (0x64B, 0x65F), (0x6DD, 0x6DD),
    (0x180E, 0x180E), (0x1AB0, 0x1AFF), (0x1DC0, 0x1DFF), (0x1680, 0x1680), (0x2000, 0x200F),
    (0x2028, 0x202F), (0x205F, 0x2064), (0x2066, 0x206F), (0x20D0, 0x20F0), (0x3000, 0x3000),
    (0x302A, 0x302F), (0x3099, 0x309A), (0xD800, 0xF8FF), (0xFE00, 0xFE0F), (0xFE20, 0xFE2F),
    (0xFEFF, 0xFEFF), (0xFFF0, 0xFFFB), (0xFFFE, 0xFFFF), (0x1BCA0, 0x1BCA3),
    (0x1D165, 0x1D169), (0x1D173, 0x1D182), (0xE0000, 0x10FFFF)]

/-- Shown only as an escape. -/
def isHidden (c : Char) : Bool :=
  hiddenRanges.any fun (first, last) => first ≤ c.toNat && c.toNat ≤ last

/-- A character inside a quoted text. -/
def debugChar (c : Char) : String :=
  match c with
  | '"' => "\\\""
  | '\\' => "\\\\"
  | '\n' => "\\n"
  | '\r' => "\\r"
  | '\t' => "\\t"
  | '\x00' => "\\0"
  | c => if isHidden c then "\\u\x7b" ++ hexadecimal c.toNat ++ "\x7d" else String.singleton c

/-- The text between quotes. -/
def debug (s : String) : String := "\"" ++ String.join (s.toList.map debugChar) ++ "\""

end Newsreel.Text
