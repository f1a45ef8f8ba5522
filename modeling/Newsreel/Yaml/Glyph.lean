import Newsreel.Yaml.Fault

/-!
The characters of a text with their places.

Line breaks of all kinds but the two separators become one, and a mark stands behind the last
character, so every place in the text has a glyph, its end too.
-/

namespace Newsreel.Yaml

structure Glyph where
  char : Char
  /-- The characters before it. -/
  index : Nat
  line : Nat
  column : Nat
  deriving DecidableEq, Repr

/-- A text from some place on. -/
abbrev Rest := List Glyph

/-- What stands behind the last character. No text holds it. -/
def endMark : Char := '\x00'

def isEnd (c : Char) : Bool := c = endMark
def isBlank (c : Char) : Bool := c = ' ' || c = '\t'
def isBreak (c : Char) : Bool := c = '\n' || c = '\u2028' || c = '\u2029'
def isBreakOrEnd (c : Char) : Bool := isBreak c || isEnd c

/-- What may stand behind a word. -/
def endsWord (c : Char) : Bool := isBlank c || isBreakOrEnd c

/-- The characters of names. -/
def isWordChar (c : Char) : Bool := c.isAlphanum || c = '_' || c = '-'

def isFlowMark (c : Char) : Bool := ",[]\x7b\x7d".toList.contains c

/-- The characters that a text may hold. -/
def isAllowed (c : Char) : Bool :=
  let n := c.toNat
  n = 9 || n = 10 || n = 13 || (0x20 ≤ n && n ≤ 0x7E) || n = 0x85 || (0xA0 ≤ n && n ≤ 0xFFFD)
    || 0x10000 ≤ n

namespace Rest

/-- The glyphs of a text that begins at the given place. -/
def glyphs (index line column : Nat) : List Char → Rest
  | [] => [⟨endMark, index, line, column⟩]
  | '\r' :: '\n' :: cs => ⟨'\n', index, line, column⟩ :: glyphs (index + 2) (line + 1) 0 cs
  | c :: cs =>
    let c := if c = '\r' || c = '\u0085' then '\n' else c
    ⟨c, index, line, column⟩ ::
      (if isBreak c then glyphs (index + 1) (line + 1) 0 cs
        else glyphs (index + 1) line (column + 1) cs)

/-- The glyphs of a text. A mark for the order of bytes at its beginning is passed over. -/
def ofText (text : String) : Except Fault Rest :=
  if text.toList.all isAllowed then
    .ok (match glyphs 0 0 0 text.toList with
      | first :: rest => if first.char = '\uFEFF' then rest else first :: rest
      | [] => [])
  else .error .control

/-- The character so many places further. -/
def charAt (rest : Rest) (n : Nat) : Char := match rest[n]? with
  | some glyph => glyph.char
  | none => endMark

/-- The line that would follow the last one, counted from 1. A break at the end begins it. -/
def lineBehind (rest : Rest) : Nat := match rest.getLast? with
  | some glyph => glyph.line + (if glyph.column = 0 then 1 else 2)
  | none => 1

/-- The first glyph, or the end. -/
def head : Rest → Glyph
  | glyph :: _ => glyph
  | [] => ⟨endMark, 0, 0, 0⟩

/-- The characters of a kind that come first, and what follows them. -/
def span (p : Char → Bool) : Rest → List Char × Rest
  | [] => ([], [])
  | glyph :: rest =>
    if p glyph.char then
      let (cs, behind) := span p rest
      (glyph.char :: cs, behind)
    else ([], glyph :: rest)

/-- What follows the characters of a kind that come first. -/
def skip (p : Char → Bool) (rest : Rest) : Rest := rest.dropWhile fun glyph => p glyph.char

/-- Three characters of a mark at the beginning of a line. -/
def isMark (c : Char) (rest : Rest) : Bool :=
  rest.head.column = 0 && rest.charAt 0 = c && rest.charAt 1 = c && rest.charAt 2 = c
    && endsWord (rest.charAt 3)

/-- A mark between documents. -/
def isDocumentMark (rest : Rest) : Bool := rest.isMark '-' || rest.isMark '.'

/-- Passes over blanks and a comment; the line has to end there. -/
def lineEnd (fault : Fault) (rest : Rest) : Except Fault Rest :=
  let rest := rest.skip isBlank
  let rest := if rest.charAt 0 = '#' then rest.skip fun c => !isBreakOrEnd c else rest
  if isBreak (rest.charAt 0) then .ok (rest.drop 1)
  else if isEnd (rest.charAt 0) then .ok rest
  else .error fault

end Rest

end Newsreel.Yaml
