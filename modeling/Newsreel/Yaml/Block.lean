import Newsreel.Text.Digits
import Newsreel.Yaml.Glyph

/-!
Scalars of indented lines.

A literal scalar keeps its line breaks. In a folded one a single break between two lines becomes a
space unless one of the lines is indented further.
-/

namespace Newsreel.Yaml

/-- What becomes of the line breaks at the end of a scalar. -/
inductive Chomping where
  | strip
  /-- One of them stays. -/
  | clip
  | keep
  deriving DecidableEq, Repr

def chomping? : Char → Option Chomping
  | '-' => some .strip
  | '+' => some .keep
  | _ => none

/-- What stands behind the indicator of a scalar: its chomping and its indentation, if it is given,
in either order. -/
def readHeader (rest : Rest) : Except Fault (Chomping × Nat × Rest) :=
  match chomping? (rest.charAt 0), Text.digit? (rest.charAt 0) with
  | some chomping, _ => match Text.digit? (rest.charAt 1) with
    | some 0 => .error .strangeHeader
    | some indent => .ok (chomping, indent, rest.drop 2)
    | none => .ok (chomping, 0, rest.drop 1)
  | none, some 0 => .error .strangeHeader
  | none, some indent => match chomping? (rest.charAt 1) with
    | some chomping => .ok (chomping, indent, rest.drop 2)
    | none => .ok (.clip, indent, rest.drop 1)
  | none, none => .ok (.clip, 0, rest)

/-- Empty lines that have been passed over. -/
structure EmptyLines where
  /-- The rightmost column that was reached. -/
  deepest : Nat
  breaks : List Char
  rest : Rest

/-- Passes over empty lines and the indentation of the line behind them. An indentation of 0 stands
for one that is not known yet. -/
def readEmptyLines (indent : Nat) : EmptyLines → Rest → Except Fault EmptyLines
  | lines, [] => .ok { lines with rest := [] }
  | lines, glyph :: rest =>
    let indents := indent = 0 || decide (glyph.column < indent)
    if indents && glyph.char = ' ' then readEmptyLines indent lines rest
    else if indents && glyph.char = '\t' then .error .tab
    else
      let deepest := max lines.deepest glyph.column
      if isBreak glyph.char then
        readEmptyLines indent ⟨deepest, lines.breaks ++ [glyph.char], rest⟩ rest
      else .ok ⟨deepest, lines.breaks, glyph :: rest⟩

def emptyLines (indent : Nat) (rest : Rest) : Except Fault EmptyLines :=
  readEmptyLines indent ⟨0, [], rest⟩ rest

/-- A scalar of lines as far as it has been read. -/
structure BlockText where
  /-- The text, last character first. -/
  text : List Char := []
  /-- The break behind the last line. -/
  lastBreak : List Char := []
  /-- The breaks of the empty lines behind it. -/
  breaks : List Char := []
  /-- The last line begins with a blank. -/
  wasBlank : Bool := false

/-- What stands between the last line and a new one. -/
def BlockText.gap (isLiteral isBlank : Bool) (block : BlockText) : List Char :=
  if !isLiteral && block.lastBreak = ['\n'] && !block.wasBlank && !isBlank then
    if block.breaks.isEmpty then [' '] else block.breaks
  else block.lastBreak ++ block.breaks

/-- Reads lines at an indentation, at most so many of them. -/
def readLines (isLiteral : Bool) (indent : Nat) : (most : Nat) → BlockText → Rest →
    Except Fault (BlockText × Rest)
  | 0, block, rest => .ok (block, rest)
  | most + 1, block, rest =>
    if rest.head.column = indent ∧ !isEnd (rest.charAt 0) then do
      let startsBlank := isBlank (rest.charAt 0)
      let (line, behind) := rest.span fun c => !isBreakOrEnd c
      let (lastBreak, behind) := match behind with
        | glyph :: next => if isBreak glyph.char then ([glyph.char], next) else ([], behind)
        | [] => ([], [])
      let lines ← emptyLines indent behind
      readLines isLiteral indent most {
        text := line.reverse ++ (block.gap isLiteral startsBlank).reverse ++ block.text
        lastBreak
        breaks := lines.breaks
        wasBlank := startsBlank } lines.rest
    else .ok (block, rest)

/-- The text with what its chomping leaves of the breaks at its end. -/
def BlockText.chomp (chomping : Chomping) (block : BlockText) : String :=
  String.ofList (block.text.reverse ++ match chomping with
    | .strip => []
    | .clip => block.lastBreak
    | .keep => block.lastBreak ++ block.breaks)

/-- Reads a scalar of lines within a collection at the given column, -1 outside of all. -/
def readBlock (isLiteral : Bool) (outer : Int) (rest : Rest) : Except Fault (String × Rest) := do
  let (chomping, increment, rest) ← readHeader rest
  let rest ← rest.lineEnd .strangeHeader
  let stated := if increment = 0 then 0 else (max outer 0).toNat + increment
  let lines ← emptyLines stated rest
  let indent := if stated = 0 then max (max lines.deepest (outer + 1).toNat) 1 else stated
  let (block, rest) ← readLines isLiteral indent rest.length { breaks := lines.breaks } lines.rest
  return (block.chomp chomping, rest)

end Newsreel.Yaml
