import Newsreel.Text.Digits
import Newsreel.Yaml.Glyph

/-!
Scalars that run on from line to line: plain ones and those in quotes.

Blanks between two words stay as they are unless a line ends there. A single line break becomes a
space; of several all but the first stay.
-/

namespace Newsreel.Yaml

/-- Blanks and line breaks between two words of a scalar. -/
structure Gap where
  blanks : List Char := []
  /-- A line has ended. -/
  isBroken : Bool := false
  /-- The first line break, unless it was escaped. -/
  first : List Char := []
  /-- The line breaks behind the first one. -/
  more : List Char := []

namespace Gap

/-- A line break that leaves nothing behind. -/
def escaped : Gap := { isBroken := true }

def isEmpty (gap : Gap) : Bool := gap.blanks.isEmpty && !gap.isBroken

def addBlank (gap : Gap) (c : Char) : Gap :=
  if gap.isBroken then gap else { gap with blanks := gap.blanks ++ [c] }

def addBreak (gap : Gap) (c : Char) : Gap :=
  if gap.isBroken then { gap with more := gap.more ++ [c] }
  else { isBroken := true, first := [c] }

/-- What a gap leaves between the words. -/
def text (gap : Gap) : List Char :=
  if !gap.isBroken then gap.blanks
  else if gap.first = ['\n'] then (if gap.more.isEmpty then [' '] else gap.more)
  else gap.first ++ gap.more

/-- The text, last character first, with a gap behind it. -/
def close (gap : Gap) (text : List Char) : List Char := gap.text.reverse ++ text

end Gap

/-- A plain scalar that has been read. -/
structure PlainText where
  text : String
  /-- Lines have ended behind the last word. -/
  isBroken : Bool
  rest : Rest

/-- Whether a plain scalar does not go on with the next word, which begins the rest. -/
def stopsPlain (inFlow : Bool) (indent : Int) (rest : Rest) : Bool :=
  (!inFlow && rest.head.column < indent) || rest.isDocumentMark || rest.charAt 0 = '#'

/-- Whether a plain scalar ends before the first character of the rest. -/
def endsPlain (inFlow : Bool) (rest : Rest) : Bool :=
  isEnd (rest.charAt 0) || (rest.charAt 0 = ':' && endsWord (rest.charAt 1))
    || (inFlow && isFlowMark (rest.charAt 0))

/-- A colon that is neither part of a scalar nor behind a key. -/
def isStrangeColon (inFlow : Bool) (rest : Rest) : Bool :=
  inFlow && rest.charAt 0 = ':' && (isFlowMark (rest.charAt 1) || rest.charAt 1 = '?')

/-- Reads a plain scalar on; outside of brackets its lines stand at least at the given column. The
text so far is held backwards. -/
def readPlain (inFlow : Bool) (indent : Int) : (text : List Char) → Gap → Rest →
    Except Fault PlainText
  | text, gap, [] => .ok ⟨String.ofList text.reverse, gap.isBroken, []⟩
  | text, gap, glyph :: rest =>
    let ended : PlainText := ⟨String.ofList text.reverse, gap.isBroken, glyph :: rest⟩
    if isBlank glyph.char then
      if gap.isBroken ∧ glyph.column < indent ∧ glyph.char = '\t' then .error .tab
      else readPlain inFlow indent text (gap.addBlank glyph.char) rest
    else if isBreak glyph.char then readPlain inFlow indent text (gap.addBreak glyph.char) rest
    else if !gap.isEmpty && stopsPlain inFlow indent (glyph :: rest) then .ok ended
    else if isStrangeColon inFlow (glyph :: rest) then .error .strangeColon
    else if endsPlain inFlow (glyph :: rest) then .ok ended
    else readPlain inFlow indent (glyph.char :: gap.close text) {} rest

/-- Reads a scalar in single quotes on. A quote within is written twice. -/
def readSingle : (text : List Char) → Gap → Rest → Except Fault (String × Rest)
  | _, _, [] => .error .unclosedQuote
  | text, gap, glyph :: rest =>
    if isBlank glyph.char then readSingle text (gap.addBlank glyph.char) rest
    else if isBreak glyph.char then readSingle text (gap.addBreak glyph.char) rest
    else if isEnd glyph.char then .error .unclosedQuote
    else if Rest.isDocumentMark (glyph :: rest) then .error .quotedMark
    else if glyph.char = '\'' then
      match rest with
      | [] => .error .unclosedQuote
      | next :: behind =>
        if next.char = '\'' then readSingle ('\'' :: gap.close text) {} behind
        else .ok (String.ofList (gap.close text).reverse, next :: behind)
    else readSingle (glyph.char :: gap.close text) {} rest

/-- What a backslash and a character stand for, or how many digits of a code follow them. -/
def escape? : Char → Option (Char ⊕ Nat)
  | '0' => some (.inl '\x00')
  | 'a' => some (.inl '\x07')
  | 'b' => some (.inl '\x08')
  | 't' => some (.inl '\t')
  | '\t' => some (.inl '\t')
  | 'n' => some (.inl '\n')
  | 'v' => some (.inl '\x0b')
  | 'f' => some (.inl '\x0c')
  | 'r' => some (.inl '\r')
  | 'e' => some (.inl '\x1b')
  | ' ' => some (.inl ' ')
  | '"' => some (.inl '"')
  | '/' => some (.inl '/')
  | '\\' => some (.inl '\\')
  | 'N' => some (.inl '\u0085')
  | '_' => some (.inl '\u00a0')
  | 'L' => some (.inl '\u2028')
  | 'P' => some (.inl '\u2029')
  | 'x' => some (.inr 2)
  | 'u' => some (.inr 4)
  | 'U' => some (.inr 8)
  | _ => none

/-- The character of a code, if there is one. -/
def charOfCode? (code : Nat) : Option Char :=
  if code.isValidChar then some (Char.ofNat code) else none

/-- Reads a scalar in double quotes on. Of an escaped character `digits` digits of the code are
still to come and `code` is what they have given so far. -/
def readDouble : (text : List Char) → Gap → (digits code : Nat) → Rest →
    Except Fault (String × Rest)
  | _, _, _, _, [] => .error .unclosedQuote
  | text, gap, digits + 1, code, glyph :: rest => match Text.hexDigit? glyph.char with
    | none => .error .strangeEscape
    | some digit =>
      let code := 16 * code + digit
      if digits = 0 then match charOfCode? code with
        | some c => readDouble (c :: text) gap 0 0 rest
        | none => .error .strangeEscape
      else readDouble text gap digits code rest
  | text, gap, 0, _, glyph :: rest =>
    if isBlank glyph.char then readDouble text (gap.addBlank glyph.char) 0 0 rest
    else if isBreak glyph.char then readDouble text (gap.addBreak glyph.char) 0 0 rest
    else if isEnd glyph.char then .error .unclosedQuote
    else if Rest.isDocumentMark (glyph :: rest) then .error .quotedMark
    else
      let text := gap.close text
      if glyph.char = '"' then .ok (String.ofList text.reverse, rest)
      else if glyph.char = '\\' then
        match rest with
        | [] => .error .unclosedQuote
        | next :: behind =>
          if isBreak next.char then readDouble text Gap.escaped 0 0 behind
          else match escape? next.char with
            | none => .error .strangeEscape
            | some (.inl c) => readDouble (c :: text) {} 0 0 behind
            | some (.inr digits) => readDouble text {} digits 0 behind
      else readDouble (glyph.char :: text) {} 0 0 rest

end Newsreel.Yaml
