import Newsreel.Yaml.Block
import Newsreel.Yaml.Flow
import Newsreel.Yaml.Property

/-!
The tokens of a text.

Outside of brackets indentation opens and closes collections, and these have tokens of their own. A
key is known only by the colon behind it: what may be one is remembered with its place among the
tokens, and the colon puts the token for the key there. Such a key stands on one line and is at most
1024 characters long.
-/

namespace Newsreel.Yaml

inductive ScalarStyle where
  | plain
  | singleQuoted
  | doubleQuoted
  | literal
  | folded
  deriving DecidableEq, Repr

inductive Token where
  | directive (directive : Directive)
  | documentStart
  | documentEnd
  | blockSequenceStart
  | blockMappingStart
  | blockEnd
  | flowSequenceStart
  | flowSequenceEnd
  | flowMappingStart
  | flowMappingEnd
  | blockEntry
  | flowEntry
  | key
  | value
  | reference (name : String)
  | anchor (name : String)
  | tag (tag : TagText)
  | scalar (style : ScalarStyle) (text : String)
  deriving DecidableEq, Repr

/-- What may turn out to be a key. -/
structure KeyMark where
  /-- The place of its first token. -/
  place : Nat
  glyph : Glyph
  /-- Nothing but a key can stand here. -/
  isRequired : Bool

/-- The longest key on one line. -/
def longestKey : Nat := 1024

namespace KeyMark

/-- The reading has gone too far for a colon to follow the key. -/
def isStale (mark : KeyMark) (here : Glyph) : Bool :=
  mark.glyph.line < here.line || mark.glyph.index + longestKey < here.index

end KeyMark

/-- Tokens read so far. -/
structure Scan where
  tokens : Array Token := #[]
  /-- The column of the innermost collection without brackets, -1 outside of all. -/
  indent : Int := -1
  /-- The columns of those around it, from within. -/
  outer : List Int := []
  /-- What may be a key, in the innermost brackets first. -/
  keys : List (Option KeyMark) := [none]
  /-- A key may begin here. -/
  allowsKey : Bool := true

namespace Scan

def inFlow (scan : Scan) : Bool := 1 < scan.keys.length

def push (scan : Scan) (token : Token) : Scan := { scan with tokens := scan.tokens.push token }

/-- Forgets what may be a key in the innermost brackets. -/
def dropKey (scan : Scan) : Except Fault Scan := match scan.keys with
  | some mark :: keys =>
    if mark.isRequired then .error .missingColon else .ok { scan with keys := none :: keys }
  | _ => .ok scan

/-- Remembers that a key may begin here. -/
def saveKey (scan : Scan) (here : Glyph) : Except Fault Scan :=
  if !scan.allowsKey then .ok scan
  else do
    let scan ← scan.dropKey
    let mark : KeyMark := {
      place := scan.tokens.size
      glyph := here
      isRequired := !scan.inFlow && scan.indent = here.column }
    return { scan with keys := some mark :: scan.keys.drop 1 }

/-- What can still be a key at some place. -/
def freshKeys (here : Glyph) : List (Option KeyMark) → Except Fault (List (Option KeyMark))
  | [] => .ok []
  | key :: keys => do
    let keys ← freshKeys here keys
    match key with
    | none => return none :: keys
    | some mark =>
      if !mark.isStale here then return some mark :: keys
      else if mark.isRequired then .error .missingColon
      else return none :: keys

/-- Opens a collection at a column, if it stands further in than the innermost one. Its token comes
to the given place. -/
def rollIndent (scan : Scan) (column place : Nat) (token : Token) : Scan :=
  if !scan.inFlow ∧ scan.indent < column then
    { scan with
      indent := column
      outer := scan.indent :: scan.outer
      tokens := scan.tokens.insertIdxIfInBounds place token }
  else scan

/-- The columns that remain, and one token more for each collection that ends. -/
def closeTo (column : Int) : (indent : Int) → (outer : List Int) → Array Token →
    Int × List Int × Array Token
  | indent, [], tokens => (indent, [], tokens)
  | indent, next :: outer, tokens =>
    if column < indent then closeTo column next outer (tokens.push .blockEnd)
    else (indent, next :: outer, tokens)

/-- Closes the collections that stand further in than a column. -/
def unrollIndent (scan : Scan) (column : Int) : Scan :=
  if scan.inFlow then scan
  else
    let (indent, outer, tokens) := closeTo column scan.indent scan.outer scan.tokens
    { scan with indent, outer, tokens }

/-- Closes all collections before something that stands between documents. -/
def leaveDocument (scan : Scan) : Except Fault Scan := do
  let scan ← (scan.unrollIndent (-1)).dropKey
  return { scan with allowsKey := false }

/-- Passes over blanks, comments and line breaks. Tabs may not stand where a key may. -/
def toToken (inFlow : Bool) : (allowsKey inComment : Bool) → Rest → Bool × Rest
  | allowsKey, _, [] => (allowsKey, [])
  | allowsKey, inComment, glyph :: rest =>
    if inComment && !isBreakOrEnd glyph.char then toToken inFlow allowsKey true rest
    else if glyph.char = ' ' || (glyph.char = '\t' && (inFlow || !allowsKey)) then
      toToken inFlow allowsKey false rest
    else if glyph.char = '#' then toToken inFlow allowsKey true rest
    else if isBreak glyph.char then toToken inFlow (allowsKey || !inFlow) false rest
    else (allowsKey, glyph :: rest)

/-- An opening bracket. -/
def openFlow (scan : Scan) (here : Glyph) (token : Token) : Except Fault Scan := do
  let scan ← scan.saveKey here
  return { scan.push token with keys := none :: scan.keys, allowsKey := true }

/-- A closing bracket. -/
def closeFlow (scan : Scan) (token : Token) : Except Fault Scan := do
  let scan ← scan.dropKey
  return { scan.push token with
    keys := if scan.inFlow then scan.keys.drop 1 else scan.keys
    allowsKey := false }

/-- A sign before an entry or a key of its own line; it opens the collection that it stands in. -/
def lineSign (scan : Scan) (here : Glyph) (opening token : Token) (allowsKey : Bool) :
    Except Fault Scan :=
  if !scan.inFlow ∧ !scan.allowsKey then .error .misplaced
  else do
    let scan ← (scan.rollIndent here.column scan.tokens.size opening).dropKey
    return { scan.push token with allowsKey }

/-- A colon. What may be a key before it is one; otherwise the key has been marked as such. -/
def colon (scan : Scan) (here : Glyph) : Except Fault Scan := match scan.keys with
  | some mark :: keys =>
    let scan := { scan with
      tokens := scan.tokens.insertIdxIfInBounds mark.place .key
      keys := none :: keys
      allowsKey := false }
    .ok ((scan.rollIndent mark.glyph.column mark.place .blockMappingStart).push .value)
  | _ =>
    if !scan.inFlow ∧ !scan.allowsKey then .error .misplaced
    else
      let scan := scan.rollIndent here.column scan.tokens.size .blockMappingStart
      .ok { scan.push .value with allowsKey := !scan.inFlow }

/-- A token that a key may begin with. -/
def keyed (scan : Scan) (here : Glyph) (token : Token) : Except Fault Scan := do
  let scan ← scan.saveKey here
  return { scan.push token with allowsKey := false }

/-- A scalar of indented lines. -/
def block (scan : Scan) (isLiteral : Bool) (rest : Rest) : Except Fault (Scan × Rest) := do
  let scan ← scan.dropKey
  let (text, rest) ← readBlock isLiteral scan.indent rest
  let style := if isLiteral then ScalarStyle.literal else .folded
  return ({ scan.push (.scalar style text) with allowsKey := true }, rest)

/-- A plain scalar. -/
def plain (scan : Scan) (here : Glyph) (rest : Rest) : Except Fault (Scan × Rest) := do
  let scan ← scan.saveKey here
  let read ← readPlain scan.inFlow (scan.indent + 1) [] {} rest
  return ({ scan.push (.scalar .plain read.text) with allowsKey := read.isBroken }, read.rest)

/-- Whether a plain scalar may begin the rest. -/
def startsPlain (inFlow : Bool) (rest : Rest) : Bool :=
  let c := rest.charAt 0
  let next := rest.charAt 1
  (!endsWord c && !"-?:,[]\x7b\x7d#&*!|>'\"%@`".toList.contains c)
    || (c = '-' && !isBlank next)
    || (!inFlow && (c = '?' || c = ':') && !endsWord next)

/-- The next token, which begins the rest. -/
def next (scan : Scan) (rest : Rest) : Except Fault (Scan × Rest) :=
  let here := rest.head
  let behind := rest.drop 1
  let word := endsWord (rest.charAt 1)
  let one (scan : Except Fault Scan) : Except Fault (Scan × Rest) :=
    scan.map fun scan => (scan, behind)
  if here.column = 0 ∧ here.char = '%' then do
    let scan ← scan.leaveDocument
    let (directive, rest) ← readDirective behind
    return (scan.push (.directive directive), rest)
  else if rest.isMark '-' then do
    return ((← scan.leaveDocument).push .documentStart, rest.drop 3)
  else if rest.isMark '.' then do
    return ((← scan.leaveDocument).push .documentEnd, rest.drop 3)
  else match here.char with
    | '[' => one (scan.openFlow here .flowSequenceStart)
    | '\x7b' => one (scan.openFlow here .flowMappingStart)
    | ']' => one (scan.closeFlow .flowSequenceEnd)
    | '\x7d' => one (scan.closeFlow .flowMappingEnd)
    | ',' => one (do
        let scan ← scan.dropKey
        return { scan.push .flowEntry with allowsKey := true })
    | '*' => do
      let (name, rest) ← readAnchor behind
      return (← scan.keyed here (.reference name), rest)
    | '&' => do
      let (name, rest) ← readAnchor behind
      return (← scan.keyed here (.anchor name), rest)
    | '!' => do
      let (tag, rest) ← readTag scan.inFlow rest
      return (← scan.keyed here (.tag tag), rest)
    | '\'' => do
      let (text, rest) ← readSingle [] {} behind
      return (← scan.keyed here (.scalar .singleQuoted text), rest)
    | '"' => do
      let (text, rest) ← readDouble [] {} 0 0 behind
      return (← scan.keyed here (.scalar .doubleQuoted text), rest)
    | c =>
      if c = '-' ∧ word then one (scan.lineSign here .blockSequenceStart .blockEntry true)
      else if c = '?' ∧ (scan.inFlow ∨ word) then
        one (scan.lineSign here .blockMappingStart .key (!scan.inFlow))
      else if c = ':' ∧ (scan.inFlow ∨ word) then one (scan.colon here)
      else if c = '|' ∧ !scan.inFlow then scan.block true behind
      else if c = '>' ∧ !scan.inFlow then scan.block false behind
      else if startsPlain scan.inFlow rest then scan.plain here rest
      else .error .strangeStart

/-- All tokens from a place on, at most so many of them. -/
def run : (most : Nat) → Scan → Rest → Except Fault (List Token)
  | most, scan, rest => do
    let (allowsKey, rest) := toToken scan.inFlow scan.allowsKey false rest
    let scan := { scan with allowsKey, keys := ← freshKeys rest.head scan.keys }
    let scan := scan.unrollIndent rest.head.column
    if isEnd (rest.charAt 0) then
      return (← (scan.unrollIndent (-1)).dropKey).tokens.toList
    else match most with
      | 0 => return scan.tokens.toList
      | most + 1 => do
        let (scan, rest) ← scan.next rest
        run most scan rest

end Scan

/-- The tokens of a text. -/
def Token.ofGlyphs (rest : Rest) : Except Fault (List Token) := Scan.run rest.length {} rest

end Newsreel.Yaml
