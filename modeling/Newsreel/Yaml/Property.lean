import Newsreel.Text.Digits
import Newsreel.Yaml.Glyph

/-!
What may stand before a node or a document: anchors, tags and directives.
-/

namespace Newsreel.Yaml

/-- Characters of tags besides those of names. -/
def isUriMark (c : Char) : Bool := ";/?:@&=+$.%!~*'()".toList.contains c

/-- The name of an anchor or of an alias. -/
def readAnchor (rest : Rest) : Except Fault (String × Rest) :=
  let (name, behind) := rest.span isWordChar
  let next := behind.charAt 0
  if !name.isEmpty && (endsWord next || "?:,]\x7d%@`".toList.contains next) then
    .ok (String.ofList name, behind)
  else .error .strangeAnchor

/-- The octets of an escaped character beyond its first one. -/
def furtherOctets? (octet : Nat) : Option Nat :=
  if octet < 0x80 then some 0
  else if 0xC0 ≤ octet ∧ octet < 0xE0 then some 1
  else if 0xE0 ≤ octet ∧ octet < 0xF0 then some 2
  else if 0xF0 ≤ octet ∧ octet < 0xF8 then some 3
  else none

/-- The bits of the first octet that count. -/
def leadBits (octet further : Nat) : Nat :=
  if further = 0 then octet else octet % Nat.pow 2 (6 - further)

/-- Reads the characters of a tag. Of an escaped one `octets` octets are still to come, and `code`
is what they have given so far. -/
def readUri (verbatim : Bool) : (octets code : Nat) → Rest → Except Fault (List Char × Rest)
  | 0, _, glyph :: rest =>
    if glyph.char = '%' then
      match rest with
      | high :: low :: behind =>
        match Text.hexDigit? high.char, Text.hexDigit? low.char with
        | some h, some l => match furtherOctets? (16 * h + l) with
          | some 0 => do
            let (cs, rest) ← readUri verbatim 0 0 behind
            return (Char.ofNat (16 * h + l) :: cs, rest)
          | some further => readUri verbatim further (leadBits (16 * h + l) further) behind
          | none => .error .strangeTag
        | _, _ => .error .strangeTag
      | _ => .error .strangeTag
    else if isWordChar glyph.char || isUriMark glyph.char
        || (verbatim && ",[]".toList.contains glyph.char) then do
      let (cs, rest) ← readUri verbatim 0 0 rest
      return (glyph.char :: cs, rest)
    else .ok ([], glyph :: rest)
  | octets + 1, code, percent :: high :: low :: rest =>
    match Text.hexDigit? high.char, Text.hexDigit? low.char with
    | some h, some l =>
      if percent.char = '%' ∧ 8 ≤ h ∧ h < 12 then
        let code := 64 * code + (16 * h + l) % 64
        if octets = 0 then do
          let (cs, rest) ← readUri verbatim 0 0 rest
          return (Char.ofNat code :: cs, rest)
        else readUri verbatim octets code rest
      else .error .strangeTag
    | _, _ => .error .strangeTag
  | 0, _, [] => .ok ([], [])
  | _ + 1, _, _ => .error .strangeTag

/-- A word between exclamation marks; the second one may be missing. -/
def readHandle (rest : Rest) : Except Fault (List Char × Rest) :=
  if rest.charAt 0 = '!' then
    let (word, behind) := Rest.span isWordChar (rest.drop 1)
    if behind.charAt 0 = '!' then .ok ('!' :: word ++ ['!'], behind.drop 1)
    else .ok ('!' :: word, behind)
  else .error .strangeTag

/-- A tag in two parts: the handle that a directive explains, and what follows it. -/
structure TagText where
  handle : String
  suffix : String
  deriving DecidableEq, Repr

/-- A tag between angle brackets, which is taken as it is. -/
def readVerbatimTag (rest : Rest) : Except Fault (TagText × Rest) := do
  let (uri, rest) ← readUri true 0 0 rest
  if uri.isEmpty || rest.charAt 0 ≠ '>' then .error .strangeTag
  else return (⟨"", String.ofList uri⟩, rest.drop 1)

/-- A tag with a handle or with an exclamation mark alone. -/
def readShortTag (rest : Rest) : Except Fault (TagText × Rest) := do
  let (handle, rest) ← readHandle rest
  let (uri, rest) ← readUri false 0 0 rest
  if 2 ≤ handle.length && handle.getLast? = some '!' then
    if uri.isEmpty then .error .strangeTag
    else return (⟨String.ofList handle, String.ofList uri⟩, rest)
  else
    let suffix := handle.drop 1 ++ uri
    return (if suffix.isEmpty then ⟨"", "!"⟩ else ⟨"!", String.ofList suffix⟩, rest)

/-- A tag, which begins the rest. -/
def readTag (inFlow : Bool) (rest : Rest) : Except Fault (TagText × Rest) := do
  let (tag, rest) ← if rest.charAt 1 = '<' then readVerbatimTag (rest.drop 2)
    else readShortTag rest
  if endsWord (rest.charAt 0) || (inFlow && rest.charAt 0 = ',') then return (tag, rest)
  else .error .strangeTag

/-- What a document is told before it begins. -/
inductive Directive where
  | version (major minor : Nat)
  /-- What a handle stands for. -/
  | handle (handle meaning : String)
  deriving DecidableEq, Repr

/-- A number of at most nine digits. -/
def readNumber (rest : Rest) : Except Fault (Nat × Rest) :=
  let (digits, behind) := rest.span Char.isDigit
  match Text.digits? digits with
  | some n => if digits.length ≤ 9 then .ok (n, behind) else .error .strangeDirective
  | none => .error .strangeDirective

/-- A directive, from behind its percent sign to the end of its line. -/
def readDirective (rest : Rest) : Except Fault (Directive × Rest) := do
  let (name, rest) := rest.span isWordChar
  if name.isEmpty || !endsWord (rest.charAt 0) then .error .strangeDirective
  else
    let rest := rest.skip isBlank
    let (directive, rest) ← (
      if name = "YAML".toList then do
        let (major, rest) ← readNumber rest
        if rest.charAt 0 ≠ '.' then .error .strangeDirective
        else
          let (minor, rest) ← readNumber (rest.drop 1)
          return (Directive.version major minor, rest)
      else if name = "TAG".toList then do
        let (handle, rest) ← readHandle rest
        if (2 ≤ handle.length && handle.getLast? ≠ some '!') || !isBlank (rest.charAt 0) then
          .error .strangeDirective
        else
          let (uri, rest) ← readUri true 0 0 (rest.skip isBlank)
          if uri.isEmpty || !endsWord (rest.charAt 0) then .error .strangeDirective
          else return (Directive.handle (String.ofList handle) (String.ofList uri), rest)
      else .error .strangeDirective)
    return (directive, ← rest.lineEnd .strangeHeader)

end Newsreel.Yaml
