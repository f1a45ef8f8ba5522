import Newsreel.Text.Digits
import Newsreel.Text.Search

/-!
Addresses to which a request can be sent: a scheme of the web, a host, perhaps the number of a
service on it.

An address is read as browsers do. White space around it and tabs and line breaks in it do not
count, slashes and backslashes are the same, any number of them may stand before the host, and what
stands before the last at sign of the authority names the user. Percent signs in a host are resolved
first. A host of digits is an address of the fourth version, one in brackets of the sixth.
Letters beyond ASCII are taken for parts of a name.
-/

namespace Newsreel.Web

/-- A host and the number of a service on it, which is at most 65535. -/
structure Address where
  host : List Char
  service : Option Nat

namespace Address

def isBlankOrControl (c : Char) : Bool := c.toNat ≤ 32

/-- The text as it is read: nothing blank around it, no tabs and no line breaks in it. -/
def normal (s : String) : List Char :=
  let trimmed := ((s.toList.dropWhile isBlankOrControl).reverse.dropWhile isBlankOrControl).reverse
  trimmed.filter fun c => c ≠ '\t' && c ≠ '\n' && c ≠ '\r'

def isSlash (c : Char) : Bool := c = '/' || c = '\\'

/-- What ends the authority. -/
def isEnd (c : Char) : Bool := isSlash c || c = '?' || c = '#'

/-- The rest behind a scheme of the web. -/
def afterScheme? (cs : List Char) : Option (List Char) :=
  match Text.splitAtChar? ':' cs with
  | some (scheme, rest) =>
    let name := String.ofList (scheme.map Char.toLower)
    if name = "http" ∨ name = "https" then some rest else none
  | none => none

/-- What stands behind the last at sign. -/
def afterUser (authority : List Char) : List Char :=
  (authority.reverse.takeWhile (· ≠ '@')).reverse

/-- Bytes of a host: percent signs with two hexadecimal digits resolved, all else in UTF-8. -/
def hostBytes : List Char → List UInt8
  | '%' :: a :: b :: rest => match Text.hexDigit? a, Text.hexDigit? b with
    | some x, some y => (16 * x + y).toUInt8 :: hostBytes rest
    | _, _ => '%'.toNat.toUInt8 :: hostBytes (a :: b :: rest)
  | c :: rest => (String.singleton c).toUTF8.toList ++ hostBytes rest
  | [] => []

/-- Signs that may stand in a name. -/
def isHostChar (c : Char) : Bool :=
  127 < c.toNat || c.isAlphanum || "!$&'()*+,;=-._~".toList.contains c

/-- A number of an address in four parts: decimal, octal after a zero, hexadecimal after `0x`. -/
def partNumber? (part : List Char) : Option Nat :=
  let ofDigits (base : Nat) (ds : List Char) : Option Nat :=
    ds.foldl (fun n c => match n, Text.hexDigit? c with
      | some n, some d => if d < base then some (n * base + d) else none
      | _, _ => none) (some 0)
  match part with
  | [] => none
  | '0' :: 'x' :: rest => ofDigits 16 rest
  | '0' :: 'X' :: rest => ofDigits 16 rest
  | '0' :: rest => ofDigits 8 rest
  | part => ofDigits 10 part

/-- The parts of a name between its points; a point at the end does not count. -/
def hostParts (name : List Char) : List (List Char) :=
  let parts := Text.splitChars '.' name
  match parts.reverse with
  | [] :: front@(_ :: _) => front.reverse
  | _ => parts

/-- A name whose last part is a number has to be an address in at most four parts. -/
def isSoundName (name : List Char) : Bool :=
  let parts := hostParts name
  let last := parts.getLast?.getD []
  let numeric := !last.isEmpty &&
    (last.all Text.isDigit
      || ((last.take 2).map Char.toLower = ['0', 'x'] && (partNumber? last).isSome))
  if numeric then
    match parts.mapM partNumber? with
    | none => false
    | some numbers => decide (numbers.length ≤ 4) && numbers.dropLast.all (· ≤ 255)
      && decide (numbers.getLast?.getD 0 < Nat.pow 256 (5 - numbers.length))
  else true

/-- Whether groups of hexadecimal digits make up an address of the sixth version: eight groups, or
fewer with one gap; the last two groups may be written in four decimal parts. -/
def isSoundSix (inner : List Char) : Bool :=
  let isGroup (g : List Char) : Bool :=
    !g.isEmpty && decide (g.length ≤ 4) && g.all fun c => (Text.hexDigit? c).isSome
  let isQuad (g : List Char) : Bool := match Text.splitChars '.' g with
    | [a, b, c, d] => [a, b, c, d].all fun p => match Text.digits? p with
      | some n => decide (n ≤ 255) && (p.length = 1 || p.head? ≠ some '0')
      | none => false
    | _ => false
  let size (groups : List (List Char)) (final : Bool) : Option Nat :=
    match groups.reverse with
    | [] => some 0
    | last :: front =>
      if !front.all isGroup then none
      else if isGroup last then some groups.length
      else if final && isQuad last then some (groups.length + 1)
      else none
  let groups (cs : List Char) : List (List Char) :=
    if cs.isEmpty then [] else Text.splitChars ':' cs
  match Text.cut [':', ':'] none inner with
  | [whole] => size (groups whole) true = some 8
  | [front, back] => match size (groups front) back.isEmpty, size (groups back) true with
    | some a, some b => decide (a + b ≤ 7) && !(back.isEmpty && front.contains '.')
    | _, _ => false
  | _ => false

/-- The host of an authority and what stands behind it. -/
def splitHost? : List Char → Option (List Char × List Char)
  | '[' :: rest => match Text.splitAtChar? ']' rest with
    | some (inner, rest) => if isSoundSix inner then some ('[' :: inner ++ [']'], rest) else none
    | none => none
  | cs =>
    let host := cs.takeWhile (· ≠ ':')
    match String.fromUTF8? (hostBytes host).toByteArray with
    | none => none
    | some name =>
      let name := name.toList.map Char.toLower
      if !name.isEmpty && name.all isHostChar && isSoundName name then
        some (name, cs.dropWhile (· ≠ ':'))
      else none

/-- The number of a service behind a host. -/
def readService? : List Char → Option (Option Nat)
  | [] => some none
  | [':'] => some none
  | ':' :: rest => match Text.digits? rest with
    | some number => if number ≤ 65535 then some (some number) else none
    | none => none
  | _ => none

/-- The address that a text states. -/
def read? (s : String) : Option Address := do
  let rest ← afterScheme? (normal s)
  let authority := (rest.dropWhile isSlash).takeWhile fun c => !isEnd c
  let (host, rest) ← splitHost? (afterUser authority)
  return ⟨host, ← readService? rest⟩

end Address

end Newsreel.Web
