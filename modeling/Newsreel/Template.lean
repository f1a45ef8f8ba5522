import Newsreel.Decimal.Fixed
import Newsreel.Fault
import Newsreel.Text.Blank
import Newsreel.Text.Search

/-!
Templates: texts with placeholders in braces.

A placeholder holds a path and, behind a colon, perhaps a count of decimal places. Two braces of one
kind stand for one brace of the text; a single closing brace stands for itself, a single opening one
has to begin a placeholder. The text is read from left to right and every brace is taken at the
first chance.
-/

namespace Newsreel

/-- What stands between braces: a path, and the decimal places for numbers. -/
structure Placeholder where
  path : String
  precision : Option Nat := none
  deriving DecidableEq, Repr

namespace Placeholder

/-- The count of places behind the colon: a point, digits and perhaps an `f`. Nothing asks for no
fixed count. -/
def readPrecision (spec : String) : Except ValueFault (Option Nat) :=
  match spec.toList with
  | [] => .ok none
  | '.' :: rest =>
    let digits := match rest.reverse with
      | 'f' :: front => front.reverse
      | _ => rest
    match Text.count? (String.ofList digits) with
    | some places => .ok (some places)
    | none => .error (.unsupportedFormat spec)
  | _ => .error (.unsupportedFormat spec)

/-- A placeholder from what stands between its braces. -/
def read (inner : List Char) : Except ValueFault Placeholder :=
  let (path, spec) := match Text.splitAtChar? ':' inner with
    | some (path, spec) => (Text.trim (String.ofList path), Text.trim (String.ofList spec))
    | none => (Text.trim (String.ofList inner), "")
  if path = "" then .error .emptyPlaceholder
  else (readPrecision spec).map fun precision => ⟨path, precision⟩

/-- The most decimal places that can be written. -/
def placesLimit : Nat := 65535

/-- The text of a resolved value inside a longer text. Decimal places apply to numbers only. -/
def render (placeholder : Placeholder) (value : Value) : Except StepError String :=
  match value, placeholder.precision with
  | .number n, some places =>
    if placesLimit < places then .error (.unwritable places)
    else .ok (Decimal.fixed n.toFloat places)
  | value, _ => .ok value.text

end Placeholder

/-- A piece of a template. -/
inductive Part where
  | literal (text : String)
  | placeholder (p : Placeholder)
  deriving DecidableEq, Repr

namespace Template

/-- The literal text read so far as a part, unless it is empty. -/
def flush (read : List Char) (parts : List Part) : List Part :=
  if read.isEmpty then parts else .literal (String.ofList read.reverse) :: parts

/-- Reads on. `read` holds the literal text before, backwards; inside a placeholder `inner` holds,
backwards, what has been read of it. -/
def scan (read : List Char) : (inner : Option (List Char)) → List Char →
    Except ValueFault (List Part)
  | none, [] => .ok (flush read [])
  | none, '\x7b' :: '\x7b' :: rest => scan ('\x7b' :: read) none rest
  | none, '\x7d' :: '\x7d' :: rest => scan ('\x7d' :: read) none rest
  | none, '\x7b' :: rest => scan read (some []) rest
  | none, c :: rest => scan (c :: read) none rest
  | some _, [] => .error .unclosedBrace
  | some _, '\x7b' :: _ => .error .unclosedBrace
  | some inner, '\x7d' :: rest => do
    let placeholder ← Placeholder.read inner.reverse
    let parts ← scan [] none rest
    return flush read (.placeholder placeholder :: parts)
  | some inner, c :: rest => scan read (some (c :: inner)) rest

/-- The parts of a template; a fault names the whole text. -/
def parse (template : String) : Except StepError (List Part) :=
  match scan [] none template.toList with
  | .ok parts => .ok parts
  | .error fault => .error (.invalidValue template fault)

/-- The placeholder of a template that is nothing else and asks for no decimal places. -/
def single? : List Part → Option Placeholder
  | [.placeholder p] => if p.precision.isNone then some p else none
  | _ => none

/-- The text of a path without the pair of braces around it, if there is no other brace. -/
def stripBraces (spec : String) : String :=
  match spec.toList with
  | '\x7b' :: rest => match rest.reverse with
    | '\x7d' :: inner =>
      if inner.any fun c => c = '\x7b' || c = '\x7d' then spec else String.ofList inner.reverse
    | _ => spec
  | _ => spec

end Template

end Newsreel
