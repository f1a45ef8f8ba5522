import Newsreel.Text.Digits
import Newsreel.Text.Search

/-!
Options on a command line.

A long option is written with two hyphens, its value behind an equals sign or as the next word.
Short ones may stand together behind one hyphen; the rest of the word behind one with a value is the
value. A value is looked at when the next option comes or the words end. Two hyphens alone end the
options.
-/

namespace Newsreel.Cli

/-- Why a command line is not carried out. -/
inductive UsageFault where
  | helpWanted
  | versionWanted
  /-- Nothing is said at all. -/
  | nothingSaid
  | missingCommand
  | unknownCommand
  | unknownArgument
  /-- An option is without its value. -/
  | missingValue
  /-- The value of an option does not fit. -/
  | unfitValue
  /-- An option is given again that can be given once. -/
  | repeatedOption
  /-- A value is given to an option that takes none. -/
  | unwantedValue
  | missingOption
  deriving DecidableEq, Repr

inductive OptionKind where
  | flag
  /-- One value, given once. -/
  | single
  /-- One value each time it is given. -/
  | repeated
  | help
  | version
  deriving DecidableEq, Repr

structure OptionSpec where
  name : String
  short : Option Char := none
  kind : OptionKind
  /-- The values that fit. -/
  fits : String → Bool := fun _ => true

namespace OptionSpec

def takesValue (spec : OptionSpec) : Bool := spec.kind = .single || spec.kind = .repeated

def help : OptionSpec := ⟨"help", some 'h', .help, fun _ => true⟩

end OptionSpec

/-- Options with their values, in order. A flag has the empty value. -/
abbrev Given := List (String × String)

namespace Given

def has (given : Given) (name : String) : Bool := given.any fun entry => entry.1 = name

def value? (given : Given) (name : String) : Option String :=
  (given.find? fun entry => entry.1 = name).map (·.2)

def values (given : Given) (name : String) : List String :=
  (given.filter fun entry => entry.1 = name).map (·.2)

/-- The options with one more of them and its value, if it has one. -/
def add (given : Given) (spec : OptionSpec) (value : Option String) : Except UsageFault Given :=
  match spec.kind, value with
  | .help, _ => .error .helpWanted
  | .version, _ => .error .versionWanted
  | .flag, _ =>
    if given.has spec.name then .error .repeatedOption else .ok (given ++ [(spec.name, "")])
  | _, none => .error .missingValue
  | kind, some value =>
    if kind = .single ∧ given.has spec.name then .error .repeatedOption
    else if spec.fits value then .ok (given ++ [(spec.name, value)])
    else .error .unfitValue

end Given

/-- How far the words have been read. -/
structure Reading where
  given : Given := []
  /-- The last option with a value, and the value if it has come. -/
  pending : Option (OptionSpec × Option String) := none
  /-- No word is an option any more. -/
  isClosed : Bool := false

namespace Reading

/-- The reading with the last option looked at. -/
def settle (reading : Reading) : Except UsageFault Reading := match reading.pending with
  | none => .ok reading
  | some (spec, value) => do
    return { reading with given := ← reading.given.add spec value, pending := none }

/-- An option without a value of its own. -/
def flag (reading : Reading) (spec : OptionSpec) : Except UsageFault Reading := do
  let reading ← reading.settle
  return { reading with given := ← reading.given.add spec none }

/-- An option with a value in its own word, or else in the next one. -/
def valued (reading : Reading) (spec : OptionSpec) (value : Option String) :
    Except UsageFault Reading := do
  let reading ← reading.settle
  match value with
  | some _ => return { reading with given := ← reading.given.add spec value }
  | none => return { reading with pending := some (spec, none) }

/-- A long option and what stands behind its equals sign. -/
def long (specs : List OptionSpec) (reading : Reading) (name : String) (value : Option String) :
    Except UsageFault Reading :=
  match specs.find? fun spec => spec.name = name with
  | none => .error .unknownArgument
  | some spec =>
    if spec.takesValue then reading.valued spec value
    else if value.isSome then .error .unwantedValue
    else reading.flag spec

/-- What stands behind a short option in its word. -/
def attached : List Char → Option String
  | [] => none
  | '=' :: cs => some (String.ofList cs)
  | cs => some (String.ofList cs)

/-- Short options behind one hyphen. -/
def short (specs : List OptionSpec) : Reading → List Char → Except UsageFault Reading
  | reading, [] => .ok reading
  | reading, c :: cs => match specs.find? fun spec => spec.short = some c with
    | none => .error .unknownArgument
    | some spec =>
      if spec.takesValue then reading.valued spec (attached cs)
      else match reading.flag spec with
        | .ok reading => short specs reading cs
        | .error fault => .error fault

/-- A word that is no option: the value that is waited for, or else a stray word. -/
def plain (stray : UsageFault) (reading : Reading) (word : String) : Except UsageFault Reading :=
  match reading.isClosed, reading.pending with
  | false, some (spec, none) => .ok { reading with pending := some (spec, some word) }
  | _, _ => .error stray

/-- One word more. -/
def next (specs : List OptionSpec) (stray : UsageFault) (reading : Reading) (word : String) :
    Except UsageFault Reading :=
  if reading.isClosed then reading.plain stray word
  else match word.toList with
    | ['-', '-'] => .ok { reading with isClosed := true }
    | '-' :: '-' :: cs => match Text.splitAtChar? '=' cs with
      | some (name, value) =>
        reading.long specs (String.ofList name) (some (String.ofList value))
      | none => reading.long specs (String.ofList cs) none
    | '-' :: c :: cs => short specs reading (c :: cs)
    | _ => reading.plain stray word

/-- All words of a command without further commands. -/
def words (specs : List OptionSpec) : Reading → List String → Except UsageFault Given
  | reading, [] => reading.settle.map (·.given)
  | reading, word :: rest => do words specs (← reading.next specs .unknownArgument word) rest

end Reading

end Newsreel.Cli
