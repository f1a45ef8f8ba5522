/-!
The kinds of steps, and the names under which documents know them.
-/

namespace Newsreel

inductive FetchKind where
  | request
  | input
  | memory
  | multiple
  | multipleCustom
  deriving DecidableEq, Repr

namespace FetchKind

def all : List FetchKind := [.request, .input, .memory, .multiple, .multipleCustom]

def name : FetchKind → String
  | .request => "request"
  | .input => "input"
  | .memory => "request_memory"
  | .multiple => "request_multiple"
  | .multipleCustom => "request_multiple_custom"

end FetchKind

inductive TransformKind where
  | array
  | select
  | selectRange
  | append
  | synonym
  | addSymbol
  | replace
  | dateFormat
  | dateWeekday
  | dateNow
  | windDirection
  | chooseRandom
  | loop
  deriving DecidableEq, Repr

namespace TransformKind

def all : List TransformKind :=
  [.array, .select, .selectRange, .append, .synonym, .addSymbol, .replace, .dateFormat,
    .dateWeekday, .dateNow, .windDirection, .chooseRandom, .loop]

def name : TransformKind → String
  | .array => "transform_array"
  | .select => "select"
  | .selectRange => "select_range"
  | .append => "append"
  | .synonym => "alias"
  | .addSymbol => "add_symbol"
  | .replace => "replace"
  | .dateFormat => "date_format"
  | .dateWeekday => "date_weekday"
  | .dateNow => "date_now"
  | .windDirection => "wind_direction"
  | .chooseRandom => "choose_random"
  | .loop => "loop"

/-- The kinds that walk source keys and so need at least one. -/
def needsKeys : TransformKind → Bool
  | .array | .loop | .select | .selectRange | .append | .synonym => false
  | .addSymbol | .replace | .dateFormat | .dateWeekday | .dateNow | .windDirection
  | .chooseRandom => true

end TransformKind

inductive SequenceKind where
  /-- One image for each audio clip, in the order of declaration. -/
  | successively
  /-- A pattern of images, audio clips and extra seconds. -/
  | custom
  deriving DecidableEq, Repr

namespace SequenceKind

def all : List SequenceKind := [.successively, .custom]

def name : SequenceKind → String
  | .successively => "successively"
  | .custom => "custom"

end SequenceKind

/-- The tables in which a type name can be looked up. -/
inductive Registry where
  | step
  | fetch
  | transform
  | sequence
  deriving DecidableEq, Repr

def Registry.name : Registry → String
  | .step => "step"
  | .fetch => "fetch"
  | .transform => "transform"
  | .sequence => "sequence"

end Newsreel
