import Newsreel.Fault

/-!
The dispatch table: which kind a type name stands for.

Whole steps, fetches, transforms and sequences have a table each. Registering a fetch or a transform
registers the step of that name as well; a sequence is reached through a step of its own.
-/

namespace Newsreel

/-- What a step does. -/
inductive StepKind where
  | fetch (kind : FetchKind)
  | transform (kind : TransformKind)
  /-- A list of transforms. -/
  | transformGroup
  | sequence
  deriving DecidableEq, Repr

/-- Kinds by name; of entries with one name the one entered last, which stands first, counts. -/
abbrev Table (κ : Type) := List (String × κ)

def Table.find? (table : Table κ) (name : String) : Option κ :=
  (List.find? (fun entry => entry.1 = name) table).map (·.2)

structure DispatchTable where
  steps : Table StepKind := []
  fetches : Table FetchKind := []
  transforms : Table TransformKind := []
  sequences : Table SequenceKind := []

namespace DispatchTable

def empty : DispatchTable := {}

def registerStep (table : DispatchTable) (name : String) (kind : StepKind) : DispatchTable :=
  { table with steps := (name, kind) :: table.steps }

def registerFetch (table : DispatchTable) (name : String) (kind : FetchKind) : DispatchTable :=
  { table with fetches := (name, kind) :: table.fetches }.registerStep name (.fetch kind)

def registerTransform (table : DispatchTable) (name : String) (kind : TransformKind) :
    DispatchTable :=
  { table with transforms := (name, kind) :: table.transforms }.registerStep name (.transform kind)

def registerSequence (table : DispatchTable) (name : String) (kind : SequenceKind) :
    DispatchTable :=
  { table with sequences := (name, kind) :: table.sequences }

/-- The kind of an entry, or the fault that names the table in which it is missing. -/
def orUnknown (registry : Registry) (name : String) : Option κ → Except StepError κ
  | some kind => .ok kind
  | none => .error (.unknownType registry name)

def step (table : DispatchTable) (name : String) : Except StepError StepKind :=
  orUnknown .step name (table.steps.find? name)

def fetch (table : DispatchTable) (name : String) : Except StepError FetchKind :=
  orUnknown .fetch name (table.fetches.find? name)

def transform (table : DispatchTable) (name : String) : Except StepError TransformKind :=
  orUnknown .transform name (table.transforms.find? name)

def sequence (table : DispatchTable) (name : String) : Except StepError SequenceKind :=
  orUnknown .sequence name (table.sequences.find? name)

/-- A name put in its place among sorted ones, unless it is there. -/
def insertName (name : String) : List String → List String
  | [] => [name]
  | other :: rest =>
    if name = other then other :: rest
    else if name < other then name :: other :: rest
    else other :: insertName name rest

/-- The names of all steps, sorted. -/
def stepTypes (table : DispatchTable) : List String :=
  (table.steps.map (·.1)).foldl (fun names name => insertName name names) []

/-- Every fetch under its own name. -/
def registerFetchTypes (table : DispatchTable) : DispatchTable :=
  FetchKind.all.foldl (fun table kind => table.registerFetch kind.name kind) table

/-- Every transform under its own name, the loop over an array under a second one, and the group. -/
def registerTransformTypes (table : DispatchTable) : DispatchTable :=
  let table := TransformKind.all.foldl
    (fun table kind => table.registerTransform kind.name kind) table
  (table.registerTransform "array" .array).registerStep "transform" .transformGroup

/-- Every sequence under its own name, and the step that leads to them. -/
def registerSequenceTypes (table : DispatchTable) : DispatchTable :=
  (SequenceKind.all.foldl (fun table kind => table.registerSequence kind.name kind) table)
    |>.registerStep "sequence" .sequence

/-- All kinds under the names that documents know. -/
def builtin : DispatchTable :=
  registerSequenceTypes (registerTransformTypes (registerFetchTypes empty))

end DispatchTable

end Newsreel
