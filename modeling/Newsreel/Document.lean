import Newsreel.Decode
import Newsreel.Text.Blank

/-!
Step documents as they are written: named steps with free parameters, and the values to be kept when
all of them are done.
-/

namespace Newsreel

/-- A step: its type and everything else that the document says about it. -/
structure StepConfig where
  type : String
  params : Fields

/-- A value to be remembered for later runs. -/
structure Storing where
  /-- The name under which the value is kept. -/
  name : String
  /-- The path of the value. -/
  key : String
  deriving DecidableEq, Repr

structure Document where
  name : String
  description : Option String
  steps : List StepConfig
  storing : List Storing

/-- The key that fetched values are written to unless the step names its own. -/
def defaultFetchKey : String := "_req"

open Decode

namespace StepConfig

def typeField : RecordField String := ⟨"type", text, none⟩

def ofValue (value : Value) : Except DecodeFault StepConfig := do
  let given ← openRecord "StepConfig" [typeField.check] value
  return { type := ← typeField.get given, params := given.filter fun field => field.1 ≠ "type" }

def toValue (config : StepConfig) : Value :=
  .object (("type", .string config.type) :: config.params)

/-- The name that the document gives the step. -/
def name? (config : StepConfig) : Option String := match Fields.find? "name" config.params with
  | some (.string name) => some name
  | _ => none

/-- The parameters as a value, to be read into a record. -/
def paramsValue (config : StepConfig) : Value := .object config.params

end StepConfig

namespace Storing

def nameField : RecordField String := ⟨"name", text, none⟩
def keyField : RecordField String := ⟨"key", text, some defaultFetchKey⟩

def ofValue (value : Value) : Except DecodeFault Storing := do
  let given ← record "StoringConfig" [nameField.check, keyField.check] value
  return { name := ← nameField.get given, key := ← keyField.get given }

def toValue (storing : Storing) : Value :=
  .object [("name", .string storing.name), ("key", .string storing.key)]

end Storing

/-- What makes a document unfit to be compiled, whatever its steps say. -/
inductive DocumentFault where
  | emptyName
  /-- The step at this place, counted from 1, has no type. -/
  | emptyType (place : Nat)
  | duplicateStoring (name : String)
  deriving DecidableEq, Repr

def DocumentFault.message : DocumentFault → String
  | .emptyName => "Step document has an empty name"
  | .emptyType place => "Step #" ++ Text.natural place ++ " has an empty type"
  | .duplicateStoring name => "Duplicate storing name: " ++ name

namespace Document

def nameField : RecordField String := ⟨"name", text, none⟩
def descriptionField : RecordField (Option String) := ⟨"description", option text, some none⟩
def stepsField : RecordField (List StepConfig) := ⟨"steps", list StepConfig.ofValue, none⟩
def storingField : RecordField (List Storing) := ⟨"storing", list Storing.ofValue, some []⟩

def checks : List Check :=
  [nameField.check, descriptionField.check, stepsField.check, storingField.check]

def ofValue (value : Value) : Except DecodeFault Document := do
  let given ← record "StepDocument" checks value
  return {
    name := ← nameField.get given
    description := ← descriptionField.get given
    steps := ← stepsField.get given
    storing := ← storingField.get given }

def toValue (document : Document) : Value :=
  .object [
    ("name", .string document.name),
    ("description", Value.ofOption .string document.description),
    ("steps", .array (document.steps.map StepConfig.toValue)),
    ("storing", .array (document.storing.map Storing.toValue))]

/-- The place, counted from `place`, of the first step without a type. -/
def untyped? : (place : Nat) → List StepConfig → Option Nat
  | _, [] => none
  | place, step :: steps =>
    if Text.isBlankText step.type then some place else untyped? (place + 1) steps

/-- The first name that was there before. -/
def repeated? (seen : List String) : List Storing → Option String
  | [] => none
  | storing :: rest =>
    if seen.contains storing.name then some storing.name
    else repeated? (storing.name :: seen) rest

/-- The first fault of a document in its structure. Types are looked up when it is compiled. -/
def fault? (document : Document) : Option DocumentFault :=
  if Text.isBlankText document.name then some .emptyName
  else match untyped? 1 document.steps with
    | some place => some (.emptyType place)
    | none => (repeated? [] document.storing).map .duplicateStoring

end Document

end Newsreel
