import Newsreel.Fetch.Spec
import Newsreel.Media.Spec

/-!
Compiled steps: what running a step does, and how a step is named in reports.
-/

namespace Newsreel

inductive Action where
  /-- Fetches a value and writes it at a key. -/
  | fetch (key : String) (spec : FetchSpec)
  | transform (spec : TransformSpec)
  | transforms (specs : List TransformSpec)
  /-- Makes a video and writes its path at the key of the sequence. -/
  | sequence (spec : SequenceSpec)

structure Step where
  /-- The place in the document, from 0. -/
  index : Nat
  type : String
  /-- The name that the document gives the step. -/
  name : Option String
  action : Action

namespace Step

open Decode

def targetField : RecordField String := ⟨"key", text, some defaultFetchKey⟩

/-- What a step of the given kind does. -/
def compileAction (table : DispatchTable) (config : StepConfig) :
    StepKind → Except StepError Action
  | .fetch _ => do
    let key ← TransformSpec.params config (TransformSpec.param targetField)
    return .fetch key (← FetchSpec.compile table none config)
  | .transform _ => return .transform (← TransformSpec.compile table config)
  | .transformGroup => return .transforms (← TransformSpec.compileGroup table config)
  | .sequence => return .sequence (← SequenceSpec.compile table config)

/-- The step that a document describes at a place. -/
def compile (table : DispatchTable) (index : Nat) (config : StepConfig) :
    Except StepError Step := do
  let action ← compileAction table config (← table.step config.type)
  return { index, type := config.type, name := config.name?, action }

/-- The step in reports: its place counted from 1, its type and, if it has one, its name. -/
def label (step : Step) : String :=
  "#" ++ Text.natural (step.index + 1) ++ " " ++ step.type ++ match step.name with
  | some name => " (" ++ name ++ ")"
  | none => ""

def isSequence (step : Step) : Bool := match step.action with
  | .sequence _ => true
  | _ => false

end Step

end Newsreel
