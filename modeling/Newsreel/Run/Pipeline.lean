import Newsreel.Run.State
import Newsreel.Step

/-!
Pipelines: compiled documents together with how far their run has come.
-/

namespace Newsreel

/-- A step of a pipeline and its state. -/
structure Stage where
  step : Step
  state : StepState := .pending

structure Pipeline where
  name : String
  description : Option String
  stages : List Stage
  storing : List Storing
  run : RunState

namespace Pipeline

/-- The steps of a document, counted from the given index. -/
def compileSteps (table : DispatchTable) : (index : Nat) → List StepConfig →
    Except StepError (List Step)
  | _, [] => .ok []
  | index, config :: configs => do
    let step ← Step.compile table index config
    let steps ← compileSteps table (index + 1) configs
    return step :: steps

/-- The pipeline of a document, for a run of the given id. The first step that does not fit decides
before anything runs. -/
def compile (table : DispatchTable) (runId : String) (document : Document) :
    Except StepError Pipeline := do
  let steps ← compileSteps table 0 document.steps
  return {
    name := document.name
    description := document.description
    stages := steps.map fun step => { step }
    storing := document.storing
    run := { runId } }

def states (pipeline : Pipeline) : List StepState := pipeline.stages.map (·.state)

def step? (pipeline : Pipeline) (index : Nat) : Option Step :=
  pipeline.stages[index]?.map (·.step)

/-- Nothing more happens to any step. -/
def isComplete (pipeline : Pipeline) : Bool := pipeline.states.all StepState.isTerminal

def hasFailed (pipeline : Pipeline) : Bool := pipeline.run.status = .failed

/-- The first step that has failed. -/
def failedStep? (pipeline : Pipeline) : Option Step :=
  (pipeline.stages.find? fun stage => stage.state.isFailed).map (·.step)

/-- The pipeline with another state for the step at an index, if there is one. -/
def setState (pipeline : Pipeline) (index : Nat) (state : StepState) : Pipeline :=
  { pipeline with stages := pipeline.stages.modify index fun stage => { stage with state } }

/-- The pipeline before a run of the given id. -/
def reset (pipeline : Pipeline) (runId : String) : Pipeline :=
  { pipeline with
    stages := pipeline.stages.map fun stage => { stage with state := .pending }
    run := { runId } }

/-- Counts how the steps came out. -/
def tally (pipeline : Pipeline) : Pipeline :=
  { pipeline with run := pipeline.run.tally pipeline.states }

end Pipeline

end Newsreel
