import Newsreel.Fetch.Run
import Newsreel.Media.Assemble
import Newsreel.Run.Event
import Newsreel.Run.Pipeline

/-!
Pipelines run.

The steps are run in order; the first one that fails stops the run, and those behind it are skipped.
What is to be remembered is stored only when all steps have succeeded. The directory for
intermediate files goes in any case.
-/

namespace Newsreel

namespace Action

/-- Work on the context of a run. -/
def onContext (edit : Edit α) : Attempt (Context × World) α :=
  Attempt.within Prod.fst (fun s context => (context, s.2)) edit

/-- Work on the world that reads the context. -/
def onWorld (work : Context → Effect α) : Attempt (Context × World) α := fun (context, world) =>
  match work context world with
  | (outcome, after) => (outcome, (context, after))

/-- Does what a step does. A sequence gives the path of its video. -/
def run (surroundings : Surroundings) (scope : Scope) :
    Action → Attempt (Context × World) (Option String)
  | .fetch key spec => do
    let value ← onWorld fun context => Fetch.run surroundings context scope spec
    Attempt.annotate (.fetch spec.kind spec.name) (onContext (Edit.write key value scope))
    return none
  | .transform spec => do
    onContext (Transform.apply surroundings.chance scope spec)
    return none
  | .transforms specs => do
    onContext (Transform.applyAll surroundings.chance scope specs)
    return none
  | .sequence spec => do
    let output ← onWorld fun context => Media.assemble surroundings context scope spec
    Attempt.annotate (.sequence spec.kind) (onContext (Edit.write spec.key (.string output) scope))
    return some output

end Action

/-- Compiles a single step and runs it. -/
def runStep (surroundings : Surroundings) (table : DispatchTable) (config : StepConfig)
    (scope : Scope) : Attempt (Context × World) (Option String) := do
  let step ← Attempt.ofExcept (Step.compile table 0 config)
  step.action.run surroundings scope

/-- What a successful run gives. -/
structure RunReport where
  runId : String
  pipelineName : String
  jobName : String
  /-- The path of the last video. -/
  artifact : Option String
  /-- The paths of the snapshots that were stored. -/
  stored : List String
  data : Value

def RunReport.toValue (report : RunReport) : Value :=
  .object [
    ("run_id", .string report.runId),
    ("pipeline_name", .string report.pipelineName),
    ("job_name", .string report.jobName),
    ("artifact", Value.ofOption .string report.artifact),
    ("stored", .array (report.stored.map .string)),
    ("data", report.data)]

/-- The steps after a run of them. -/
structure StagesRun where
  stages : List Stage
  events : List Event
  /-- The path of the last video, or what stopped the run. -/
  result : Except StepError (Option String)
  context : Context
  world : World

/-- The steps behind one that has failed. -/
def skipAll (label : String) (stages : List Stage) : List Stage :=
  stages.map fun stage =>
    { stage with state := .skipped ("step " ++ label ++ " failed") }

/-- Runs steps from an index on; `artifact` is the path of the last video so far. -/
def runStages (surroundings : Surroundings) : (index : Nat) → (artifact : Option String) →
    Context → World → List Stage → StagesRun
  | _, artifact, context, world, [] => ⟨[], [], .ok artifact, context, world⟩
  | index, artifact, context, world, stage :: rest =>
    let label := stage.step.label
    let now := surroundings.now
    match stage.step.action.run surroundings Scope.root (context, world) with
    | (.ok path, (context, world)) =>
      let after := runStages surroundings (index + 1) (path.or artifact) context world rest
      { after with
        stages := { stage with state := .completed now now } :: after.stages
        events := .stepStarted index label :: .stepCompleted index label :: after.events }
    | (.error error, (context, world)) =>
      { stages := { stage with state := .failed error.message now now } :: skipAll label rest
        events := [.stepStarted index label, .stepFailed index label error.message]
        result := .error error
        context, world }

/-- Stores what is to be remembered of a run. -/
def storeAll (surroundings : Surroundings) (context : Context) :
    List Storing → Effect (List String)
  | [] => pure []
  | entry :: entries => do
    let value ← Attempt.ofExcept (context.get entry.key Scope.root)
    let snapshots : Snapshots := ⟨context.config.memoryPath⟩
    let path ← snapshots.store context.config.jobName entry.name value surroundings.now
    let paths ← storeAll surroundings context entries
    return path :: paths

/-- Removes the directory for the intermediate files of a run, as far as that can be done. -/
def removeTemp (context : Context) (world : World) : World :=
  (Effect.onFiles (Files.Work.removeDirectory (Media.tempDirectory context)) world).2

/-- A run from its beginning to its end. -/
structure Execution where
  result : Except StepError RunReport
  pipeline : Pipeline
  events : List Event
  world : World

/-- The pipeline as it goes into a run: one that has run before begins anew under a new id. -/
def Pipeline.ready (pipeline : Pipeline) (freshId : String) : Pipeline :=
  if pipeline.run.status = .pending then pipeline else pipeline.reset freshId

/-- What comes behind the steps: storing, unless one of them has failed, and clearing up. -/
def conclude (surroundings : Surroundings) (storing : List Storing) (steps : StagesRun) :
    Except StepError (Option String × List String) × World :=
  match steps.result with
  | .error error => (.error error, removeTemp steps.context steps.world)
  | .ok artifact => match storeAll surroundings steps.context storing steps.world with
    | (.ok stored, world) => (.ok (artifact, stored), removeTemp steps.context world)
    | (.error error, world) => (.error error, removeTemp steps.context world)

namespace Pipeline

/-- The pipeline as its run begins. -/
def begin (pipeline : Pipeline) (now : Calendar.DateTime) : Pipeline :=
  { pipeline with run := pipeline.run.start pipeline.stages.length now }

/-- The pipeline as its run ends. -/
def close (pipeline : Pipeline) (stages : List Stage) (status : Status)
    (now : Calendar.DateTime) : Pipeline :=
  let counted := { pipeline with stages }.tally
  { counted with run := counted.run.finish status now }

/-- Runs a pipeline. -/
def execute (surroundings : Surroundings) (config : JobConfig) (pipeline : Pipeline)
    (world : World) : Execution :=
  let now := surroundings.now
  let begun := (pipeline.ready surroundings.freshId).begin now
  let runId := begun.run.runId
  let steps := runStages surroundings 0 none (Context.start config runId) world begun.stages
  let opening : Event := .runStarted runId begun.name begun.stages.length
  match conclude surroundings begun.storing steps with
  | (.ok (artifact, stored), world) => {
      result := .ok {
        runId, artifact, stored
        pipelineName := begun.name
        jobName := steps.context.config.jobName
        data := steps.context.data }
      pipeline := begun.close steps.stages .completed now
      events := opening :: steps.events ++ [.runCompleted runId .completed artifact]
      world }
  | (.error error, world) => {
      result := .error error
      pipeline := begun.close steps.stages .failed now
      events := opening :: steps.events ++ [.runCompleted runId .failed none]
      world }

end Pipeline

end Newsreel
