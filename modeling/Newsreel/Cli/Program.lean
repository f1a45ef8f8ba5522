import Newsreel.Cli.Command
import Newsreel.Cli.Report
import Newsreel.Cli.Session
import Newsreel.Config.Reader
import Newsreel.Document.Reader

/-!
The commands carried out.

A run is entered into the history whether it succeeds or not; a document that does not compile is no
run. A program that fails ends with code 1, one that is told nothing sensible with code 2.
-/

namespace Newsreel.Cli

variable {σ : Type} [History σ]

/-- Why a file holds no document. -/
inductive DocumentFileFault where
  | file (fault : FileFault)
  | text (fault : DocumentTextFault)
  deriving DecidableEq, Repr

def DocumentFileFault.message : DocumentFileFault → String
  | .file fault => fault.message
  | .text fault => fault.message

namespace Program

def version : String := "visuflow 0.1.0"

/-- What the program can be told. -/
def helpText : String :=
  "Usage: visuflow [OPTIONS] <COMMAND>\n\nCommands:\n  run       Run a step document\n"
    ++ "  validate  Validate a step document without running it\n  history   Show run history\n"
    ++ "  check     Check that ffmpeg and ffprobe can be started\n  help      Print this message\n"

/-- The document in a file. -/
def readDocument (path : String) : Work σ (Except DocumentFileFault Document) := do
  match ← Work.readFile path with
  | .error fault => return .error (.file fault)
  | .ok text => return (Document.read text).mapError .text

/-- The configuration in a file, or the one of a document that comes without. -/
def readConfig (path : Option String) (document : Document) : Work σ JobConfig := do
  match path with
  | none => return JobConfig.named document.name
  | some path =>
    let complaint := "Failed to load job config from " ++ path
    match ← Work.readFile path with
    | .error _ => Work.fail complaint
    | .ok text => match JobConfig.read text with
      | .ok config => return config
      | .error _ => Work.fail complaint

/-- The configuration with entries replaced. -/
def override (host : Host) : List (String × String) → JobConfig → Work σ JobConfig
  | [], config => pure config
  | (key, raw) :: rest, config => do
    match config.override key raw with
    | (.error _, _) => Work.fail ("Invalid override " ++ key ++ "=" ++ raw)
    | (.ok _, config) =>
      Work.say (Sign.info ++ " Override: " ++ host.paint .cyan key ++ " = "
        ++ host.paint .dim raw)
      override host rest config

/-- The states of the steps of a run that has failed. -/
def sayStages (host : Host) : List Stage → Work σ Unit
  | [] => pure ()
  | stage :: stages => do
    Work.say ("  " ++ stateText host.paint stage.state ++ " " ++ stage.step.label)
    sayStages host stages

/-- What came of a run. -/
def sayResult (host : Host) (run : Execution) : Work σ Unit := do
  let name := host.paint .bold run.pipeline.name
  match run.result with
  | .ok report =>
    Work.say ("\n" ++ Sign.check ++ " " ++ name ++ " completed "
      ++ host.paint .green "successfully")
    match report.artifact with
    | some artifact => Work.say ("  Video: " ++ host.paint .cyan artifact)
    | none => pure ()
  | .error error =>
    Work.say ("\n" ++ Sign.cross ++ " " ++ name ++ " " ++ host.paint .red "failed")
    sayStages host run.pipeline.stages
    Work.fail error.message

/-- Runs the pipeline of a document. -/
def execute (host : Host) (command : RunCommand) (config : JobConfig) (pipeline : Pipeline) :
    Work σ Unit := do
  let run ← Work.onWorld fun world =>
    let run := pipeline.execute host.surroundings config world
    (run, run.world)
  if !command.noHistory then
    let summary := RunSummary.ofRun run config.jobName host.now
    Work.enter summary
    Work.say ("\n" ++ Sign.info ++ " Run saved to history (ID: "
      ++ host.paint .dim (RunId.short summary.runId) ++ ")")
  sayResult host run

def run (host : Host) (command : RunCommand) : Work σ Unit := do
  match ← readDocument command.file with
  | .error _ => Work.fail ("Failed to load step document " ++ command.file)
  | .ok document =>
    Work.say (Sign.info ++ " Loaded document: " ++ host.paint .bold document.name)
    let config ← readConfig command.config document
    let config ← override host command.overrides config
    let config := { config with testing := config.testing || command.testing }
    match Pipeline.compile DispatchTable.builtin host.freshId document with
    | .ok pipeline => execute host command config pipeline
    | .error error =>
      Work.say (Sign.cross ++ " " ++ host.paint .red error.message)
      Work.stop

/-- A document that is not valid. -/
def refuse (host : Host) (message : String) : Work σ Unit := do
  Work.say (Sign.cross ++ " Validation failed:")
  Work.say ("  " ++ host.paint .red message)
  Work.stop

def validate (host : Host) (command : ValidateCommand) : Work σ Unit := do
  Work.say (Sign.info ++ " Validating step document...")
  match ← readDocument command.file with
  | .error fault => refuse host fault.message
  | .ok document => match Pipeline.compile DispatchTable.builtin host.freshId document with
    | .error error => refuse host error.message
    | .ok pipeline =>
      let count (n : Nat) := host.paint .cyan (Text.natural n)
      Work.say (Sign.check ++ " Step document is valid!")
      Work.say ("  Name: " ++ host.paint .bold pipeline.name)
      Work.say ("  Steps: " ++ count pipeline.stages.length)
      pipeline.stages.forM fun stage => Work.say ("    " ++ stage.step.label)
      Work.say ("  Storing: " ++ count pipeline.storing.length)
      if command.json then Work.say ("\n" ++ Json.pretty 0 document.toValue)

/-- Everything that is kept of a run. -/
def sayDetails (host : Host) (json : Bool) (summary : RunSummary) : Work σ Unit := do
  if json then Work.say (Json.pretty 0 summary.toValue)
  else
    let line (name text : String) : Work σ Unit := Work.say ("  " ++ name ++ ": " ++ text)
    let optional (name : String) (text : Option String) : Work σ Unit := match text with
      | some text => line name text
      | none => pure ()
    Work.say (Sign.info ++ " Run Details")
    line "ID" (host.paint .cyan summary.runId)
    line "Document" (host.paint .bold summary.pipelineName)
    line "Job" (host.paint .bold summary.jobName)
    line "Status" (statusText host.paint summary.status)
    line "Started" (host.paint .dim summary.started.offsetText)
    optional "Completed" (summary.ended.map fun ended => host.paint .dim ended.offsetText)
    optional "Duration" ((summary.duration?.bind seconds?).map fun seconds =>
      host.paint .dim (durationText seconds))
    line "Steps" (Text.natural summary.completedSteps ++ "/" ++ Text.natural summary.totalSteps)
    optional "Video" (summary.artifact.map (host.paint .cyan))
    optional "Error" (summary.error.map (host.paint .red))

/-- The latest runs. -/
def sayRuns (host : Host) (command : HistoryCommand) (runs : List RunSummary) : Work σ Unit := do
  if runs.isEmpty then Work.say (Sign.info ++ " No runs found")
  else if command.json then
    Work.say (Json.pretty 0 (.object [("runs", .array (runs.map RunSummary.toValue))]))
  else
    Work.say (Sign.info ++ " Run history (showing latest " ++ Text.natural command.limit ++ "):")
    runs.forM fun summary => Work.say ("  " ++ summaryText host.paint summary)

def history (host : Host) (command : HistoryCommand) : Work σ Unit := do
  let history ← Work.history
  match command.runId with
  | none => sayRuns host command (History.latest history command.job command.limit)
  | some text => match RunId.read text with
    | .error _ => Work.fail "Invalid run ID format"
    | .ok runId => match History.load? history runId with
      | some summary => sayDetails host command.json summary
      | none => Work.say (Sign.warn ++ " Run not found")

/-- Tells whether the programs for encoding can be started. -/
def check (host : Host) : Work σ Unit := do
  match (host.programs.areAvailable []).1 with
  | .ok true =>
    Work.say (Sign.check ++ " " ++ Programs.encoderName ++ " and ffprobe are available")
  | _ =>
    Work.say (Sign.cross ++ " " ++ Programs.encoderName
      ++ " or ffprobe could not be started; install them and make sure they are on PATH")
    Work.stop

def carryOut (host : Host) : Command → Work σ Unit
  | .run command => run host command
  | .validate command => validate host command
  | .history command => history host command
  | .check => check host

/-- The directories in which a command looks for what earlier runs and others have left. -/
def directories (host : Host) : Command → Work σ (List String)
  | .run command => do
    match ← readDocument command.file with
    | .error _ => return []
    | .ok document =>
      let config ← override host command.overrides (← readConfig command.config document)
      return [config.memoryPath, config.fixturesPath]
  | _ => return []

/-- What is done about words that state no command. -/
def reject : UsageFault → Work σ Unit
  | .helpWanted => Work.say helpText
  | .versionWanted => Work.say version
  | _ => fun session => (.error { code := 2, complaint := some helpText }, session)

/-- Does what some words say; the first word is the program itself. -/
def obey (host : Host) (words : List String) : Work σ Unit := match CommandLine.read words with
  | .ok line => carryOut host line.command
  | .error fault => reject fault

/-- The code that the program ends with, what it complains about, and the session after it. -/
def exit (work : Work σ Unit) (session : Session σ) : Nat × Option String × Session σ :=
  match work session with
  | (.ok _, session) => (0, none, session)
  | (.error failure, session) => (failure.code, failure.complaint, session)

end Program

end Newsreel.Cli
