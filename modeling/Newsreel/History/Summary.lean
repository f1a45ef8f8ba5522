import Newsreel.Run.Engine
import Newsreel.Run.Id

/-!
What is kept of a run when it is over.
-/

namespace Newsreel

structure RunSummary where
  runId : String
  pipelineName : String
  jobName : String
  status : Status
  started : Calendar.DateTime
  ended : Option Calendar.DateTime
  /-- The path of the video. -/
  artifact : Option String
  /-- What stopped the run. -/
  error : Option String
  completedSteps : Nat
  totalSteps : Nat
  deriving DecidableEq, Repr

namespace RunSummary

/-- The summary of a run that is over. -/
def ofRun (run : Execution) (jobName : String) (now : Calendar.DateTime) : RunSummary where
  runId := run.pipeline.run.runId
  pipelineName := run.pipeline.name
  jobName := jobName
  status := run.pipeline.run.status
  started := run.pipeline.run.started.getD now
  ended := run.pipeline.run.ended
  artifact := match run.result with
    | .ok report => report.artifact
    | .error _ => none
  error := match run.result with
    | .ok _ => none
    | .error error => some error.message
  completedSteps := run.pipeline.run.completed
  totalSteps := run.pipeline.run.total

/-- The nanoseconds that a run took. -/
def duration? (summary : RunSummary) : Option Int :=
  summary.ended.map fun ended => ended.nanosecondsSince summary.started

def toValue (summary : RunSummary) : Value :=
  .object [
    ("run_id", .string summary.runId),
    ("pipeline_name", .string summary.pipelineName),
    ("job_name", .string summary.jobName),
    ("status", .string summary.status.tag),
    ("started_at", .string summary.started.zuluText),
    ("completed_at", Value.ofOption (fun t => .string t.zuluText) summary.ended),
    ("artifact", Value.ofOption .string summary.artifact),
    ("error", Value.ofOption .string summary.error),
    ("completed_steps", .ofNat summary.completedSteps),
    ("total_steps", .ofNat summary.totalSteps)]

open Decode

def runIdField : RecordField String := ⟨"run_id", Decode.runId, none⟩
def pipelineField : RecordField String := ⟨"pipeline_name", text, none⟩
def jobField : RecordField String := ⟨"job_name", text, none⟩
def statusField : RecordField Status := ⟨"status", Status.ofValue, none⟩
def startedField : RecordField Calendar.DateTime := ⟨"started_at", instant, none⟩
def endedField : RecordField (Option Calendar.DateTime) :=
  ⟨"completed_at", option instant, some none⟩
def artifactField : RecordField (Option String) := ⟨"artifact", option path, some none⟩
def errorField : RecordField (Option String) := ⟨"error", option text, some none⟩
def completedField : RecordField Nat := ⟨"completed_steps", count, none⟩
def totalField : RecordField Nat := ⟨"total_steps", count, none⟩

def checks : List Check :=
  [runIdField.check, pipelineField.check, jobField.check, statusField.check, startedField.check,
    endedField.check, artifactField.check, errorField.check, completedField.check,
    totalField.check]

/-- The summary that a value states. -/
def ofValue (value : Value) : Except DecodeFault RunSummary := do
  let given ← record "RunSummary" checks value
  return {
    runId := ← runIdField.get given
    pipelineName := ← pipelineField.get given
    jobName := ← jobField.get given
    status := ← statusField.get given
    started := ← startedField.get given
    ended := ← endedField.get given
    artifact := ← artifactField.get given
    error := ← errorField.get given
    completedSteps := ← completedField.get given
    totalSteps := ← totalField.get given }

end RunSummary

end Newsreel
