import Newsreel.Cli.Style
import Newsreel.History.Summary
import Newsreel.Run.Event

/-!
Lines for people: states of steps, runs that are over, and what happens in a run.
-/

namespace Newsreel.Cli

/-- A length of time in hours, minutes and seconds, from the greatest unit that it reaches. -/
def durationText (seconds : Nat) : String :=
  if seconds < 60 then Text.natural seconds ++ "s"
  else if seconds < 3600 then
    Text.natural (seconds / 60) ++ "m " ++ Text.natural (seconds % 60) ++ "s"
  else
    Text.natural (seconds / 3600) ++ "h " ++ Text.natural (seconds % 3600 / 60) ++ "m "
      ++ Text.natural (seconds % 60) ++ "s"

/-- The whole seconds in some nanoseconds; there are none in a time that runs backwards. -/
def seconds? (nanoseconds : Int) : Option Nat :=
  if 0 ≤ nanoseconds then some (nanoseconds.toNat / 1000000000) else none

/-- The state of a step, with the time that it took. -/
def stateText (paint : Paint) (state : StepState) : String :=
  let label := match state with
    | .pending => paint .dim "PENDING"
    | .running _ => paint .yellow "RUNNING"
    | .completed _ _ => paint .green "COMPLETED"
    | .failed _ _ _ => paint .red "FAILED"
    | .skipped _ => paint .dim "SKIPPED"
  match state.elapsed?.bind seconds? with
  | some seconds => label ++ " " ++ paint .dim (durationText seconds)
  | none => label

def statusText (paint : Paint) : Status → String
  | .pending => paint .dim "PENDING"
  | .running => paint .yellow "RUNNING"
  | .completed => paint .green "COMPLETED"
  | .failed => paint .red "FAILED"

/-- A point in time to the second. -/
def momentText (t : Calendar.DateTime) : String :=
  t.date.text ++ " " ++ { t with clock := { t.clock with nanosecond :=
    t.clock.nanosecond / 1000000000 * 1000000000 } }.clockText

/-- A run in one line: its video, or else what stopped it, comes last. -/
def summaryText (paint : Paint) (summary : RunSummary) : String :=
  let sign := match summary.status with
    | .completed => Sign.check
    | .failed => Sign.cross
    | .running => Sign.wait
    | .pending => Sign.info
  let result := match summary.artifact, summary.error with
    | some artifact, _ => paint .cyan artifact
    | none, some error => paint .dim error
    | none, none => ""
  sign ++ " " ++ paint .dim (RunId.short summary.runId)
    ++ " - " ++ paint .dim (momentText summary.started)
    ++ " - " ++ paint .bold summary.jobName
    ++ " - " ++ statusText paint summary.status
    ++ " (" ++ Text.natural summary.completedSteps ++ "/" ++ Text.natural summary.totalSteps ++ ") "
    ++ result

/-- How a run ended. -/
def endText (paint : Paint) : Status → String
  | .completed => paint .green "successfully" ++ " completed"
  | .failed => paint .red "failed"
  | status => statusText paint status

/-- What happened in a run, in one line. -/
def eventText (paint : Paint) : Event → String
  | .runStarted runId pipeline total =>
    Sign.film ++ " Starting " ++ paint .bold pipeline ++ " (" ++ paint .dim (RunId.short runId)
      ++ ", " ++ Text.natural total ++ " steps)"
  | .stepStarted _ label => Sign.wait ++ " " ++ paint .cyan label
  | .stepCompleted _ label => Sign.check ++ " " ++ paint .green label
  | .stepFailed _ label error =>
    Sign.cross ++ " " ++ paint .red label ++ ": " ++ paint .dim error
  | .runCompleted runId status artifact =>
    let line := Sign.info ++ " Run (" ++ paint .dim (RunId.short runId) ++ ") "
      ++ endText paint status
    match artifact with
    | some path => line ++ " -> " ++ paint .cyan path
    | none => line

end Newsreel.Cli
