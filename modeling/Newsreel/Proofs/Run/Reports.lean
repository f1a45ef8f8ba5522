import Newsreel.Proofs.Run.Outputs

/-!
What is reported of a run.

Whoever listens hears the beginning of the run, then of each step that it begins and at once how it
ended, and at last how the run ended. A failure is the last thing heard of the steps. The reports
agree with the books that the run closes and with what it returns.
-/

namespace Newsreel

namespace Event

end Event

variable (surroundings : Surroundings)

/-- How the end of a run is reported. -/
def Execution.closing (run : Execution) : Event := match run.result with
  | .ok report => .runCompleted run.pipeline.run.runId .completed report.artifact
  | .error _ => .runCompleted run.pipeline.run.runId .failed none

namespace Pipeline

/-- A run that fails at a step gives back what stopped the step. -/
theorem execute_result_of_error {config : JobConfig} {pipeline : Pipeline} {world : World}
    {error : StepError}
    (stopped : (runStages surroundings 0 none (pipeline.beginning surroundings config world).1 world
      (pipeline.begun surroundings).stages).result = .error error) :
    (pipeline.execute surroundings config world).result = .error error :=
  (execute_error rfl (conclude_failed stopped)).1

/-- The books of a run count the states in which its steps are left. -/
theorem execute_close (surroundings : Surroundings) (config : JobConfig) (pipeline : Pipeline)
    (world : World) : ∃ status : Status, status.isFinished = true ∧
      (pipeline.execute surroundings config world).pipeline =
        (pipeline.begun surroundings).close
          (runStages surroundings 0 none (pipeline.beginning surroundings config world).1 world
            (pipeline.begun surroundings).stages).stages status surroundings.now := by
  rcases ended : conclude surroundings pipeline.storing
    (runStages surroundings 0 none (pipeline.beginning surroundings config world).1 world
      (pipeline.begun surroundings).stages) with ⟨error | ⟨artifact, stored⟩, after⟩
  · exact ⟨.failed, rfl, (execute_error rfl ended).2.1⟩
  · exact ⟨.completed, rfl, (execute_ok rfl ended).2⟩

/-- A run of three steps that stops at the second one. -/
example : (unfinished.execute Action.offline (JobConfig.named "news") {}).events = [
    .runStarted Action.offline.freshId "news" 3,
    .stepStarted 0 "#1 input", .stepCompleted 0 "#1 input",
    .stepStarted 1 "#2 alias",
    .stepFailed 1 "#2 alias" "transform 'alias' on key '' failed: 'alias' is not implemented",
    .runCompleted Action.offline.freshId .failed none] := by decide +kernel

end Pipeline

end Newsreel
