import Newsreel.Run.State

/-!
What is reported while a pipeline runs.
-/

namespace Newsreel

inductive Event where
  | runStarted (runId pipeline : String) (total : Nat)
  | stepStarted (index : Nat) (label : String)
  | stepCompleted (index : Nat) (label : String)
  | stepFailed (index : Nat) (label error : String)
  | runCompleted (runId : String) (status : Status) (artifact : Option String)
  deriving DecidableEq, Repr

namespace Event

/-- The event as a value, to be written into a log. -/
def toValue : Event → Value
  | .runStarted runId pipeline total =>
    .object [("event", .string "run_started"), ("run_id", .string runId),
      ("pipeline", .string pipeline), ("total", .ofNat total)]
  | .stepStarted index label =>
    .object [("event", .string "step_started"), ("index", .ofNat index), ("label", .string label)]
  | .stepCompleted index label =>
    .object [("event", .string "step_completed"), ("index", .ofNat index),
      ("label", .string label)]
  | .stepFailed index label error =>
    .object [("event", .string "step_failed"), ("index", .ofNat index), ("label", .string label),
      ("error", .string error)]
  | .runCompleted runId status artifact =>
    .object [("event", .string "run_completed"), ("run_id", .string runId),
      ("status", .string status.name), ("artifact", Value.ofOption .string artifact)]

end Event

end Newsreel
