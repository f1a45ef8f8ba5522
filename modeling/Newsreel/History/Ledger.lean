import Newsreel.History.Basic

/-!
A history that lives as long as the program: the runs in the order in which their ids came up.
-/

namespace Newsreel

structure Ledger where
  runs : List RunSummary := []
  deriving DecidableEq, Repr

namespace Ledger

/-- The runs with one of them entered or replaced. -/
def enter (run : RunSummary) : List RunSummary → List RunSummary
  | [] => [run]
  | old :: rest => if old.runId = run.runId then run :: rest else old :: enter run rest

instance : History Ledger where
  empty := {}
  save ledger run := ⟨enter run ledger.runs⟩
  load? ledger runId := ledger.runs.find? fun run => run.runId = runId
  list ledger job := History.newestFirst (ledger.runs.filter fun run => run.jobName = job)
  jobs ledger := History.distinct (ledger.runs.map (·.jobName))

end Ledger

end Newsreel
