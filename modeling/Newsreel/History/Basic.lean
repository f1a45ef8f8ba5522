import Newsreel.History.Summary

/-!
Histories of runs: what can be written into one and asked of it.

A run is kept under its id, and saving it again replaces what was there. The runs of a job are
listed from the newest to the oldest, the jobs in the order of their names.
-/

namespace Newsreel

/-- A way to keep a history. -/
class History (σ : Type) where
  empty : σ
  save : σ → RunSummary → σ
  /-- The run of an id. -/
  load? : σ → (runId : String) → Option RunSummary
  /-- The runs of a job, the newest first. -/
  list : σ → (job : String) → List RunSummary
  /-- The names of all jobs with runs, in order. -/
  jobs : σ → List String

namespace History

/-- Each name once, in order. -/
def distinct (names : List String) : List String :=
  (names.mergeSort fun a b => a ≤ b).eraseReps

/-- The newest runs first; those that began at the same time stay as they were. -/
def newestFirst (runs : List RunSummary) : List RunSummary :=
  runs.mergeSort fun a b => b.started.rank ≤ a.started.rank

/-- The runs of all jobs, the newest first. -/
def listAll [History σ] (history : σ) : List RunSummary :=
  newestFirst ((History.jobs history).flatMap (History.list history))

/-- The newest runs of a job, or of all jobs, as many as are asked for at most. -/
def latest [History σ] (history : σ) (job : Option String) (limit : Nat) : List RunSummary :=
  (match job with
    | some job => History.list history job
    | none => listAll history).take limit

end History

end Newsreel
