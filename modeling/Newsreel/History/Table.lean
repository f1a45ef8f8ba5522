import Newsreel.History.Basic
import Newsreel.Json.Reader

/-!
A history kept as the rows of a table. A row that replaces another one comes last, and rows are
ordered by the texts of their times.

A row holds the status by its name and the counts in signed machine words. Times stand in it as
texts that are read back as they were written.
-/

namespace Newsreel

/-- A machine word read as a signed number. -/
def signedWord (n : Nat) : Int := Int.bmod n Text.countLimit

/-- The count that a machine word holds. -/
def wordCount (word : Int) : Nat := (word % Text.countLimit).toNat

/-- A run as a table holds it. -/
structure RunRow where
  runId : String
  pipelineName : String
  jobName : String
  status : String
  started : Calendar.DateTime
  ended : Option Calendar.DateTime
  artifact : Option String
  error : Option String
  completedSteps : Int
  totalSteps : Int
  deriving DecidableEq, Repr

namespace RunRow

def ofSummary (run : RunSummary) : RunRow where
  runId := run.runId
  pipelineName := run.pipelineName
  jobName := run.jobName
  status := run.status.name
  started := run.started
  ended := run.ended
  artifact := run.artifact
  error := run.error
  completedSteps := signedWord run.completedSteps
  totalSteps := signedWord run.totalSteps

/-- The run of a row. A status that has no such name is taken for one that has not begun. -/
def summary (row : RunRow) : RunSummary where
  runId := row.runId
  pipelineName := row.pipelineName
  jobName := row.jobName
  status := (Status.ofName? row.status).getD .pending
  started := row.started
  ended := row.ended
  artifact := row.artifact
  error := row.error
  completedSteps := wordCount row.completedSteps
  totalSteps := wordCount row.totalSteps

end RunRow

structure RunTable where
  rows : List RunRow := []
  deriving DecidableEq, Repr

namespace RunTable

/-- Later texts first; rows with the same time stay as they were. -/
def descending (rows : List RunRow) : List RunRow :=
  rows.mergeSort fun a b => b.started.text ≤ a.started.text

instance : History RunTable where
  empty := {}
  save table run :=
    ⟨(table.rows.filter fun row => row.runId ≠ run.runId) ++ [RunRow.ofSummary run]⟩
  load? table runId := (table.rows.find? fun row => row.runId = runId).map RunRow.summary
  list table job := (descending (table.rows.filter fun row => row.jobName = job)).map RunRow.summary
  jobs table := History.distinct (table.rows.map (·.jobName))

/-- The rows in order, to be kept as a document. -/
def toValue (table : RunTable) : Value :=
  .array (table.rows.map fun row => row.summary.toValue)

def ofValue (value : Value) : Except DecodeFault RunTable := do
  return ⟨(← Decode.list RunSummary.ofValue value).map RunRow.ofSummary⟩

/-- The table that a document holds; one that holds none stands for no rows. -/
def ofText (text : String) : RunTable :=
  match Json.read text with
  | .ok value => (ofValue value).toOption.getD {}
  | .error _ => {}

end RunTable

end Newsreel
