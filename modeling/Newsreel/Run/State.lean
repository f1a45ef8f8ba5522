import Newsreel.Calendar.Instant

/-!
How far a run and its steps have come.

The states of steps can be written down as values and read back: a state without details is its
name, any other one an object with its name alone.
-/

namespace Newsreel

inductive Status where
  | pending
  | running
  /-- Every step has succeeded and everything to be remembered has been stored. -/
  | completed
  | failed
  deriving DecidableEq, Repr

namespace Status

def all : List Status := [.pending, .running, .completed, .failed]

def name : Status → String
  | .pending => "pending"
  | .running => "running"
  | .completed => "completed"
  | .failed => "failed"

/-- The status of a name. -/
def ofName? (name : String) : Option Status := all.find? fun status => status.name = name

def isFinished : Status → Bool
  | .completed | .failed => true
  | .pending | .running => false

/-- The status as it is kept in values. -/
def tag : Status → String
  | .pending => "Pending"
  | .running => "Running"
  | .completed => "Completed"
  | .failed => "Failed"

end Status

inductive StepState where
  | pending
  | running (started : Calendar.DateTime)
  | completed (started ended : Calendar.DateTime)
  /-- The run has stopped at this step. -/
  | failed (error : String) (started ended : Calendar.DateTime)
  /-- The step was not reached, for the given reason. -/
  | skipped (reason : String)
  deriving DecidableEq, Repr

namespace StepState

/-- Nothing more happens to the step in this run. -/
def isTerminal : StepState → Bool
  | .pending | .running _ => false
  | .completed _ _ | .failed _ _ _ | .skipped _ => true

def started? : StepState → Option Calendar.DateTime
  | .running started | .completed started _ | .failed _ started _ => some started
  | .pending | .skipped _ => none

/-- The nanoseconds that a step took. -/
def elapsed? : StepState → Option Int
  | .completed started ended | .failed _ started ended => some (ended.nanosecondsSince started)
  | .pending | .running _ | .skipped _ => none

def isCompleted : StepState → Bool
  | .completed _ _ => true
  | _ => false

def isFailed : StepState → Bool
  | .failed _ _ _ => true
  | _ => false

def isSkipped : StepState → Bool
  | .skipped _ => true
  | _ => false

/-- The state as a value. -/
def toValue : StepState → Value
  | .pending => .string "Pending"
  | .running started => .object [("Running", .object [("started_at", .string started.zuluText)])]
  | .completed started ended =>
    .object [("Completed", .object [("started_at", .string started.zuluText),
      ("completed_at", .string ended.zuluText)])]
  | .failed error started ended =>
    .object [("Failed", .object [("error", .string error),
      ("started_at", .string started.zuluText), ("failed_at", .string ended.zuluText)])]
  | .skipped reason => .object [("Skipped", .object [("reason", .string reason)])]

end StepState

namespace Decode

/-- The name of a variant and its details, if there are any. -/
def variant (names : List String) : Value → Except DecodeFault (String × Option Value)
  | .string name =>
    if names.contains name then .ok (name, none) else .error (.unknownVariant name names)
  | .object [(name, details)] =>
    if names.contains name then .ok (name, some details) else .error (.unknownVariant name names)
  | .object _ => .error (.invalidValue "map" "map with a single key")
  | value => .error (unexpected value "string or map")

/-- The details of a variant that has none. -/
def noDetails : Option Value → Except DecodeFault Unit
  | none => .ok ()
  | some .null => .ok ()
  | some value => .error (unexpected value "unit")

/-- The sound details of a variant with fields. -/
def details (checks : List Check) : Option Value → Except DecodeFault Fields
  | none => .error (.invalidType "unit variant" "struct variant")
  | some (.object given) => openRecord "" checks (.object given)
  | some value => .error (unexpected value "struct variant")

end Decode

open Decode

namespace Status

/-- The status that a value states. -/
def ofValue (value : Value) : Except DecodeFault Status := do
  let (name, given) ← variant (all.map tag) value
  noDetails given
  match all.find? fun status => status.tag = name with
  | some status => return status
  | none => .error (.unknownVariant name (all.map tag))

end Status

namespace StepState

def tags : List String := ["Pending", "Running", "Completed", "Failed", "Skipped"]

def startedField : RecordField Calendar.DateTime := ⟨"started_at", instant, none⟩
def completedField : RecordField Calendar.DateTime := ⟨"completed_at", instant, none⟩
def failedField : RecordField Calendar.DateTime := ⟨"failed_at", instant, none⟩
def errorField : RecordField String := ⟨"error", text, none⟩
def reasonField : RecordField String := ⟨"reason", text, none⟩

/-- The state that a value states. -/
def ofValue (value : Value) : Except DecodeFault StepState := do
  match ← variant tags value with
  | ("Running", given) =>
    let given ← details [startedField.check] given
    return .running (← startedField.get given)
  | ("Completed", given) =>
    let given ← details [startedField.check, completedField.check] given
    return .completed (← startedField.get given) (← completedField.get given)
  | ("Failed", given) =>
    let given ← details [errorField.check, startedField.check, failedField.check] given
    return .failed (← errorField.get given) (← startedField.get given) (← failedField.get given)
  | ("Skipped", given) =>
    let given ← details [reasonField.check] given
    return .skipped (← reasonField.get given)
  | (_, given) =>
    noDetails given
    return .pending

end StepState

/-- The books of one run. -/
structure RunState where
  runId : String
  status : Status := .pending
  started : Option Calendar.DateTime := none
  ended : Option Calendar.DateTime := none
  total : Nat := 0
  completed : Nat := 0
  failed : Nat := 0
  skipped : Nat := 0
  deriving DecidableEq, Repr

namespace RunState

/-- The books of a run that begins with so many steps; only the id is kept. -/
def start (state : RunState) (total : Nat) (now : Calendar.DateTime) : RunState :=
  { runId := state.runId, status := .running, started := some now, total }

/-- Closes the books. -/
def finish (state : RunState) (status : Status) (now : Calendar.DateTime) : RunState :=
  { state with status, ended := some now }

/-- Counts how the steps came out. -/
def tally (state : RunState) (states : List StepState) : RunState :=
  { state with
    completed := states.countP StepState.isCompleted
    failed := states.countP StepState.isFailed
    skipped := states.countP StepState.isSkipped }

/-- The part of the steps that ran to an end. -/
def progress (state : RunState) : Float :=
  if state.total = 0 then 0
  else Float.ofNat (state.completed + state.failed) / Float.ofNat state.total

end RunState

end Newsreel
