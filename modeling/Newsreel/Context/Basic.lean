import Newsreel.Config
import Newsreel.Context.Path
import Newsreel.Scope

/-!
The evaluation context of a run: the data gathered so far, the configuration and the run's id.

A path begins with a head. Five heads are reserved: `_loop`, `_idx` and `_key` lead to what the
scope binds, `_conf` to the configuration and `_run_id` to the run's id. Any other head leads into
the data. A `_loop` or `_key` that stands for a path is replaced by that path and the search goes
on, so a write through it changes the data; everything else that is reserved can only be read.
-/

namespace Newsreel

structure Context where
  data : Value := .object []
  config : JobConfig
  runId : String
  /-- How many random choices have been made. -/
  draws : Nat := 0

/-- Where a path leads once no alias is left in it. -/
inductive Location where
  /-- Into the data. -/
  | data (segments : List String)
  /-- Into a value outside the data. -/
  | detached (value : Value) (rest : List String)
  /-- To the loop index. -/
  | index (n : Nat)

/-- One step of the search for a location. -/
inductive Expansion where
  | found (location : Location)
  | failed (error : StepError)
  /-- The head stood for a path; the search goes on with it. -/
  | replaced (segments : List String)

namespace Context

/-- The context of a run that has gathered nothing. -/
def start (config : JobConfig) (runId : String) : Context := { config, runId }

/-- The context with data to begin with; only an object can be data. -/
def withData (context : Context) (data : Value) : Context :=
  if data.isObject then { context with data } else context

/-- The path that a binding stands for, before the segments behind the alias. -/
def replaceHead (target : String) (rest : List String) : Expansion :=
  match Path.split target with
  | .ok segments => .replaced (segments ++ rest)
  | .error error => .failed error

/-- Looks at the head of a path. -/
def expand (context : Context) (path : String) (scope : Scope) : List String → Expansion
  | [] => .found (.data [])
  | "_idx" :: rest => match rest, scope.index? with
    | [], some n => .found (.index n)
    | _, _ => .failed (.unresolved path)
  | "_key" :: rest => match scope.key? with
    | some key => replaceHead key rest
    | none => .failed (.unresolved path)
  | "_loop" :: rest => match scope.valueFrame? with
    | none => .failed (.unresolved path)
    | some frame => match frame.itemPath, frame.value with
      | some itemPath, _ => replaceHead itemPath rest
      | none, some value => .found (.detached value rest)
      | none, none => .failed (.unresolved path)
  | "_conf" :: rest => .found (.detached context.config.toValue rest)
  | "_run_id" :: rest => .found (.detached (.string context.runId) rest)
  | segments => .found (.data segments)

/-- The most aliases that are replaced one after the other. -/
def aliasLimit : Nat := 16

/-- The location of a path after at most the given number of steps. -/
def locateWithin (context : Context) (path : String) (scope : Scope) :
    (steps : Nat) → List String → Except StepError Location
  | 0, _ => .error (.invalidValue path .aliasTooDeep)
  | steps + 1, segments => match context.expand path scope segments with
    | .found location => .ok location
    | .failed error => .error error
    | .replaced segments => locateWithin context path scope steps segments

def locate (context : Context) (path : String) (scope : Scope) : Except StepError Location := do
  let segments ← Path.split path
  context.locateWithin path scope (aliasLimit + 1) segments

/-- The value at a location. -/
def read (context : Context) (path : String) : Location → Except StepError Value
  | .data segments => match context.data.at? segments with
    | some value => .ok value
    | none => .error (.unresolved path)
  | .detached value rest => match value.at? rest with
    | some value => .ok value
    | none => .error (.unresolved path)
  | .index n => .ok (.ofNat n)

/-- The value at a path. -/
def get (context : Context) (path : String) (scope : Scope) : Except StepError Value := do
  context.read path (← context.locate path scope)

/-- Writes a value at a path: how that ends, and the context behind it. -/
def insert (context : Context) (path : String) (value : Value) (scope : Scope) :
    Except StepError Unit × Context :=
  match context.locate path scope with
  | .error error => (.error error, context)
  | .ok (.data []) => (.error (.invalidValue path .emptyPath), context)
  | .ok (.data segments) =>
    let written := Value.put path value segments context.data
    (written.1, { context with data := written.2 })
  | .ok (.detached _ _) => (.error (.invalidValue path .readOnly), context)
  | .ok (.index _) => (.error (.invalidValue path .readOnly), context)

end Context

end Newsreel
