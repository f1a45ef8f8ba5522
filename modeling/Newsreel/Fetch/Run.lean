import Newsreel.Fetch.Snapshots

/-!
Fetches run against a context.

A fetch reads the context and never writes it. In testing mode whatever would be asked of a server
is read from a fixture instead. A snapshot that is missing gives way to the alternative, any other
failure does not. A failure names the kind and the name of the fetch.
-/

namespace Newsreel.Fetch

/-- The value that stands for a fetch in testing mode. -/
def fixture (config : JobConfig) (name : String) : Effect Value :=
  Effect.readValue (Files.join config.fixturesPath (name ++ ".json"))

/-- Builds a request and sends it. -/
def sendRequest (surroundings : Surroundings) (context : Context) (apiKeyName : Option String)
    (scope : Scope) (spec : RequestSpec) : Effect Value := do
  let request ← Attempt.ofExcept (spec.build context apiKeyName scope)
  Effect.send surroundings request

/-- One request for each item, the responses under the texts of the items. -/
def sendKeyed (surroundings : Surroundings) (context : Context) (apiKeyName : Option String)
    (spec : RequestSpec) (gathered : Fields) : List Iteration → Effect Fields
  | [] => pure gathered
  | iteration :: rest => do
    let value ← sendRequest surroundings context apiKeyName iteration.scope spec
    sendKeyed surroundings context apiKeyName spec
      (Fields.insert iteration.item.text value gathered) rest

/-- Requests over an array. Unless their responses are kept by key, only the first one is sent. -/
def sendMultiple (surroundings : Surroundings) (context : Context) (apiKeyName : Option String)
    (scope : Scope) (spec : RequestSpec) (stepsValue useLoopAsKey : Value) : Effect Value := do
  let iterations ← Attempt.ofExcept
    (context.iterations stepsValue FetchKind.multiple.name scope)
  let keyed ← Attempt.ofExcept (context.format scope useLoopAsKey)
  if keyed.isTruthy then
    return .object (← sendKeyed surroundings context apiKeyName spec [] iterations)
  else match iterations with
    | [] => return .array []
    | iteration :: _ =>
      return .array [← sendRequest surroundings context apiKeyName iteration.scope spec]

/-- The snapshot that a fetch asks for. -/
def remembered (surroundings : Surroundings) (config : JobConfig) (name : String) (useLast : Nat)
    (timedelta : Option Float) : Effect Value :=
  let snapshots : Snapshots := ⟨config.memoryPath⟩
  match timedelta with
  | none => snapshots.readLast config.jobName name useLast
  | some days => snapshots.readClosest config.jobName name days surroundings.now

/-- The work, or a fixture in testing mode. -/
def unlessTesting (context : Context) (name : String) (work : Effect Value) : Effect Value :=
  if context.config.testing then fixture context.config name else work

mutual
/-- Runs a fetch. -/
def run (surroundings : Surroundings) (context : Context) (scope : Scope) :
    FetchSpec → Effect Value
  | .mk kind name apiKeyName variant =>
    Attempt.annotate (.fetch kind name)
      (runVariant surroundings context scope name apiKeyName variant)

def runVariant (surroundings : Surroundings) (context : Context) (scope : Scope) (name : String)
    (apiKeyName : Option String) : FetchVariant → Effect Value
  | .request request =>
    unlessTesting context name (sendRequest surroundings context apiKeyName scope request)
  | .input input => Attempt.ofExcept (context.deepFormat apiKeyName scope input)
  | .memory useLast timedelta alternative => fun world =>
    match remembered surroundings context.config name useLast timedelta world with
    | (.ok value, after) => (.ok value, after)
    | (.error error, after) =>
      if error.isCacheMiss then runAlternative surroundings context scope error alternative after
      else (.error error, after)
  | .multiple request stepsValue useLoopAsKey =>
    unlessTesting context name
      (sendMultiple surroundings context apiKeyName scope request stepsValue useLoopAsKey)
  | .multipleCustom requests keys =>
    unlessTesting context name (match keys with
      | some keys => do
        return .object (← runKeyed surroundings context scope [] keys requests)
      | none => do return .array (← runAll surroundings context scope requests))

/-- Runs the alternative to a snapshot, if there is one. -/
def runAlternative (surroundings : Surroundings) (context : Context) (scope : Scope)
    (miss : StepError) : Option FetchSpec → Effect Value
  | none => throw miss
  | some alternative => run surroundings context scope alternative

def runAll (surroundings : Surroundings) (context : Context) (scope : Scope) :
    List FetchSpec → Effect (List Value)
  | [] => pure []
  | spec :: specs => do
    let value ← run surroundings context scope spec
    let values ← runAll surroundings context scope specs
    return value :: values

/-- Runs fetches side by side with templates for the keys of their values. -/
def runKeyed (surroundings : Surroundings) (context : Context) (scope : Scope)
    (gathered : Fields) : List Value → List FetchSpec → Effect Fields
  | key :: keys, spec :: specs => do
    let key ← Attempt.ofExcept (context.formatText scope key)
    let value ← run surroundings context scope spec
    runKeyed surroundings context scope (Fields.insert key value gathered) keys specs
  | _, _ => pure gathered
end

end Newsreel.Fetch
