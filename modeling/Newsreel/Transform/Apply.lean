import Newsreel.Attempt
import Newsreel.Calendar.Reader
import Newsreel.Context.Loop
import Newsreel.Transform.Spec

/-!
Transforms run against a context.

A keyed transform walks its source keys, binds each one to `_key` while it is at work, and writes
one value for it; everything it reads is read before it writes. The values of fields that were read
are never read as paths. A transform that fails leaves what was written before; the failure names
the kind of the transform and the key.
-/

namespace Newsreel

/-- What transforms take from outside. -/
structure Chance where
  today : Calendar.Date
  /-- The place chosen among a positive number of choices, by the number of choices made before. -/
  pick : (draws count : Nat) → Nat

/-- Work on a context. -/
abbrev Edit (α : Type) := Attempt Context α

/-- A value written at a path. -/
def Edit.write (path : String) (value : Value) (scope : Scope) : Edit Unit := fun context =>
  context.insert path value scope

namespace Transform

/-- The text at a key; nothing else will do. -/
def textAt (context : Context) (key : String) (scope : Scope) : Except StepError String := do
  match ← context.get key scope with
  | .string s => return s
  | other => .error (.invalidValue key (.notAText (Json.compact other)))

/-- How often a text is to be replaced; null and negative numbers set no limit. -/
def asCount : Value → Except StepError Int
  | .number n => match n.toInt? with
    | some count => .ok count
    | none => .error (.invalidValue "count" .numberNotInteger)
  | .string s => match Text.integer? (Text.trim s) with
    | some count => .ok count
    | none => .error (.invalidValue "count" (.notAnInteger s))
  | .null => .ok (-1)
  | other => .error (.invalidValue "count" (.notAnInteger (Json.compact other)))

/-- A text with another one in place of its leftmost occurrences of a third, as many as the count
says, or all if it is negative. -/
def replace (value old new : String) (count : Int) : String :=
  let cuts := if count < 0 then none else some count.toNat
  String.ofList (Text.join new.toList (Text.cut old.toList cuts value.toList))

/-- The date that a text states in the given pattern. -/
def dateOf (value format : String) : Except StepError Calendar.Date :=
  match Calendar.readDate value format with
  | .ok date => .ok date
  | .error fault => .error (.invalidValue value (.noSuchDate format fault))

/-- An entry of a dictionary of lists. -/
def entry (dict : Fields) (token : String) (place : Nat) : Except StepError Value :=
  match Fields.find? token dict with
  | some (.array items) => match items[place]? with
    | some value => .ok value
    | none => .error (.unresolved ("dict." ++ token ++ "." ++ Text.natural place))
  | _ => .error (.unresolved ("dict." ++ token ++ "." ++ Text.natural place))

/-- The words for a compass direction. One of several parts takes the first words of its first two
parts, one of a single part takes its third words. -/
def windDirection (context : Context) (value delimiter : String) (dict : Fields) (scope : Scope) :
    Except StepError String := do
  let parts := if delimiter = "" then [value] else Text.splitOn delimiter value
  match parts with
  | first :: second :: _ =>
    let first ← context.formatText scope (← entry dict first 0)
    let second ← context.formatText scope (← entry dict second 0)
    return first ++ " " ++ second
  | _ => context.formatText scope (← entry dict value 2)

/-- What the dictionary has for a value when the choice at a place is taken. -/
def chosen (context : Context) (value : String) (choices : Value) (dict : Fields) (scope : Scope)
    (pick : (count : Nat) → Nat) : Except StepError Value :=
  match choices with
  | .array options => match options[pick options.length]? with
    | none => .error (.invalidValue "choice" .noChoices)
    | some option =>
      let decision := option.text
      match Fields.find? value dict with
      | some (.object outcomes) => match Fields.find? decision outcomes with
        | some outcome => context.format scope outcome
        | none => .error (.unresolved ("dict." ++ value ++ "." ++ decision))
      | _ => .error (.unresolved ("dict." ++ value ++ "." ++ decision))
  | _ => .error (.invalidValue "choice" .noChoiceList)

/-- The value that a keyed transform writes for a source key. -/
def outcome (chance : Chance) (context : Context) (key : String) (scope : Scope) :
    TransformOp → Except StepError Value
  | .addSymbol pattern => context.format scope pattern
  | .replace oldValue newValue count => do
    let value ← textAt context key scope
    let old ← context.formatText scope oldValue
    let new ← context.formatText scope newValue
    let count ← asCount (← context.format scope count)
    return .string (replace value old new count)
  | .dateFormat format => do
    let value ← textAt context key scope
    let date ← dateOf value (← context.formatText scope format)
    return .string date.text
  | .dateWeekday format => do
    let value ← textAt context key scope
    let date ← dateOf value (← context.formatText scope format)
    return .string (Calendar.weekdayName date)
  | .dateNow format => do
    let value ← textAt context key scope
    let _ ← dateOf value (← context.formatText scope format)
    return .string chance.today.text
  | .windDirection delimiter dict => do
    let value ← textAt context key scope
    let delimiter ← context.formatText scope delimiter
    return .string (← windDirection context value delimiter dict scope)
  | .chooseRandom choice dict => do
    let value := (← context.get key scope).text
    let choices ← context.format scope choice
    chosen context value choices dict scope (chance.pick context.draws)
  | .each _ _ => .ok .null
  | .select _ => .ok .null
  | .unimplemented => .ok .null

/-- One more random choice has been made, if the operation makes any. -/
def countDraw : TransformOp → Edit Unit
  | .chooseRandom _ _ => fun context => (.ok (), { context with draws := context.draws + 1 })
  | _ => pure ()

/-- The work of a keyed transform on one source key, in the scope that binds the key. -/
def applyKey (chance : Chance) (op : TransformOp) (key target : String) (scope : Scope) :
    Edit Unit := do
  let value ← Attempt.look fun context => outcome chance context key scope op
  Edit.write target value scope
  countDraw op

/-- The scope in which a keyed transform works on a key. -/
def keyScope (kind : TransformKind) (scope : Scope) (place : Nat) (key : String) : Scope :=
  (scope.child { loopId := kind.name }).saveKey place key

/-- The work on the keys from the given place on. -/
def applyKeys (chance : Chance) (spec : TransformSpec) (scope : Scope) :
    (place : Nat) → List String → Edit Unit
  | _, [] => pure ()
  | place, key :: keys => do
    Attempt.annotate (.transform spec.kind key)
      (applyKey chance spec.op key (spec.outputKey place key) (keyScope spec.kind scope place key))
    applyKeys chance spec scope (place + 1) keys

/-- For each scope, the pieces of work in it. -/
def forEach (body : Scope → Edit Unit) : List Iteration → Edit Unit
  | [] => pure ()
  | iteration :: rest => do
    body iteration.scope
    forEach body rest

mutual
/-- Runs a transform. -/
def apply (chance : Chance) (scope : Scope) : TransformSpec → Edit Unit
  | .mk kind keys newKeys op => applyOp chance scope kind keys newKeys op

def applyOp (chance : Chance) (scope : Scope) (kind : TransformKind) (keys : List String)
    (newKeys : Option (List String)) : TransformOp → Edit Unit
  | .each array transformation =>
    Attempt.annotate (.transform kind array.text) (do
      let iterations ← Attempt.look fun context => context.iterations array kind.name scope
      forEach (fun scope => applyAll chance scope transformation) iterations)
  | .select _ => pure ()
  | .unimplemented => fun context =>
    (.error (.transform kind (keys.headD "") (.notImplemented kind)), context)
  | .addSymbol pattern =>
    applyKeys chance (.mk kind keys newKeys (.addSymbol pattern)) scope 0 keys
  | .replace oldValue newValue count =>
    applyKeys chance (.mk kind keys newKeys (.replace oldValue newValue count)) scope 0 keys
  | .dateFormat format =>
    applyKeys chance (.mk kind keys newKeys (.dateFormat format)) scope 0 keys
  | .dateWeekday format =>
    applyKeys chance (.mk kind keys newKeys (.dateWeekday format)) scope 0 keys
  | .dateNow format =>
    applyKeys chance (.mk kind keys newKeys (.dateNow format)) scope 0 keys
  | .windDirection delimiter dict =>
    applyKeys chance (.mk kind keys newKeys (.windDirection delimiter dict)) scope 0 keys
  | .chooseRandom choice dict =>
    applyKeys chance (.mk kind keys newKeys (.chooseRandom choice dict)) scope 0 keys

/-- Runs transforms in order. -/
def applyAll (chance : Chance) (scope : Scope) : List TransformSpec → Edit Unit
  | [] => pure ()
  | spec :: specs => do
    apply chance scope spec
    applyAll chance scope specs
end

end Transform

end Newsreel
