import Newsreel.Document
import Newsreel.Registry

/-!
Transforms as they are compiled from documents: the keys they walk, where they write, and what they
do with each key.
-/

namespace Newsreel

mutual
/-- A compiled transform. -/
inductive TransformSpec where
  | mk (kind : TransformKind) (keys : List String) (newKeys : Option (List String))
    (op : TransformOp)

inductive TransformOp where
  /-- Nested transforms for every item of an array. -/
  | each (array : Value) (transformation : List TransformSpec)
  | select (relevantKeys : List String)
  | unimplemented
  | addSymbol (pattern : Value)
  | replace (oldValue newValue count : Value)
  | dateFormat (format : Value)
  | dateWeekday (format : Value)
  | dateNow (format : Value)
  | windDirection (delimiter : Value) (dict : Fields)
  | chooseRandom (choice : Value) (dict : Fields)
end

namespace TransformSpec

def kind : TransformSpec → TransformKind
  | .mk kind _ _ _ => kind

def keys : TransformSpec → List String
  | .mk _ keys _ _ => keys

def newKeys : TransformSpec → Option (List String)
  | .mk _ _ newKeys _ => newKeys

def op : TransformSpec → TransformOp
  | .mk _ _ _ op => op

/-- Where the outcome for the source key at a place is written. -/
def outputKey (spec : TransformSpec) (place : Nat) (key : String) : String :=
  (spec.newKeys.bind fun newKeys => newKeys[place]?).getD key

open Decode

/-- Parameters read into a record; a fault names the type of the step. -/
def params (config : StepConfig) (decode : Value → Except DecodeFault α) : Except StepError α :=
  match decode config.paramsValue with
  | .ok params => .ok params
  | .error fault => .error (.invalidStep config.type (.decode fault))

/-- One field of the parameters. -/
def param (field : RecordField α) (value : Value) : Except DecodeFault α := do
  field.get (← openRecord "" [field.check] value)

/-- Two fields of the parameters, in the order of their declaration. -/
def params₂ (first : RecordField α) (second : RecordField β) (value : Value) :
    Except DecodeFault (α × β) := do
  let given ← openRecord "" [first.check, second.check] value
  return (← first.get given, ← second.get given)

def keysField : RecordField (Option (List String)) := ⟨"keys", option (list text), some none⟩
def keyField : RecordField (Option String) := ⟨"key", option text, some none⟩
def newKeysField : RecordField (Option (List String)) := ⟨"new_keys", option (list text), some none⟩
def arrayKeyField : RecordField Value := ⟨"array_key", any, none⟩
def valuesField : RecordField Value := ⟨"values", any, none⟩
def transformationField : RecordField (List StepConfig) :=
  ⟨"transformation", list StepConfig.ofValue, some []⟩
def relevantKeysField : RecordField (List String) := ⟨"relevant_keys", list text, some []⟩
def patternField : RecordField Value := ⟨"pattern", any, none⟩
def oldValueField : RecordField Value := ⟨"old_value", any, none⟩
def newValueField : RecordField Value := ⟨"new_value", any, none⟩
/-- How often a text is replaced; a negative count sets no limit. -/
def countField : RecordField Value := ⟨"count", any, some (.ofInt (-1))⟩
def formatField : RecordField Value := ⟨"format", any, none⟩
def delimiterField : RecordField Value := ⟨"delimiter", any, none⟩
def choiceField : RecordField Value := ⟨"choice", any, none⟩
def dictField : RecordField Fields := ⟨"dict", fields, none⟩

/-- The source keys and the output keys of a step. A list of keys goes before a single one. -/
def keyParams (value : Value) : Except DecodeFault (List String × Option (List String)) := do
  let given ← openRecord "KeyParams" [keysField.check, keyField.check, newKeysField.check] value
  let keys := match ← keysField.get given, ← keyField.get given with
    | some keys, _ => keys
    | none, some key => [key]
    | none, none => []
  return (keys, ← newKeysField.get given)

def replaceParams (value : Value) : Except DecodeFault (Value × Value × Value) := do
  let given ← openRecord "ReplaceParams"
    [oldValueField.check, newValueField.check, countField.check] value
  return (← oldValueField.get given, ← newValueField.get given, ← countField.get given)

/-- The count of output keys is that of the source keys. -/
def matchKeys (kind : TransformKind) (keys : List String) :
    Option (List String) → Except StepError Unit
  | none => .ok ()
  | some newKeys =>
    if newKeys.length = keys.length then .ok ()
    else .error (.invalidStep kind.name (.unmatchedNewKeys newKeys.length keys.length))

/-- What a step of the given kind does, from its parameters; `nested` compiles the steps within. -/
def compileOp (nested : List StepConfig → Except StepError (List TransformSpec))
    (config : StepConfig) : TransformKind → Except StepError TransformOp
  | .array => do
    let (array, steps) ← params config (params₂ arrayKeyField transformationField)
    return .each array (← nested steps)
  | .loop => do
    let (array, steps) ← params config (params₂ valuesField transformationField)
    return .each array (← nested steps)
  | .select => return .select (← params config (param relevantKeysField))
  | .selectRange => .ok .unimplemented
  | .append => .ok .unimplemented
  | .synonym => .ok .unimplemented
  | .addSymbol => return .addSymbol (← params config (param patternField))
  | .replace => do
    let (oldValue, newValue, count) ← params config replaceParams
    return .replace oldValue newValue count
  | .dateFormat => return .dateFormat (← params config (param formatField))
  | .dateWeekday => return .dateWeekday (← params config (param formatField))
  | .dateNow => return .dateNow (← params config (param formatField))
  | .windDirection => do
    let (delimiter, dict) ← params config (params₂ delimiterField dictField)
    return .windDirection delimiter dict
  | .chooseRandom => do
    let (choice, dict) ← params config (params₂ choiceField dictField)
    return .chooseRandom choice dict

/-- Compiles a step whose nested lists lie at most so many levels deep. -/
def compileWithin (table : DispatchTable) : (levels : Nat) → StepConfig →
    Except StepError TransformSpec
  | 0, config => .error (.unknownType .transform config.type)
  | levels + 1, config => do
    let kind ← table.transform config.type
    let (keys, newKeys) ← params config keyParams
    if kind.needsKeys ∧ keys.isEmpty then .error (.invalidStep kind.name .noKeys)
    else
      matchKeys kind keys newKeys
      let op ← compileOp (fun steps => steps.mapM (compileWithin table levels)) config kind
      return .mk kind keys newKeys op

/-- Compiles a transform and everything nested in it. -/
def compile (table : DispatchTable) (config : StepConfig) : Except StepError TransformSpec :=
  compileWithin table (config.paramsValue.depth + 1) config

/-- Compiles the list of a group of transforms. -/
def compileGroup (table : DispatchTable) (config : StepConfig) :
    Except StepError (List TransformSpec) := do
  let steps ← params config (param transformationField)
  steps.mapM (compile table)

end TransformSpec

end Newsreel
