import Newsreel.Transform.Spec

/-!
Fetches as they are compiled from documents: where a value comes from and the name under which it is
known to fixtures and snapshots. A fetch nested in another one has the outer name unless it gives
its own.
-/

namespace Newsreel

/-- A query parameter made of one text per item of an array. -/
structure ParamsArray where
  key : String
  array : Value
  pattern : String
  delimiter : String

/-- A request to a server; every text of it may be a template. -/
structure RequestSpec where
  urlPattern : String
  method : Value
  headers : Option Value
  body : Option Value
  /-- A body of the type `json` is sent as a document, any other one as plain text. -/
  bodyType : Value
  bodyEncoding : Option String
  params : Option Value
  paramsArray : List ParamsArray
  responseFormat : Value
  includeHeaders : Bool

mutual
/-- A compiled fetch. -/
inductive FetchSpec where
  | mk (kind : FetchKind) (name : String) (apiKeyName : Option String) (variant : FetchVariant)

inductive FetchVariant where
  | request (request : RequestSpec)
  | input (input : Value)
  /-- A snapshot of an earlier run: the one at a place, counted from the newest, or the one nearest
  to a time so many days ago. The alternative is for want of a snapshot. -/
  | memory (useLast : Nat) (timedelta : Option Float) (alternative : Option FetchSpec)
  | multiple (request : RequestSpec) (stepsValue useLoopAsKey : Value)
  | multipleCustom (requests : List FetchSpec) (keys : Option (List Value))
end

open Decode

namespace ParamsArray

def keyField : RecordField String := ⟨"key", text, none⟩
def arrayField : RecordField Value := ⟨"array", any, none⟩
def patternField : RecordField String := ⟨"pattern", text, none⟩
def delimiterField : RecordField String := ⟨"delimiter", text, some ""⟩

def ofValue (value : Value) : Except DecodeFault ParamsArray := do
  let given ← record "ParamsArray"
    [keyField.check, arrayField.check, patternField.check, delimiterField.check] value
  return {
    key := ← keyField.get given
    array := ← arrayField.get given
    pattern := ← patternField.get given
    delimiter := ← delimiterField.get given }

def toValue (params : ParamsArray) : Value :=
  .object [("key", .string params.key), ("array", params.array),
    ("pattern", .string params.pattern), ("delimiter", .string params.delimiter)]

end ParamsArray

namespace RequestSpec

def urlField : RecordField String := ⟨"url_pattern", text, none⟩
def methodField : RecordField Value := ⟨"method", any, some (.string "get")⟩
def headersField : RecordField (Option Value) := ⟨"headers", option any, some none⟩
def bodyField : RecordField (Option Value) := ⟨"body", option any, some none⟩
def bodyTypeField : RecordField Value := ⟨"body_type", any, some (.string "json")⟩
def bodyEncodingField : RecordField (Option String) := ⟨"body_encoding", option text, some none⟩
def paramsField : RecordField (Option Value) := ⟨"params", option any, some none⟩
def paramsArrayField : RecordField (List ParamsArray) :=
  ⟨"params_array", list ParamsArray.ofValue, some []⟩
def responseFormatField : RecordField Value := ⟨"response_format", any, some (.string "json")⟩
def includeHeadersField : RecordField Bool := ⟨"include_headers", flag, some false⟩

def checks : List Check :=
  [urlField.check, methodField.check, headersField.check, bodyField.check, bodyTypeField.check,
    bodyEncodingField.check, paramsField.check, paramsArrayField.check, responseFormatField.check,
    includeHeadersField.check]

def ofValue (value : Value) : Except DecodeFault RequestSpec := do
  let given ← record "RequestSpec" checks value
  return {
    urlPattern := ← urlField.get given
    method := ← methodField.get given
    headers := ← headersField.get given
    body := ← bodyField.get given
    bodyType := ← bodyTypeField.get given
    bodyEncoding := ← bodyEncodingField.get given
    params := ← paramsField.get given
    paramsArray := ← paramsArrayField.get given
    responseFormat := ← responseFormatField.get given
    includeHeaders := ← includeHeadersField.get given }

def toValue (spec : RequestSpec) : Value :=
  .object [
    ("url_pattern", .string spec.urlPattern),
    ("method", spec.method),
    ("headers", Value.ofOption id spec.headers),
    ("body", Value.ofOption id spec.body),
    ("body_type", spec.bodyType),
    ("body_encoding", Value.ofOption .string spec.bodyEncoding),
    ("params", Value.ofOption id spec.params),
    ("params_array", .array (spec.paramsArray.map ParamsArray.toValue)),
    ("response_format", spec.responseFormat),
    ("include_headers", .bool spec.includeHeaders)]

end RequestSpec

namespace FetchSpec

def kind : FetchSpec → FetchKind
  | .mk kind _ _ _ => kind

/-- The name that selects fixtures and snapshots. -/
def name : FetchSpec → String
  | .mk _ name _ _ => name

def apiKeyName : FetchSpec → Option String
  | .mk _ _ apiKeyName _ => apiKeyName

def variant : FetchSpec → FetchVariant
  | .mk _ _ _ variant => variant

open TransformSpec (params param params₂)

def nameField : RecordField (Option String) := ⟨"name", option text, some none⟩
def apiKeyNameField : RecordField (Option String) := ⟨"api_key_name", option text, some none⟩
def inputField : RecordField Value := ⟨"input", any, none⟩
def useLastField : RecordField Nat := ⟨"use_last", count, some 1⟩
def timedeltaField : RecordField (Option Float) := ⟨"timedelta", option real, some none⟩
def alternativeField : RecordField (Option StepConfig) :=
  ⟨"alternative", option StepConfig.ofValue, some none⟩
def stepsValueField : RecordField Value := ⟨"steps_value", any, none⟩
def useLoopAsKeyField : RecordField Value := ⟨"use_loop_as_key", any, some .null⟩
def requestsField : RecordField (List StepConfig) := ⟨"requests", list StepConfig.ofValue, none⟩
def keysField : RecordField (List Value) := ⟨"steps_value", list any, some []⟩
def keyedField : RecordField Bool := ⟨"use_loop_as_key", flag, some false⟩

def memoryParams (value : Value) :
    Except DecodeFault (Nat × Option Float × Option StepConfig) := do
  let given ← openRecord "MemoryParams"
    [useLastField.check, timedeltaField.check, alternativeField.check] value
  return (← useLastField.get given, ← timedeltaField.get given, ← alternativeField.get given)

def customParams (value : Value) :
    Except DecodeFault (List StepConfig × List Value × Bool) := do
  let given ← openRecord "MultipleCustomParams"
    [requestsField.check, keysField.check, keyedField.check] value
  return (← requestsField.get given, ← keysField.get given, ← keyedField.get given)

/-- What a fetch of the given kind does, from its parameters; `nested` compiles a fetch within. -/
def compileVariant (nested : StepConfig → Except StepError FetchSpec) (config : StepConfig) :
    FetchKind → Except StepError FetchVariant
  | .request => return .request (← params config RequestSpec.ofValue)
  | .input => return .input (← params config (param inputField))
  | .memory => do
    let (useLast, timedelta, alternative) ← params config memoryParams
    return .memory useLast timedelta (← alternative.mapM nested)
  | .multiple => do
    let (stepsValue, useLoopAsKey) ← params config (params₂ stepsValueField useLoopAsKeyField)
    return .multiple (← params config RequestSpec.ofValue) stepsValue useLoopAsKey
  | .multipleCustom => do
    let (requests, keys, keyed) ← params config customParams
    if keyed ∧ keys.length ≠ requests.length then
      .error (.invalidStep FetchKind.multipleCustom.name
        (.unmatchedRequests keys.length requests.length))
    else
      return .multipleCustom (← requests.mapM nested) (if keyed then some keys else none)

/-- Compiles a fetch whose nested fetches lie at most so many levels deep. -/
def compileWithin (table : DispatchTable) : (levels : Nat) → (inherited : Option String) →
    StepConfig → Except StepError FetchSpec
  | 0, _, config => .error (.unknownType .fetch config.type)
  | levels + 1, inherited, config => do
    let kind ← table.fetch config.type
    let (own, apiKeyName) ← params config (params₂ nameField apiKeyNameField)
    let name := (own.or inherited).getD kind.name
    let variant ← compileVariant (compileWithin table levels (some name)) config kind
    return .mk kind name apiKeyName variant

/-- Compiles a fetch and everything nested in it. -/
def compile (table : DispatchTable) (inherited : Option String) (config : StepConfig) :
    Except StepError FetchSpec :=
  compileWithin table (config.paramsValue.depth + 1) inherited config

end FetchSpec

end Newsreel
