import Newsreel.Context.Loop
import Newsreel.Fetch.Spec
import Newsreel.Web.Charset

/-!
Requests with every template in them filled in.

The parts are filled in one after the other: method, headers, body, address, parameters, parameters
made of arrays, and what is wanted of the response. The first part that fails decides.
-/

namespace Newsreel

inductive ResponseFormat where
  | json
  | text
  /-- Bytes, kept as text in base 64. -/
  | binary
  deriving DecidableEq, Repr

/-- A format by its name in any case; every unknown name asks for bytes. -/
def ResponseFormat.ofName (name : String) : ResponseFormat :=
  match Text.lowerAscii name with
  | "json" => .json
  | "text" => .text
  | _ => .binary

inductive RequestBody where
  | empty
  | json (value : Value)
  | text (text : String)
  | bytes (bytes : List UInt8)

structure Request where
  method : String
  url : String
  headers : List (String × String)
  body : RequestBody
  params : List (String × String)
  responseFormat : ResponseFormat
  includeHeaders : Bool

/-- Signs that may stand in the name of a method or a header. -/
def isTokenChar (c : Char) : Bool :=
  c.isAlphanum || "!#$%&'*+-.^_`|~".toList.contains c

def isToken (s : String) : Bool := s ≠ "" && s.toList.all isTokenChar

/-- Names of methods do without some of the signs. -/
def isMethodName (s : String) : Bool :=
  isToken s && s.toList.all fun c => !"#$%&'".toList.contains c

namespace RequestSpec

/-- The fields of a mapping as pairs of texts. -/
def pairs (field : String) : Value → Except StepError (List (String × String))
  | .object fields => .ok (fields.map fun (name, value) => (name, value.text))
  | .null => .ok []
  | other => .error (.invalidValue field (.notAMapping (Json.compact other)))

/-- An optional mapping of templates as pairs of texts. -/
def formatPairs (context : Context) (apiKeyName : Option String) (scope : Scope) (field : String) :
    Option Value → Except StepError (List (String × String))
  | none => .ok []
  | some value => do pairs field (← context.deepFormat apiKeyName scope value)

/-- The method, in capital letters. -/
def buildMethod (spec : RequestSpec) (context : Context) (scope : Scope) :
    Except StepError String := do
  let name := Text.upperAscii (← context.formatText scope spec.method)
  if isMethodName name then return name
  else .error (.invalidValue "method" (.unknownMethod name))

def buildBody (spec : RequestSpec) (context : Context) (apiKeyName : Option String)
    (scope : Scope) : Except StepError RequestBody := do
  let type ← context.formatText scope spec.bodyType
  match spec.body with
  | none => return .empty
  | some body =>
    if type = "json" then return .json (← context.deepFormat apiKeyName scope body)
    else
      let text := (← context.formatWithKey apiKeyName scope body).text
      match spec.bodyEncoding with
      | some label => return .bytes (← Web.encode text label)
      | none => return .text text

end RequestSpec

namespace ParamsArray

/-- Pattern and delimiter for each item. -/
def pieces (array : ParamsArray) (context : Context) (apiKeyName : Option String) :
    List Iteration → Except StepError (List (String × String))
  | [] => .ok []
  | iteration :: rest => do
    let text ← context.formatString apiKeyName iteration.scope array.pattern
    let delimiter ← context.formatString apiKeyName iteration.scope array.delimiter
    let pieces ← array.pieces context apiKeyName rest
    return (text, delimiter) :: pieces

/-- The text without the last delimiter, if it ends with it. -/
def dropLast (delimiter text : String) : String :=
  match Text.before? delimiter.toList text.toList with
  | some front => String.ofList front
  | none => text

/-- The texts of all items, each followed by its delimiter but the last. -/
def join (array : ParamsArray) (context : Context) (apiKeyName : Option String) (scope : Scope) :
    Except StepError String := do
  let iterations ← context.iterations array.array "params_array" scope
  let pieces ← array.pieces context apiKeyName iterations
  let joined := String.join (pieces.map fun (text, delimiter) => text ++ delimiter)
  return dropLast ((pieces.getLast?.map (·.2)).getD "") joined

/-- The parameters with those made of arrays. One of these takes the place of an earlier parameter
of its name and goes to the end. -/
def extend (context : Context) (apiKeyName : Option String) (scope : Scope)
    (params : List (String × String)) :
    List ParamsArray → Except StepError (List (String × String))
  | [] => .ok params
  | array :: arrays => do
    let joined ← array.join context apiKeyName scope
    let others := params.filter fun param => param.1 ≠ array.key
    extend context apiKeyName scope (others ++ [(array.key, joined)]) arrays

end ParamsArray

/-- The request that a specification stands for. -/
def RequestSpec.build (spec : RequestSpec) (context : Context) (apiKeyName : Option String)
    (scope : Scope) : Except StepError Request := do
  let method ← spec.buildMethod context scope
  let headers ← formatPairs context apiKeyName scope "headers" spec.headers
  let body ← spec.buildBody context apiKeyName scope
  let url ← context.formatString apiKeyName scope spec.urlPattern
  let given ← formatPairs context apiKeyName scope "params" spec.params
  let params ← ParamsArray.extend context apiKeyName scope given spec.paramsArray
  let format ← context.formatText scope spec.responseFormat
  return {
    method, url, headers, body, params
    responseFormat := ResponseFormat.ofName format
    includeHeaders := spec.includeHeaders }

end Newsreel
