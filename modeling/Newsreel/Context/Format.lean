import Newsreel.Context.Basic
import Newsreel.Template

/-!
Templates filled in from a context.

A template that is one placeholder without decimal places gives the value itself; any other one
gives a text. Texts that come out are never read as templates again.
-/

namespace Newsreel

/-- The name under which a template finds the credential of its step. -/
def apiKeyPath : String := "_api_key"

namespace Context

/-- The value of a placeholder. Only a step that names a credential can read it. -/
def resolve (context : Context) (apiKeyName : Option String) (scope : Scope)
    (placeholder : Placeholder) : Except StepError Value :=
  if placeholder.path = apiKeyPath then
    match apiKeyName with
    | none => .error (.unresolved apiKeyPath)
    | some name => match context.config.apiKey? name with
      | some key => .ok (.string key)
      | none => .error (.missingApiKey name)
  else context.get placeholder.path scope

/-- The text of a part of a template. -/
def partText (context : Context) (apiKeyName : Option String) (scope : Scope) :
    Part → Except StepError String
  | .literal text => .ok text
  | .placeholder p => do p.render (← context.resolve apiKeyName scope p)

/-- The texts of the parts, one after the other; the first part that fails decides. -/
def partsText (context : Context) (apiKeyName : Option String) (scope : Scope) :
    List Part → Except StepError String
  | [] => .ok ""
  | part :: parts => do
    let text ← context.partText apiKeyName scope part
    let rest ← context.partsText apiKeyName scope parts
    return text ++ rest

/-- What a template stands for. A text without braces stands for itself. -/
def formatTemplate (context : Context) (apiKeyName : Option String) (scope : Scope)
    (template : String) : Except StepError Value :=
  if template.toList.any fun c => c = '\x7b' || c = '\x7d' then do
    let parts ← Template.parse template
    match Template.single? parts with
    | some placeholder => context.resolve apiKeyName scope placeholder
    | none => return .string (← context.partsText apiKeyName scope parts)
  else .ok (.string template)

/-- What a value stands for: a string is a template, any other value stands for itself. -/
def formatWithKey (context : Context) (apiKeyName : Option String) (scope : Scope) :
    Value → Except StepError Value
  | .string template => context.formatTemplate apiKeyName scope template
  | value => .ok value

def format (context : Context) (scope : Scope) (value : Value) : Except StepError Value :=
  context.formatWithKey none scope value

/-- The text of what a template stands for. -/
def formatString (context : Context) (apiKeyName : Option String) (scope : Scope)
    (template : String) : Except StepError String :=
  (context.formatTemplate apiKeyName scope template).map Value.text

/-- The text of what a value stands for. -/
def formatText (context : Context) (scope : Scope) (value : Value) : Except StepError String :=
  (context.format scope value).map Value.text

mutual
/-- The value with every string in it replaced by what it stands for; names of fields stay. -/
def deepFormat (context : Context) (apiKeyName : Option String) (scope : Scope) :
    Value → Except StepError Value
  | .null => .ok .null
  | .bool b => .ok (.bool b)
  | .number n => .ok (.number n)
  | .string template => context.formatTemplate apiKeyName scope template
  | .array items => do
    return .array (← context.deepFormatItems apiKeyName scope items)
  | .object fields => do
    return .object (← context.deepFormatFields apiKeyName scope fields)

def deepFormatItems (context : Context) (apiKeyName : Option String) (scope : Scope) :
    List Value → Except StepError (List Value)
  | [] => .ok []
  | item :: items => do
    let item ← context.deepFormat apiKeyName scope item
    let items ← context.deepFormatItems apiKeyName scope items
    return item :: items

def deepFormatFields (context : Context) (apiKeyName : Option String) (scope : Scope) :
    List (String × Value) → Except StepError (List (String × Value))
  | [] => .ok []
  | (name, value) :: fields => do
    let value ← context.deepFormat apiKeyName scope value
    let fields ← context.deepFormatFields apiKeyName scope fields
    return (name, value) :: fields
end

end Context

end Newsreel
