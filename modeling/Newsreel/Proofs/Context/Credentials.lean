import Newsreel.Context.Loop
import Newsreel.Proofs.Context.Local

/-!
What paths and templates see of the credentials.

A credential is found by its name and in no other way, and only a template of a fetch that gives a
name asks for one. Paths, loops and templates without a name read the same whatever the credentials
are; a template with a name reads the same as long as that name stands for the same.
-/

namespace Newsreel

namespace JobConfig

/-- The configuration with other credentials. -/
def withKeys (keys : List (String × String)) (config : JobConfig) : JobConfig :=
  { config with apiKeys := keys }

/-- Other credentials in which some names stand for the same, or are missing as well. -/
def AgreesOn (config : JobConfig) (keys : List (String × String)) (names : List String) : Prop :=
  ∀ name ∈ names, (config.withKeys keys).apiKey? name = config.apiKey? name

/-- Without names there is nothing to agree on. -/
theorem agreesOn_nil (config : JobConfig) (keys : List (String × String)) :
    config.AgreesOn keys [] := nofun

theorem agreesOn_append_iff {config : JobConfig} {keys : List (String × String)}
    {names more : List String} : config.AgreesOn keys (names ++ more) ↔
      config.AgreesOn keys names ∧ config.AgreesOn keys more := List.forall_mem_append

end JobConfig

namespace Context

variable {context : Context} {keys : List (String × String)} {apiKeyName : Option String}

/-- The context with other credentials. -/
def withKeys (keys : List (String × String)) (context : Context) : Context :=
  { context with config := context.config.withKeys keys }

@[simp] theorem withKeys_data : (context.withKeys keys).data = context.data := rfl

@[simp] theorem withKeys_config : (context.withKeys keys).config = context.config.withKeys keys := rfl

/-! Paths. -/

@[simp] theorem expand_withKeys (path : String) (scope : Scope) (segments : List String) :
    (context.withKeys keys).expand path scope segments = context.expand path scope segments := by
  unfold expand
  rfl

@[simp] theorem locateWithin_withKeys (path : String) (scope : Scope) (steps : Nat)
    (segments : List String) : (context.withKeys keys).locateWithin path scope steps segments =
      context.locateWithin path scope steps segments := by
  induction steps generalizing segments with
  | zero => rfl
  | succ steps ih => simp only [locateWithin, expand_withKeys, ih]

@[simp] theorem locate_withKeys (path : String) (scope : Scope) :
    (context.withKeys keys).locate path scope = context.locate path scope := by
  simp only [locate, locateWithin_withKeys]

/-- Reading, in the configuration as elsewhere, sees no credential. -/
@[simp] theorem get_withKeys (path : String) (scope : Scope) :
    (context.withKeys keys).get path scope = context.get path scope := by
  rw [get, get, locate_withKeys]
  rfl

/-- A write neither sees the credentials nor changes them. -/
theorem insert_withKeys (path : String) (value : Value) (scope : Scope) :
    (context.withKeys keys).insert path value scope =
      ((context.insert path value scope).1, (context.insert path value scope).2.withKeys keys) := by
  rw [insert, insert, locate_withKeys]
  split <;> rfl

/-! Templates. -/

theorem resolve_withKeys (agree : context.config.AgreesOn keys apiKeyName.toList) (scope : Scope)
    (placeholder : Placeholder) : (context.withKeys keys).resolve apiKeyName scope placeholder =
      context.resolve apiKeyName scope placeholder := by
  cases apiKeyName with
  | none => simp only [resolve, get_withKeys]
  | some name => simp only [resolve, get_withKeys, withKeys_config, agree name (by simp)]

theorem formatTemplate_withKeys (agree : context.config.AgreesOn keys apiKeyName.toList)
    (scope : Scope) (template : String) :
    (context.withKeys keys).formatTemplate apiKeyName scope template =
      context.formatTemplate apiKeyName scope template :=
  formatTemplate_congr fun placeholder _ => resolve_withKeys agree scope placeholder

theorem formatWithKey_withKeys (agree : context.config.AgreesOn keys apiKeyName.toList)
    (scope : Scope) (value : Value) :
    (context.withKeys keys).formatWithKey apiKeyName scope value =
      context.formatWithKey apiKeyName scope value := by
  cases value with
  | string template => exact formatTemplate_withKeys agree scope template
  | _ => rfl

theorem formatString_withKeys (agree : context.config.AgreesOn keys apiKeyName.toList)
    (scope : Scope) (template : String) :
    (context.withKeys keys).formatString apiKeyName scope template =
      context.formatString apiKeyName scope template := by
  rw [formatString, formatString, formatTemplate_withKeys agree]

@[simp] theorem format_withKeys (scope : Scope) (value : Value) :
    (context.withKeys keys).format scope value = context.format scope value :=
  formatWithKey_withKeys (context.config.agreesOn_nil keys) scope value

@[simp] theorem formatText_withKeys (scope : Scope) (value : Value) :
    (context.withKeys keys).formatText scope value = context.formatText scope value := by
  rw [formatText, formatText, format_withKeys]

mutual
theorem deepFormat_withKeys (agree : context.config.AgreesOn keys apiKeyName.toList)
    (scope : Scope) : (value : Value) →
      (context.withKeys keys).deepFormat apiKeyName scope value =
        context.deepFormat apiKeyName scope value
  | .null | .bool _ | .number _ => by simp only [deepFormat]
  | .string template => by simp only [deepFormat, formatTemplate_withKeys agree]
  | .array items => by simp only [deepFormat, deepFormatItems_withKeys agree scope items]
  | .object fields => by simp only [deepFormat, deepFormatFields_withKeys agree scope fields]

theorem deepFormatItems_withKeys (agree : context.config.AgreesOn keys apiKeyName.toList)
    (scope : Scope) : (items : List Value) →
      (context.withKeys keys).deepFormatItems apiKeyName scope items =
        context.deepFormatItems apiKeyName scope items
  | [] => by simp only [deepFormatItems]
  | item :: items => by
    simp only [deepFormatItems, deepFormat_withKeys agree scope item,
      deepFormatItems_withKeys agree scope items]

theorem deepFormatFields_withKeys (agree : context.config.AgreesOn keys apiKeyName.toList)
    (scope : Scope) : (fields : List (String × Value)) →
      (context.withKeys keys).deepFormatFields apiKeyName scope fields =
        context.deepFormatFields apiKeyName scope fields
  | [] => by simp only [deepFormatFields]
  | (name, value) :: fields => by
    simp only [deepFormatFields, deepFormat_withKeys agree scope value,
      deepFormatFields_withKeys agree scope fields]
end

/-! Loops. -/

@[simp] theorem arrayItems_withKeys (array : Value) (scope : Scope) :
    (context.withKeys keys).arrayItems array scope = context.arrayItems array scope := by
  have nameless : context.config.AgreesOn keys (none : Option String).toList :=
    context.config.agreesOn_nil keys
  cases array with
  | string spec => simp only [arrayItems, locate_withKeys, get_withKeys]
  | array items => simp only [arrayItems, deepFormat_withKeys nameless]
  | _ => rfl

@[simp] theorem iterations_withKeys (array : Value) (loopId : String) (scope : Scope) :
    (context.withKeys keys).iterations array loopId scope =
      context.iterations array loopId scope := by
  simp only [iterations, arrayItems_withKeys]

end Context

end Newsreel
