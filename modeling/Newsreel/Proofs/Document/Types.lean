import Newsreel.Proofs.Attempt
import Newsreel.Run.Pipeline

/-!
The types that a document states.

Steps, transforms within groups and loops, alternatives, nested requests and the modes of sequences
each state a type, at any depth. A table decides which kind a type is, and so which fields hold
further types. A document that is compiled states no type that the table does not know.
-/

namespace Newsreel

namespace Value

/-- The value under a name of an object. -/
def field? (name : String) : Value → Option Value
  | .object fields => Fields.find? name fields
  | _ => none

/-- The items of a list under a name of an object. -/
def itemsAt (name : String) (value : Value) : List Value := match value.field? name with
  | some (.array items) => items
  | _ => []

/-- The type that a step states. -/
def type? (step : Value) : Option String := match step.field? "type" with
  | some (.string name) => some name
  | _ => none

/-- The type that the mode of a sequence states. A mode may also be a list of its fields. -/
def modeType? : Value → Option String
  | .array (.string name :: _) => some name
  | mode => mode.type?

/-- The type that is stated where a table of the given kind governs. -/
def statedType? (value : Value) : Registry → Option String
  | .sequence => value.modeType?
  | .step | .fetch | .transform => value.type?

end Value

/-- A name is in the table of the given kind. -/
def DispatchTable.Registers (table : DispatchTable) (name : String) : Registry → Prop
  | .step => (table.steps.find? name).isSome
  | .fetch => (table.fetches.find? name).isSome
  | .transform => (table.transforms.find? name).isSome
  | .sequence => (table.sequences.find? name).isSome

/-- A document has a value where a table of some kind governs. -/
inductive Document.Writes (table : DispatchTable) (document : Document) : Registry → Value → Prop
  where
  | step {config : StepConfig} (listed : config ∈ document.steps) :
    Writes table document .step config.toValue
  /-- A step that fetches is a fetch, one that transforms a transform. -/
  | fetch {step : Value} {type : String} {kind : FetchKind}
    (written : Writes table document .step step) (states : step.type? = some type)
    (known : table.steps.find? type = some (.fetch kind)) : Writes table document .fetch step
  | transform {step : Value} {type : String} {kind : TransformKind}
    (written : Writes table document .step step) (states : step.type? = some type)
    (known : table.steps.find? type = some (.transform kind)) :
    Writes table document .transform step
  | grouped {step item : Value} {type : String} (written : Writes table document .step step)
    (states : step.type? = some type) (known : table.steps.find? type = some .transformGroup)
    (nested : item ∈ step.itemsAt "transformation") : Writes table document .transform item
  | looped {step item : Value} {type : String} {kind : TransformKind}
    (written : Writes table document .transform step) (states : step.type? = some type)
    (known : table.transforms.find? type = some kind) (loops : kind = .array ∨ kind = .loop)
    (nested : item ∈ step.itemsAt "transformation") : Writes table document .transform item
  | alternative {step item : Value} {type : String} (written : Writes table document .fetch step)
    (states : step.type? = some type) (known : table.fetches.find? type = some .memory)
    (nested : step.field? "alternative" = some item) (given : item ≠ .null) :
    Writes table document .fetch item
  | requested {step item : Value} {type : String} (written : Writes table document .fetch step)
    (states : step.type? = some type) (known : table.fetches.find? type = some .multipleCustom)
    (nested : item ∈ step.itemsAt "requests") : Writes table document .fetch item
  | mode {step item : Value} {type : String} (written : Writes table document .step step)
    (states : step.type? = some type) (known : table.steps.find? type = some .sequence)
    (nested : step.field? "sequence" = some item) : Writes table document .sequence item

/-! Records that are read. -/

theorem Outcome.mapM_ok {ε α β : Type} {f : α → Except ε β} {items : List α} {results : List β}
    (success : items.mapM f = .ok results) {item : α} (listed : item ∈ items) :
    ∃ result ∈ results, f item = .ok result := by
  obtain ⟨place, here⟩ := List.mem_iff_getElem?.mp listed
  obtain ⟨result, there, read⟩ := exists_at_of_forall₂ (mapM_ok_iff.mp success) here
  exact ⟨result, List.mem_of_getElem? there, read⟩

theorem Outcome.mapM_ok_at {ε α β : Type} {f : α → Except ε β} {items : List α} {results : List β}
    (success : items.mapM f = .ok results) {place : Nat} {result : β}
    (there : results[place]? = some result) :
    ∃ item, items[place]? = some item ∧ f item = .ok result :=
  exists_at_of_forall₂ (mapM_ok_iff.mp success).flip there

theorem Outcome.mapM_ok_made {ε α β : Type} {f : α → Except ε β} {items : List α}
    {results : List β} (success : items.mapM f = .ok results) {result : β}
    (made : result ∈ results) : ∃ item ∈ items, f item = .ok result := by
  obtain ⟨place, there⟩ := List.mem_iff_getElem?.mp made
  obtain ⟨item, here, read⟩ := mapM_ok_at success there
  exact ⟨item, List.mem_of_getElem? here, read⟩

namespace Decode

theorem openRecord_object {name : String} {checks : List Check} {fields given : Fields}
    (success : openRecord name checks (.object fields) = .ok given) : given = fields := by
  rw [openRecord] at success
  split at success
  · cases success
  · cases success
    rfl

theorem RecordField.get_of_find? {α : Type} {field : RecordField α} {given : Fields}
    {value : Value} {a : α} (success : field.get given = .ok a)
    (found : Fields.find? field.name given = some value) :
    field.decode value = .ok a := by
  rw [get, found] at success
  exact success

/-- What is read of a field was given, or else stands for the field where it is absent. -/
theorem RecordField.get_cases {α : Type} {field : RecordField α} {given : Fields} {a : α}
    (success : field.get given = .ok a) :
    (∃ value, Fields.find? field.name given = some value ∧ field.decode value = .ok a) ∨
      Fields.find? field.name given = none ∧ field.absent = some a := by
  cases found : Fields.find? field.name given with
  | some value => exact Or.inl ⟨value, rfl, get_of_find? success found⟩
  | none =>
    rw [get, found] at success
    cases absent : field.absent with
    | none =>
      rw [absent] at success
      cases success
    | some default =>
      rw [absent] at success
      cases success
      exact Or.inr ⟨rfl, rfl⟩

theorem text_ok {value : Value} {s : String} (success : text value = .ok s) :
    value = .string s := by
  cases value <;> cases success
  rfl

theorem option_ok {α : Type} {decode : Value → Except DecodeFault α} {value : Value}
    {result : Option α} (success : option decode value = .ok result) (given : value ≠ .null) :
    ∃ a, result = some a ∧ decode value = .ok a := by
  have reads : option decode value = (decode value).map some := by
    cases value with
    | null => exact absurd rfl given
    | _ => rfl
  rw [reads] at success
  cases decoded : decode value with
  | error fault =>
    rw [decoded] at success
    cases success
  | ok a =>
    rw [decoded] at success
    cases success
    exact ⟨a, rfl, rfl⟩

end Decode

open Decode TransformSpec

/-- A configuration is what has been read of a value. -/
structure StepConfig.Represents (config : StepConfig) (value : Value) : Prop where
  type : value.type? = some config.type
  params : ∀ name, name ≠ "type" → value.field? name = Fields.find? name config.params

namespace StepConfig

variable {config : StepConfig} {value item : Value}

theorem represents_toValue (config : StepConfig) : config.Represents config.toValue where
  type := rfl
  params name other := by
    rw [toValue, Value.field?, Fields.find?, if_neg (Ne.symm other)]

theorem find?_filter {p : String × Value → Bool} {name : String} {fields : Fields}
    (kept : ∀ value, p (name, value) = true) :
    Fields.find? name (fields.filter p) = Fields.find? name fields := by
  induction fields with
  | nil => rfl
  | cons field rest ih =>
    obtain ⟨other, value⟩ := field
    by_cases same : other = name
    · subst same
      rw [List.filter_cons_of_pos (kept value), Fields.find?, Fields.find?, if_pos rfl, if_pos rfl]
    · rw [Fields.find?, if_neg same, ← ih, List.filter_cons]
      split
      · rw [Fields.find?, if_neg same]
      · rfl

theorem represents_ofValue (read : ofValue value = .ok config) : config.Represents value := by
  rw [ofValue, Outcome.bind_ok_iff] at read
  obtain ⟨given, opened, read⟩ := read
  obtain ⟨type, typed, read⟩ := Outcome.bind_ok_iff.mp read
  cases read
  cases value with
  | object fields =>
    obtain rfl := openRecord_object opened
    constructor
    · obtain ⟨stated, found, decoded⟩ | ⟨-, ⟨⟩⟩ := RecordField.get_cases typed
      obtain rfl := text_ok decoded
      have found : Fields.find? "type" given = some (.string type) := found
      rw [Value.type?, Value.field?, found]
    · intro name other
      refine (find?_filter fun value => ?_).symm
      exact decide_eq_true other
  | _ => cases opened

/-- The type of a configuration is the stated one. -/
theorem Represents.type_eq (represents : config.Represents value) {type : String}
    (states : value.type? = some type) : config.type = type :=
  Option.some.inj (represents.type.symm.trans states)

/-- The steps that have been read of a field were given as a list, or stand for it where it is
absent. -/
theorem items_of_get {field : RecordField (List StepConfig)} (decodes : field.decode = list ofValue)
    {given : Fields} {configs : List StepConfig} (success : field.get given = .ok configs) :
    (∃ items, Fields.find? field.name given = some (.array items) ∧
      items.mapM ofValue = .ok configs) ∨ field.absent = some configs := by
  refine (RecordField.get_cases success).imp ?_ And.right
  rintro ⟨stated, found, decoded⟩
  rw [decodes] at decoded
  cases stated with
  | array items => exact ⟨items, found, decoded⟩
  | _ => cases decoded

/-- The items of a list that has been read as steps have been read as steps. -/
theorem Represents.items (represents : config.Represents value)
    (field : RecordField (List StepConfig)) (decodes : field.decode = list ofValue)
    (named : field.name ≠ "type") {configs : List StepConfig}
    (success : field.get config.params = .ok configs) (nested : item ∈ value.itemsAt field.name) :
    ∃ inner ∈ configs, inner.Represents item := by
  rw [Value.itemsAt, represents.params _ named] at nested
  cases found : Fields.find? field.name config.params with
  | none =>
    rw [found] at nested
    cases nested
  | some stated =>
    rw [found] at nested
    have decoded := RecordField.get_of_find? success found
    rw [decodes] at decoded
    cases stated with
    | array items =>
      obtain ⟨inner, listed, read⟩ := Outcome.mapM_ok decoded nested
      exact ⟨inner, listed, represents_ofValue read⟩
    | _ => cases nested

end StepConfig

namespace TransformSpec

variable {α β : Type} {config : StepConfig}

theorem params_ok {decode : Value → Except DecodeFault α} {a : α}
    (success : params config decode = .ok a) : decode (.object config.params) = .ok a := by
  rw [params] at success
  split at success
  · next read =>
    cases success
    exact read
  · cases success

theorem param_ok {field : RecordField α} {a : α} (success : params config (param field) = .ok a) :
    field.get config.params = .ok a := by
  obtain ⟨given, opened, read⟩ := Outcome.bind_ok_iff.mp (params_ok success)
  rwa [openRecord_object opened] at read

theorem params₂_ok {first : RecordField α} {second : RecordField β} {a : α} {b : β}
    (success : params config (params₂ first second) = .ok (a, b)) :
    first.get config.params = .ok a ∧ second.get config.params = .ok b := by
  obtain ⟨given, opened, read⟩ := Outcome.bind_ok_iff.mp (params_ok success)
  obtain ⟨left, one, read⟩ := Outcome.bind_ok_iff.mp read
  obtain ⟨right, two, read⟩ := Outcome.bind_ok_iff.mp read
  cases read
  rw [openRecord_object opened] at one two
  exact ⟨one, two⟩

end TransformSpec

/-! What compiling a part of a document finds out about it. -/

theorem DispatchTable.orUnknown_ok {κ : Type} {registry : Registry} {name : String}
    {entry : Option κ} {kind : κ} (success : orUnknown registry name entry = .ok kind) :
    entry = some kind := by
  cases entry with
  | none => cases success
  | some found =>
    cases success
    rfl

open DispatchTable (orUnknown_ok)

section Parts

variable {table : DispatchTable} {config : StepConfig}

theorem Step.compile_ok {index : Nat} {step : Step}
    (success : compile table index config = .ok step) :
    ∃ kind, table.steps.find? config.type = some kind ∧
      compileAction table config kind = .ok step.action := by
  obtain ⟨kind, known, success⟩ := Outcome.bind_ok_iff.mp success
  obtain ⟨action, compiled, success⟩ := Outcome.bind_ok_iff.mp success
  cases success
  exact ⟨kind, orUnknown_ok known, compiled⟩

/-- A fetch is compiled from its type, its names and what its kind asks for. What it hands on to the
fetches within is its own name. -/
theorem FetchSpec.compileWithin_ok {levels : Nat} {inherited : Option String} {spec : FetchSpec}
    (success : compileWithin table levels inherited config = .ok spec) :
    ∃ below own apiKeyName kind variant, table.fetches.find? config.type = some kind ∧
      nameField.get config.params = .ok own ∧
      compileVariant (compileWithin table below (some ((own.or inherited).getD kind.name))) config
        kind = .ok variant ∧
      spec = .mk kind ((own.or inherited).getD kind.name) apiKeyName variant := by
  cases levels with
  | zero => cases success
  | succ below =>
    rw [compileWithin] at success
    obtain ⟨kind, known, success⟩ := Outcome.bind_ok_iff.mp success
    obtain ⟨⟨own, apiKeyName⟩, read, success⟩ := Outcome.bind_ok_iff.mp success
    obtain ⟨variant, compiled, success⟩ := Outcome.bind_ok_iff.mp success
    cases success
    exact ⟨below, own, apiKeyName, kind, variant, orUnknown_ok known, (params₂_ok read).1, compiled,
      rfl⟩

/-- A transform is compiled from its type, its keys, which have been checked, and what its kind asks
for. -/
theorem TransformSpec.compileWithin_ok {levels : Nat} {spec : TransformSpec}
    (success : compileWithin table levels config = .ok spec) :
    ∃ below kind keys newKeys op, table.transforms.find? config.type = some kind ∧
      compileOp (fun steps => steps.mapM (compileWithin table below)) config kind = .ok op ∧
      ¬ (kind.needsKeys = true ∧ keys.isEmpty = true) ∧ matchKeys kind keys newKeys = .ok () ∧
      spec = .mk kind keys newKeys op := by
  cases levels with
  | zero => cases success
  | succ below =>
    rw [compileWithin] at success
    obtain ⟨kind, known, success⟩ := Outcome.bind_ok_iff.mp success
    obtain ⟨⟨keys, newKeys⟩, -, success⟩ := Outcome.bind_ok_iff.mp success
    dsimp only at success
    split at success
    · cases success
    · next given =>
      obtain ⟨⟨⟩, matched, success⟩ := Outcome.bind_ok_iff.mp success
      obtain ⟨op, compiled, success⟩ := Outcome.bind_ok_iff.mp success
      cases success
      exact ⟨below, kind, keys, newKeys, op, orUnknown_ok known, compiled, given, matched, rfl⟩

/-- A loop compiles the list of its transforms, whichever field its items come from. -/
theorem TransformSpec.compileOp_loop_ok {kind : TransformKind} {op : TransformOp}
    {nested : List StepConfig → Except StepError (List TransformSpec)}
    (loops : kind = .array ∨ kind = .loop) (success : compileOp nested config kind = .ok op) :
    ∃ array configs specs, transformationField.get config.params = .ok configs ∧
      nested configs = .ok specs ∧ op = .each array specs := by
  obtain rfl | rfl := loops
  all_goals
    obtain ⟨⟨array, configs⟩, read, success⟩ := Outcome.bind_ok_iff.mp success
    obtain ⟨specs, compiled, success⟩ := Outcome.bind_ok_iff.mp success
    cases success
    exact ⟨array, configs, specs, (params₂_ok read).2, compiled, rfl⟩

/-- The alternative that has been read was given. -/
theorem FetchSpec.alternative_of_get {given : Fields} {inner : StepConfig}
    (success : alternativeField.get given = .ok (some inner)) :
    ∃ item, Fields.find? "alternative" given = some item ∧
      StepConfig.ofValue item = .ok inner := by
  obtain ⟨item, found, decoded⟩ | ⟨-, ⟨⟩⟩ := RecordField.get_cases success
  have written : item ≠ .null := by
    rintro rfl
    cases decoded
  obtain ⟨_, ⟨⟩, read⟩ := option_ok decoded written
  exact ⟨item, found, read⟩

theorem FetchSpec.memoryParams_ok {useLast : Nat} {timedelta : Option Float}
    {alternative : Option StepConfig}
    (success : params config memoryParams = .ok (useLast, timedelta, alternative)) :
    alternativeField.get config.params = .ok alternative := by
  obtain ⟨given, opened, read⟩ := Outcome.bind_ok_iff.mp (params_ok success)
  obtain ⟨_, -, read⟩ := Outcome.bind_ok_iff.mp read
  obtain ⟨_, -, read⟩ := Outcome.bind_ok_iff.mp read
  obtain ⟨_, got, read⟩ := Outcome.bind_ok_iff.mp read
  cases read
  rwa [openRecord_object opened] at got

theorem FetchSpec.customParams_ok {requests : List StepConfig} {keys : List Value} {keyed : Bool}
    (success : params config customParams = .ok (requests, keys, keyed)) :
    requestsField.get config.params = .ok requests := by
  obtain ⟨given, opened, read⟩ := Outcome.bind_ok_iff.mp (params_ok success)
  obtain ⟨_, got, read⟩ := Outcome.bind_ok_iff.mp read
  obtain ⟨_, -, read⟩ := Outcome.bind_ok_iff.mp read
  obtain ⟨_, -, read⟩ := Outcome.bind_ok_iff.mp read
  cases read
  rwa [openRecord_object opened] at got

theorem SequenceMode.modeType?_ofValue {value : Value} {mode : SequenceMode}
    (read : ofValue value = .ok mode) : value.modeType? = some mode.name := by
  obtain ⟨given, opened, read⟩ := Outcome.bind_ok_iff.mp read
  obtain ⟨name, got, read⟩ := Outcome.bind_ok_iff.mp read
  obtain ⟨_, -, read⟩ := Outcome.bind_ok_iff.mp read
  obtain ⟨_, -, read⟩ := Outcome.bind_ok_iff.mp read
  cases read
  obtain ⟨stated, found, decoded⟩ | ⟨-, ⟨⟩⟩ := RecordField.get_cases got
  obtain rfl := text_ok decoded
  have found : Fields.find? "type" given = some (.string name) := found
  cases value with
  | object fields =>
    change openRecord "SequenceMode" _ (.object fields) = .ok given at opened
    obtain rfl := openRecord_object opened
    rw [Value.modeType?, Value.type?, Value.field?, found]
    nofun
  | array items =>
    cases items with
    | nil => cases opened
    | cons item rest =>
      rw [record, fieldsOfItems] at opened
      split at opened
      · cases opened
      · obtain ⟨others, -, opened⟩ := Outcome.bind_ok_iff.mp opened
        cases opened
        cases found
        rfl
  | _ => cases opened

theorem SequenceSpec.mode_of_params {name : String} {ofKind : SequenceKind → SequenceSpec}
    (success : params config ofValue = .ok (name, ofKind)) :
    ∃ mode, modeField.get config.params = .ok mode ∧ mode.name = name := by
  obtain ⟨given, opened, read⟩ := Outcome.bind_ok_iff.mp (params_ok success)
  obtain ⟨mode, got, read⟩ := Outcome.bind_ok_iff.mp read
  obtain ⟨_, -, read⟩ := Outcome.bind_ok_iff.mp read
  obtain ⟨_, -, read⟩ := Outcome.bind_ok_iff.mp read
  obtain ⟨_, -, read⟩ := Outcome.bind_ok_iff.mp read
  obtain ⟨_, -, read⟩ := Outcome.bind_ok_iff.mp read
  cases read
  rw [openRecord_object opened] at got
  exact ⟨mode, got, rfl⟩

/-- The mode of a sequence that has been compiled. -/
theorem SequenceSpec.compile_ok {spec : SequenceSpec} (success : compile table config = .ok spec) :
    ∃ mode kind, modeField.get config.params = .ok mode ∧
      table.sequences.find? mode.name = some kind := by
  obtain ⟨⟨name, ofKind⟩, read, success⟩ := Outcome.bind_ok_iff.mp success
  obtain ⟨kind, known, -⟩ := Outcome.bind_ok_iff.mp success
  obtain ⟨mode, got, rfl⟩ := mode_of_params read
  exact ⟨mode, kind, got, orUnknown_ok known⟩

end Parts

namespace DispatchTable

/-- A part of a document that has been compiled, at some depth. -/
def Compiles (table : DispatchTable) (value : Value) : Registry → Prop
  | .step => ∃ config index step, StepConfig.Represents config value ∧
    Step.compile table index config = .ok step
  | .fetch => ∃ config levels inherited spec, StepConfig.Represents config value ∧
    FetchSpec.compileWithin table levels inherited config = .ok spec
  | .transform => ∃ config levels spec, StepConfig.Represents config value ∧
    TransformSpec.compileWithin table levels config = .ok spec
  | .sequence => ∃ name kind, value.modeType? = some name ∧
    table.sequences.find? name = some kind

variable {table : DispatchTable} {value : Value}

/-- What has been compiled states a type, and the table knows it. -/
theorem Compiles.registers {registry : Registry} (compiles : table.Compiles value registry) :
    ∃ name, value.statedType? registry = some name ∧ table.Registers name registry := by
  cases registry with
  | step =>
    obtain ⟨config, index, step, represents, success⟩ := compiles
    obtain ⟨kind, known, -⟩ := Step.compile_ok success
    exact ⟨config.type, represents.type, Option.isSome_of_eq_some known⟩
  | fetch =>
    obtain ⟨config, levels, inherited, spec, represents, success⟩ := compiles
    obtain ⟨below, own, _, kind, variant, known, -⟩ := FetchSpec.compileWithin_ok success
    exact ⟨config.type, represents.type, Option.isSome_of_eq_some known⟩
  | transform =>
    obtain ⟨config, levels, spec, represents, success⟩ := compiles
    obtain ⟨below, kind, _, _, op, known, -⟩ := TransformSpec.compileWithin_ok success
    exact ⟨config.type, represents.type, Option.isSome_of_eq_some known⟩
  | sequence =>
    obtain ⟨name, kind, states, known⟩ := compiles
    exact ⟨name, states, Option.isSome_of_eq_some known⟩

/-- What compiling a step of a known kind has done. -/
theorem Compiles.action {type : String} {kind : StepKind} (compiles : table.Compiles value .step)
    (states : value.type? = some type) (known : table.steps.find? type = some kind) :
    ∃ config action, StepConfig.Represents config value ∧
      Step.compileAction table config kind = .ok action := by
  obtain ⟨config, index, step, represents, success⟩ := compiles
  obtain ⟨found, listed, compiled⟩ := Step.compile_ok success
  rw [represents.type_eq states, known] at listed
  cases listed
  exact ⟨config, step.action, represents, compiled⟩

theorem Compiles.variant {type : String} {kind : FetchKind} (compiles : table.Compiles value .fetch)
    (states : value.type? = some type) (known : table.fetches.find? type = some kind) :
    ∃ config below name variant, StepConfig.Represents config value ∧
      FetchSpec.compileVariant (FetchSpec.compileWithin table below (some name)) config kind =
        .ok variant := by
  obtain ⟨config, levels, inherited, spec, represents, success⟩ := compiles
  obtain ⟨below, _, _, found, variant, listed, -, compiled, -⟩ := FetchSpec.compileWithin_ok success
  rw [represents.type_eq states, known] at listed
  cases listed
  exact ⟨config, below, _, variant, represents, compiled⟩

theorem Compiles.op {type : String} {kind : TransformKind}
    (compiles : table.Compiles value .transform) (states : value.type? = some type)
    (known : table.transforms.find? type = some kind) :
    ∃ config below op, StepConfig.Represents config value ∧
      TransformSpec.compileOp (fun steps => steps.mapM (TransformSpec.compileWithin table below))
        config kind = .ok op := by
  obtain ⟨config, levels, spec, represents, success⟩ := compiles
  obtain ⟨below, found, _, _, op, listed, compiled, -⟩ := TransformSpec.compileWithin_ok success
  rw [represents.type_eq states, known] at listed
  cases listed
  exact ⟨config, below, op, represents, compiled⟩

end DispatchTable

open DispatchTable

/-! Documents. -/

theorem Pipeline.compileSteps_ok {table : DispatchTable} {index : Nat} {configs : List StepConfig}
    {steps : List Step} (success : compileSteps table index configs = .ok steps)
    {config : StepConfig} (listed : config ∈ configs) :
    ∃ place step, Step.compile table place config = .ok step := by
  induction configs generalizing index steps with
  | nil => cases listed
  | cons first rest ih =>
    rw [compileSteps, Outcome.bind_ok_iff] at success
    obtain ⟨head, compiled, success⟩ := success
    obtain ⟨tail, later, -⟩ := Outcome.bind_ok_iff.mp success
    cases listed with
    | head => exact ⟨index, head, compiled⟩
    | tail _ listed => exact ih later listed

variable {table : DispatchTable} {document : Document} {runId : String} {pipeline : Pipeline}

/-- Compiling a document compiles every part of it that a table governs, at any depth. -/
theorem Document.Writes.compiles (compiled : Pipeline.compile table runId document = .ok pipeline)
    {registry : Registry} {value : Value} (written : document.Writes table registry value) :
    table.Compiles value registry := by
  obtain ⟨steps, compiled, -⟩ := Outcome.bind_ok_iff.mp compiled
  induction written with
  | @step config listed =>
    obtain ⟨place, step, success⟩ := Pipeline.compileSteps_ok compiled listed
    exact ⟨config, place, step, config.represents_toValue, success⟩
  | fetch _ states known ih =>
    obtain ⟨config, action, represents, success⟩ := ih.action states known
    obtain ⟨key, -, success⟩ := Outcome.bind_ok_iff.mp success
    obtain ⟨spec, success, -⟩ := Outcome.bind_ok_iff.mp success
    exact ⟨config, _, none, spec, represents, success⟩
  | transform _ states known ih =>
    obtain ⟨config, action, represents, success⟩ := ih.action states known
    obtain ⟨spec, success, -⟩ := Outcome.bind_ok_iff.mp success
    exact ⟨config, _, spec, represents, success⟩
  | grouped _ states known nested ih =>
    obtain ⟨config, action, represents, success⟩ := ih.action states known
    obtain ⟨specs, success, -⟩ := Outcome.bind_ok_iff.mp success
    obtain ⟨configs, read, success⟩ := Outcome.bind_ok_iff.mp success
    obtain ⟨inner, listed, represents⟩ := represents.items transformationField rfl
      (by decide) (param_ok read) nested
    obtain ⟨spec, -, success⟩ := Outcome.mapM_ok success listed
    exact ⟨inner, _, spec, represents, success⟩
  | looped _ states known loops nested ih =>
    obtain ⟨config, below, op, represents, success⟩ := ih.op states known
    obtain ⟨_, configs, specs, read, success, -⟩ := TransformSpec.compileOp_loop_ok loops success
    obtain ⟨inner, listed, represents⟩ := represents.items transformationField rfl
      (by decide) read nested
    obtain ⟨spec, -, success⟩ := Outcome.mapM_ok success listed
    exact ⟨inner, below, spec, represents, success⟩
  | @alternative step item type _ states known nested given ih =>
    obtain ⟨config, below, name, variant, represents, success⟩ := ih.variant states known
    obtain ⟨⟨useLast, timedelta, alternative⟩, read, success⟩ := Outcome.bind_ok_iff.mp success
    obtain ⟨spec, success, -⟩ := Outcome.bind_ok_iff.mp success
    rw [represents.params "alternative" (by decide)] at nested
    have decoded := RecordField.get_of_find? (FetchSpec.memoryParams_ok read) nested
    obtain ⟨inner, rfl, made⟩ := option_ok decoded given
    obtain ⟨fetch, success, -⟩ := Outcome.bind_ok_iff.mp success
    exact ⟨inner, below, some name, fetch, StepConfig.represents_ofValue made, success⟩
  | requested _ states known nested ih =>
    obtain ⟨config, below, name, variant, represents, success⟩ := ih.variant states known
    obtain ⟨⟨requests, keys, keyed⟩, read, success⟩ := Outcome.bind_ok_iff.mp success
    dsimp only at success
    split at success
    · cases success
    · obtain ⟨specs, success, -⟩ := Outcome.bind_ok_iff.mp success
      obtain ⟨inner, listed, represents⟩ := represents.items FetchSpec.requestsField rfl
        (by decide) (FetchSpec.customParams_ok read) nested
      obtain ⟨spec, -, success⟩ := Outcome.mapM_ok success listed
      exact ⟨inner, below, some name, spec, represents, success⟩
  | mode _ states known nested ih =>
    obtain ⟨config, action, represents, success⟩ := ih.action states known
    obtain ⟨spec, success, -⟩ := Outcome.bind_ok_iff.mp success
    obtain ⟨mode, kind, got, known⟩ := SequenceSpec.compile_ok success
    rw [represents.params "sequence" (by decide)] at nested
    have decoded := RecordField.get_of_find? got nested
    exact ⟨mode.name, kind, SequenceMode.modeType?_ofValue decoded, known⟩

end Newsreel
