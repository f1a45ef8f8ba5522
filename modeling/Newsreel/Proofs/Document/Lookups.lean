import Newsreel.Proofs.Document.Types
import Newsreel.Proofs.Fault

/-!
Types that are looked up.

Compiling a step looks up its own type, and then the types of the steps that it holds where a table
governs. A type that is reported as unknown is one of these, and the table that governs there does
not have it.
-/

namespace Newsreel

/-- A step of a kind holds a step where a table of some kind governs. -/
inductive StepConfig.Holds (config : StepConfig) : StepKind → Registry → StepConfig → Prop
  | listed {kind : StepKind} {configs : List StepConfig} {inner : StepConfig}
    (lists : kind = .transformGroup ∨ kind = .transform .array ∨ kind = .transform .loop)
    (read : TransformSpec.transformationField.get config.params = .ok configs)
    (listed : inner ∈ configs) : Holds config kind .transform inner
  | alternative {inner : StepConfig}
    (read : FetchSpec.alternativeField.get config.params = .ok (some inner)) :
    Holds config (.fetch .memory) .fetch inner
  | requested {configs : List StepConfig} {inner : StepConfig}
    (read : FetchSpec.requestsField.get config.params = .ok configs) (listed : inner ∈ configs) :
    Holds config (.fetch .multipleCustom) .fetch inner

/-- A type is looked up in the table of some kind when a step is compiled where that table governs:
the step's own type, or one that is looked up for a step in it. -/
inductive StepConfig.Seeks (table : DispatchTable) : Registry → StepConfig → String → Prop
  | own (registry : Registry) (config : StepConfig) : Seeks table registry config config.type
  | fetch {config inner : StepConfig} {kind : FetchKind} {name : String}
    (known : table.fetches.find? config.type = some kind)
    (holds : config.Holds (.fetch kind) .fetch inner) (seeks : Seeks table .fetch inner name) :
    Seeks table .fetch config name
  | transform {config inner : StepConfig} {kind : TransformKind} {name : String}
    (known : table.transforms.find? config.type = some kind)
    (holds : config.Holds (.transform kind) .transform inner)
    (seeks : Seeks table .transform inner name) : Seeks table .transform config name

/-- A type is looked up for what a step of a kind holds: for a step in it, or for the mode of a
sequence. -/
inductive StepConfig.SeeksWithin (table : DispatchTable) (config : StepConfig) :
    StepKind → Registry → String → Prop
  | step {kind : StepKind} {registry : Registry} {inner : StepConfig} {name : String}
    (holds : config.Holds kind registry inner) (seeks : inner.Seeks table registry name) :
    SeeksWithin table config kind registry name
  | mode {mode : SequenceMode} (read : SequenceSpec.modeField.get config.params = .ok mode) :
    SeeksWithin table config .sequence .sequence mode.name

/-- The kind of a step that does something. -/
def Action.kind : Action → StepKind
  | .fetch _ spec => .fetch spec.kind
  | .transform spec => .transform spec.kind
  | .transforms _ => .transformGroup
  | .sequence _ => .sequence

/-- A kind of step that leads on to the table of its own kind finds itself there. -/
def DispatchTable.Backs (table : DispatchTable) (name : String) : StepKind → Prop
  | .fetch kind => table.fetches.find? name = some kind
  | .transform kind => table.transforms.find? name = some kind
  | .transformGroup | .sequence => True

/-! Steps lie deeper than the steps that hold them. -/

namespace Value

theorem depth_le_of_mem {items : List Value} {item : Value} (listed : item ∈ items) :
    item.depth ≤ depthOfItems items := by
  induction items with
  | nil => cases listed
  | cons first rest ih =>
    rw [depthOfItems]
    cases listed with
    | head => exact Nat.le_max_left _ _
    | tail _ later => exact Nat.le_trans (ih later) (Nat.le_max_right _ _)

theorem depth_lt_of_find? {fields : Fields} {name : String} {value : Value}
    (found : Fields.find? name fields = some value) : value.depth < (object fields).depth := by
  rw [depth, Nat.lt_succ_iff]
  induction fields with
  | nil => cases found
  | cons field rest ih =>
    rw [depthOfFields]
    rw [Fields.find?] at found
    split at found
    · cases found
      exact Nat.le_max_left _ _
    · exact Nat.le_trans (ih found) (Nat.le_max_right _ _)

theorem depthOfFields_filter_le (p : String × Value → Bool) (fields : Fields) :
    depthOfFields (fields.filter p) ≤ depthOfFields fields := by
  induction fields with
  | nil => exact Nat.le_refl _
  | cons field rest ih =>
    rw [List.filter_cons, depthOfFields]
    split
    · rw [depthOfFields]
      exact Nat.max_le.mpr ⟨Nat.le_max_left _ _, Nat.le_trans ih (Nat.le_max_right _ _)⟩
    · exact Nat.le_trans ih (Nat.le_max_right _ _)

end Value

namespace StepConfig

open Decode

variable {config inner : StepConfig}

theorem depth_ofValue {value : Value} (read : ofValue value = .ok config) :
    config.paramsValue.depth ≤ value.depth := by
  rw [ofValue, Outcome.bind_ok_iff] at read
  obtain ⟨given, opened, read⟩ := read
  obtain ⟨type, -, read⟩ := Outcome.bind_ok_iff.mp read
  cases read
  cases value with
  | object fields =>
    obtain rfl := openRecord_object opened
    rw [paramsValue, Value.depth, Value.depth]
    exact Nat.succ_le_succ (Value.depthOfFields_filter_le _ _)
  | _ => cases opened

theorem depth_lt_of_list {field : RecordField (List StepConfig)} {configs : List StepConfig}
    (decodes : field.decode = list ofValue) (absent : field.absent.getD [] = [])
    (read : field.get config.params = .ok configs) (listed : inner ∈ configs) :
    inner.paramsValue.depth < config.paramsValue.depth := by
  obtain ⟨items, found, read⟩ | same := items_of_get decodes read
  · obtain ⟨item, among, made⟩ := Outcome.mapM_ok_made read listed
    calc
      inner.paramsValue.depth ≤ item.depth := depth_ofValue made
      _ ≤ Value.depthOfItems items := Value.depth_le_of_mem among
      _ < (Value.array items).depth := by rw [Value.depth]; exact Nat.lt_succ_self _
      _ < config.paramsValue.depth := Value.depth_lt_of_find? found
  · rw [same] at absent
    obtain rfl : configs = [] := absent
    cases listed

theorem Holds.depth_lt {kind : StepKind} {registry : Registry}
    (holds : config.Holds kind registry inner) :
    inner.paramsValue.depth < config.paramsValue.depth := by
  cases holds with
  | listed lists read listed => exact depth_lt_of_list rfl rfl read listed
  | requested read listed => exact depth_lt_of_list rfl rfl read listed
  | alternative read =>
    obtain ⟨item, found, made⟩ := FetchSpec.alternative_of_get read
    exact Nat.lt_of_le_of_lt (depth_ofValue made) (Value.depth_lt_of_find? found)

/-- What is missing is not the fetch itself, if the table has it. -/
theorem Seeks.within_fetch {table : DispatchTable} {kind : FetchKind} {name : String}
    (seeks : config.Seeks table .fetch name) (known : table.fetches.find? config.type = some kind)
    (missing : ¬ table.Registers name .fetch) :
    config.SeeksWithin table (.fetch kind) .fetch name := by
  cases seeks with
  | own => exact absurd (Option.isSome_of_eq_some known) missing
  | fetch found holds seeks =>
    cases known.symm.trans found
    exact .step holds seeks

theorem Seeks.within_transform {table : DispatchTable} {kind : TransformKind} {name : String}
    (seeks : config.Seeks table .transform name)
    (known : table.transforms.find? config.type = some kind)
    (missing : ¬ table.Registers name .transform) :
    config.SeeksWithin table (.transform kind) .transform name := by
  cases seeks with
  | own => exact absurd (Option.isSome_of_eq_some known) missing
  | transform found holds seeks =>
    cases known.symm.trans found
    exact .step holds seeks

/-- Only of a group or a sequence may the own type be missing where something in it is governed. -/
theorem SeeksWithin.kind_cases {table : DispatchTable} {kind : StepKind} {registry : Registry}
    {name : String} (seeks : config.SeeksWithin table kind registry name)
    (backs : table.Backs config.type kind) (missing : ¬ table.Registers config.type registry) :
    kind = .transformGroup ∨ kind = .sequence := by
  cases seeks with
  | mode => exact Or.inr rfl
  | step holds seeks =>
    cases holds with
    | listed lists =>
      rcases lists with rfl | rfl | rfl
      · exact Or.inl rfl
      · exact absurd (Option.isSome_of_eq_some backs) missing
      · exact absurd (Option.isSome_of_eq_some backs) missing
    | alternative => exact absurd (Option.isSome_of_eq_some backs) missing
    | requested => exact absurd (Option.isSome_of_eq_some backs) missing

end StepConfig

/-! What is reported as unknown. -/

namespace Outcome

variable {α : Type}

/-- What is reported as unknown, if anything is, is among the suspected types. -/
def Blames (suspected : Registry → String → Prop) (outcome : Except StepError α) : Prop :=
  FailsAs (fun error => ∀ registry name, error = .unknownType registry name →
    suspected registry name) outcome

variable {suspected : Registry → String → Prop}

theorem blames_ok (a : α) : Blames suspected (.ok a) := failsAs_ok a

theorem blames_invalid (type : String) (fault : ShapeFault) :
    Blames suspected (.error (.invalidStep type fault) : Except StepError α) :=
  failsAs_error fun _ _ same => by cases same

theorem blames_params (config : StepConfig) (decode : Value → Except DecodeFault α) :
    Blames suspected (TransformSpec.params config decode) := by
  rw [TransformSpec.params]
  split
  · exact blames_ok _
  · exact blames_invalid _ _

theorem blames_orUnknown {registry : Registry} {name : String} {entry : Option α}
    (missing : entry = none → suspected registry name) :
    Blames suspected (DispatchTable.orUnknown registry name entry) := by
  cases entry with
  | some kind => exact blames_ok kind
  | none =>
    refine failsAs_error fun _ _ same => ?_
    cases same
    exact missing rfl

theorem Blames.mono {others : Registry → String → Prop} {outcome : Except StepError α}
    (blames : Blames suspected outcome)
    (covers : ∀ registry name, suspected registry name → others registry name) :
    Blames others outcome := fun error failed registry name same =>
  covers registry name (blames error failed registry name same)

end Outcome

open Outcome DispatchTable

variable {table : DispatchTable} {config : StepConfig} {suspected : Registry → String → Prop}

namespace DispatchTable

/-- A table of some kind does not have a name that is looked up in it for a step. -/
def Lacks (table : DispatchTable) (governing : Registry) (config : StepConfig)
    (registry : Registry) (name : String) : Prop :=
  registry = governing ∧ config.Seeks table governing name ∧ ¬ table.Registers name governing

/-- Nor one that is looked up for what a step of a kind holds. -/
def LacksWithin (table : DispatchTable) (config : StepConfig) (kind : StepKind)
    (registry : Registry) (name : String) : Prop :=
  config.SeeksWithin table kind registry name ∧ ¬ table.Registers name registry

end DispatchTable

theorem TransformSpec.matchKeys_blames (kind : TransformKind) (keys : List String)
    (newKeys : Option (List String)) : Blames suspected (matchKeys kind keys newKeys) := by
  cases newKeys with
  | none => exact blames_ok ()
  | some newKeys =>
    rw [matchKeys]
    split
    · exact blames_ok ()
    · exact blames_invalid _ _

theorem TransformSpec.compileOp_blames {kind : TransformKind}
    {nested : List StepConfig → Except StepError (List TransformSpec)}
    (inside : ∀ configs, kind = .array ∨ kind = .loop →
      transformationField.get config.params = .ok configs → Blames suspected (nested configs)) :
    Blames suspected (compileOp nested config kind) := by
  cases kind with
  | array =>
    refine FailsAs.bind_ok (blames_params _ _) fun found read => ?_
    exact (inside found.2 (Or.inl rfl) (params₂_ok read).2).bind fun _ => blames_ok _
  | loop =>
    refine FailsAs.bind_ok (blames_params _ _) fun found read => ?_
    exact (inside found.2 (Or.inr rfl) (params₂_ok read).2).bind fun _ => blames_ok _
  | selectRange | append | synonym => exact blames_ok _
  | _ => exact FailsAs.bind (blames_params _ _) fun _ => blames_ok _

/-- The levels allowed for are enough, so only a lookup reports a type as unknown. -/
theorem TransformSpec.compileWithin_blames {levels : Nat}
    (deep : config.paramsValue.depth < levels) :
    Blames (table.Lacks .transform config) (compileWithin table levels config) := by
  induction levels generalizing config with
  | zero => exact absurd deep (Nat.not_lt_zero _)
  | succ levels ih =>
    rw [compileWithin]
    refine FailsAs.bind_ok (blames_orUnknown fun missing => ?_) fun kind found => ?_
    · exact ⟨rfl, .own _ _, by simp [Registers, missing]⟩
    · refine FailsAs.bind (blames_params _ _) fun given => ?_
      obtain ⟨keys, newKeys⟩ := given
      dsimp only
      split
      · exact blames_invalid _ _
      · refine FailsAs.bind (matchKeys_blames _ _ _) fun _ => FailsAs.bind ?_ fun _ => blames_ok _
        refine compileOp_blames fun configs loops read => FailsAs.mapM fun inner listed => ?_
        have holds : config.Holds (.transform kind) .transform inner := by
          refine .listed (Or.inr ?_) read listed
          exact loops.imp (congrArg StepKind.transform) (congrArg StepKind.transform)
        refine (ih (Nat.lt_of_lt_of_le holds.depth_lt (Nat.le_of_lt_succ deep))).mono ?_
        rintro registry name ⟨rfl, seeks, missing⟩
        exact ⟨rfl, .transform (orUnknown_ok found) holds seeks, missing⟩

theorem FetchSpec.compileVariant_blames {kind : FetchKind}
    {nested : StepConfig → Except StepError FetchSpec}
    (inside : ∀ inner, config.Holds (.fetch kind) .fetch inner → Blames suspected (nested inner)) :
    Blames suspected (compileVariant nested config kind) := by
  cases kind with
  | request | input => exact FailsAs.bind (blames_params _ _) fun _ => blames_ok _
  | multiple =>
    exact FailsAs.bind (blames_params _ _) fun _ =>
      FailsAs.bind (blames_params _ _) fun _ => blames_ok _
  | memory =>
    refine FailsAs.bind_ok (blames_params _ _) fun found read => ?_
    obtain ⟨useLast, timedelta, alternative⟩ := found
    refine FailsAs.bind ?_ fun _ => blames_ok _
    cases alternative with
    | none => exact blames_ok _
    | some inner => exact (inside inner (.alternative (memoryParams_ok read))).map some
  | multipleCustom =>
    refine FailsAs.bind_ok (blames_params _ _) fun found read => ?_
    obtain ⟨configs, keys, keyed⟩ := found
    dsimp only
    split
    · exact blames_invalid _ _
    · refine FailsAs.bind (FailsAs.mapM fun inner listed => ?_) fun _ => blames_ok _
      exact inside inner (.requested (customParams_ok read) listed)

theorem FetchSpec.compileWithin_blames {levels : Nat} {inherited : Option String}
    (deep : config.paramsValue.depth < levels) :
    Blames (table.Lacks .fetch config) (compileWithin table levels inherited config) := by
  induction levels generalizing config inherited with
  | zero => exact absurd deep (Nat.not_lt_zero _)
  | succ levels ih =>
    rw [compileWithin]
    refine FailsAs.bind_ok (blames_orUnknown fun missing => ?_) fun kind found => ?_
    · exact ⟨rfl, .own _ _, by simp [Registers, missing]⟩
    · refine FailsAs.bind (blames_params _ _) fun given => ?_
      obtain ⟨own, apiKeyName⟩ := given
      refine FailsAs.bind (compileVariant_blames fun inner holds => ?_) fun _ => blames_ok _
      refine (ih (Nat.lt_of_lt_of_le holds.depth_lt (Nat.le_of_lt_succ deep))).mono ?_
      rintro registry name ⟨rfl, seeks, missing⟩
      exact ⟨rfl, .fetch (orUnknown_ok found) holds seeks, missing⟩

theorem SequenceSpec.compile_blames :
    Blames (table.LacksWithin config .sequence) (compile table config) := by
  refine FailsAs.bind_ok (blames_params _ _) fun given read => ?_
  obtain ⟨name, ofKind⟩ := given
  obtain ⟨mode, got, rfl⟩ := mode_of_params read
  refine FailsAs.bind (blames_orUnknown fun missing => ?_) fun kind => ?_
  · exact ⟨.mode got, by simp [Registers, missing]⟩
  · dsimp only
    split
    · exact blames_invalid _ _
    · exact blames_ok _

namespace Step

/-- A step whose kind the table backs reports no type as unknown but one that is looked up for what
it holds, and that is not there. -/
theorem compileAction_blames {kind : StepKind} (backs : table.Backs config.type kind) :
    Blames (table.LacksWithin config kind) (compileAction table config kind) := by
  cases kind with
  | fetch kind =>
    refine FailsAs.bind (blames_params _ _) fun key => FailsAs.bind ?_ fun _ => blames_ok _
    refine (FetchSpec.compileWithin_blames (Nat.lt_succ_self _)).mono ?_
    rintro registry name ⟨rfl, seeks, missing⟩
    exact ⟨seeks.within_fetch backs missing, missing⟩
  | transform kind =>
    refine FailsAs.bind ?_ fun _ => blames_ok _
    refine (TransformSpec.compileWithin_blames (Nat.lt_succ_self _)).mono ?_
    rintro registry name ⟨rfl, seeks, missing⟩
    exact ⟨seeks.within_transform backs missing, missing⟩
  | transformGroup =>
    refine FailsAs.bind (FailsAs.bind_ok (blames_params _ _) fun configs read => ?_) fun _ =>
      blames_ok _
    refine FailsAs.mapM fun inner listed => ?_
    refine (TransformSpec.compileWithin_blames (Nat.lt_succ_self _)).mono ?_
    rintro registry name ⟨rfl, seeks, missing⟩
    have holds : config.Holds .transformGroup .transform inner :=
      .listed (Or.inl rfl) (TransformSpec.param_ok read) listed
    exact ⟨.step holds seeks, missing⟩
  | sequence => exact SequenceSpec.compile_blames.bind fun _ => blames_ok _

theorem compile_blames {kind : StepKind} (known : table.step config.type = .ok kind)
    (backs : table.Backs config.type kind) (index : Nat) :
    Blames (table.LacksWithin config kind) (compile table index config) := by
  rw [compile, known]
  refine FailsAs.bind_ok (blames_ok kind) fun found same => ?_
  cases same
  exact FailsAs.bind (compileAction_blames backs) fun _ => blames_ok _

/-- A step is compiled to an action of its kind, if the table backs that. -/
theorem kind_of_compileAction {kind : StepKind} {action : Action}
    (backs : table.Backs config.type kind)
    (success : compileAction table config kind = .ok action) : action.kind = kind := by
  cases kind with
  | fetch kind =>
    obtain ⟨key, -, success⟩ := Outcome.bind_ok_iff.mp success
    obtain ⟨spec, compiled, success⟩ := Outcome.bind_ok_iff.mp success
    cases success
    obtain ⟨_, own, _, found, variant, known, -, -, rfl⟩ := FetchSpec.compileWithin_ok compiled
    cases known.symm.trans backs
    rfl
  | transform kind =>
    obtain ⟨spec, compiled, success⟩ := Outcome.bind_ok_iff.mp success
    cases success
    obtain ⟨_, found, _, _, op, known, -, -, -, rfl⟩ := TransformSpec.compileWithin_ok compiled
    cases known.symm.trans backs
    rfl
  | transformGroup =>
    obtain ⟨specs, -, success⟩ := Outcome.bind_ok_iff.mp success
    cases success
    rfl
  | sequence =>
    obtain ⟨spec, -, success⟩ := Outcome.bind_ok_iff.mp success
    cases success
    rfl

end Step

end Newsreel
