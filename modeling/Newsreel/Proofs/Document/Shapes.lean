import Mathlib.Logic.Relation
import Newsreel.Proofs.Fetch.Keyed
import Newsreel.Proofs.Fetch.Names
import Newsreel.Proofs.Run.Layers

/-!
The shape of compiled specs.

Runs look up output keys by the place of a source key and walk keys and requests side by side, and
never ask whether there is one for the other. They need not: whatever a configuration is compiled
to, at any depth, has the counts and the operation that its kind calls for.
-/

namespace Newsreel

/-- The operation is one that a kind of transform stands for. -/
def TransformOp.Suits : TransformOp → TransformKind → Prop
  | .each _ _, kind => kind = .array ∨ kind = .loop
  | .select _, kind => kind = .select
  | .unimplemented, kind => kind = .selectRange ∨ kind = .append ∨ kind = .synonym
  | .addSymbol _, kind => kind = .addSymbol
  | .replace _ _ _, kind => kind = .replace
  | .dateFormat _, kind => kind = .dateFormat
  | .dateWeekday _, kind => kind = .dateWeekday
  | .dateNow _, kind => kind = .dateNow
  | .windDirection _ _, kind => kind = .windDirection
  | .chooseRandom _ _, kind => kind = .chooseRandom

/-- The kind of a fetch that works in this way. -/
def FetchVariant.kind : FetchVariant → FetchKind
  | .request _ => .request
  | .input _ => .input
  | .memory _ _ _ => .memory
  | .multiple _ _ _ => .multiple
  | .multipleCustom _ _ => .multipleCustom

/-- What holds of a transform by itself, whatever lies in it. -/
structure TransformSpec.WellFormed (spec : TransformSpec) : Prop where
  newKeys_length : ∀ newKeys, spec.newKeys = some newKeys → newKeys.length = spec.keys.length
  keys_ne_nil : spec.kind.needsKeys = true → spec.keys ≠ []
  op_suits : spec.op.Suits spec.kind

/-- What holds of a fetch by itself, whatever lies in it. -/
structure FetchSpec.WellFormed (spec : FetchSpec) : Prop where
  kind_eq : spec.variant.kind = spec.kind
  keys_length : ∀ requests keys, spec.variant = .multipleCustom requests (some keys) →
    keys.length = requests.length

/-- The operations that work key by key are those of the kinds that need keys. -/
theorem TransformOp.Suits.isKeyed_eq {op : TransformOp} {kind : TransformKind}
    (suits : op.Suits kind) : op.isKeyed = kind.needsKeys := by
  cases op with
  | each array transformation => obtain rfl | rfl := suits <;> rfl
  | unimplemented => obtain rfl | rfl | rfl := suits <;> rfl
  | _ =>
    cases suits
    rfl

/-- Each source key has an output key of its own. -/
theorem TransformSpec.WellFormed.outputKey {spec : TransformSpec} (wellFormed : spec.WellFormed)
    {newKeys : List String} (given : spec.newKeys = some newKeys) {place : Nat}
    (within : place < spec.keys.length) (key : String) :
    newKeys[place]? = some (spec.outputKey place key) := by
  have there : place < newKeys.length := wellFormed.newKeys_length newKeys given ▸ within
  rw [TransformSpec.outputKey, given, Option.bind_some, List.getElem?_eq_getElem there,
    Option.getD_some]

/-! What is compiled is well formed by itself. -/

namespace TransformSpec

variable {config : StepConfig} {kind : TransformKind} {keys : List String}
  {newKeys : Option (List String)} {op : TransformOp}
  {nested : List StepConfig → Except StepError (List TransformSpec)}

theorem matchKeys_ok (success : matchKeys kind keys newKeys = .ok ()) :
    ∀ given, newKeys = some given → given.length = keys.length := by
  rintro given rfl
  rw [matchKeys] at success
  split at success
  · next same => exact same
  · cases success

theorem compileOp_suits (success : compileOp nested config kind = .ok op) : op.Suits kind := by
  cases kind with
  | array =>
    obtain ⟨_, _, _, -, -, rfl⟩ := compileOp_loop_ok (Or.inl rfl) success
    exact Or.inl rfl
  | loop =>
    obtain ⟨_, _, _, -, -, rfl⟩ := compileOp_loop_ok (Or.inr rfl) success
    exact Or.inr rfl
  | selectRange =>
    cases success
    exact Or.inl rfl
  | append =>
    cases success
    exact Or.inr (Or.inl rfl)
  | synonym =>
    cases success
    exact Or.inr (Or.inr rfl)
  | _ =>
    obtain ⟨_, -, success⟩ := Outcome.bind_ok_iff.mp success
    cases success
    rfl

/-- Only loops have transforms in them, and these have been compiled from the list of the loop. -/
theorem compileOp_each {array : Value} {transformation : List TransformSpec}
    (success : compileOp nested config kind = .ok (.each array transformation)) :
    ∃ configs, nested configs = .ok transformation := by
  have loops : kind = .array ∨ kind = .loop := compileOp_suits success
  obtain ⟨_, configs, specs, -, compiled, same⟩ := compileOp_loop_ok loops success
  cases same
  exact ⟨configs, compiled⟩

theorem wellFormed_of_compileWithin {table : DispatchTable} {levels : Nat} {spec : TransformSpec}
    (success : compileWithin table levels config = .ok spec) : spec.WellFormed := by
  obtain ⟨below, kind, keys, newKeys, op, -, compiled, given, matched, rfl⟩ :=
    compileWithin_ok success
  refine ⟨matchKeys_ok matched, fun needed none => given ⟨needed, ?_⟩, compileOp_suits compiled⟩
  exact List.isEmpty_iff.mpr none

end TransformSpec

namespace FetchSpec

theorem kind_of_compileVariant {config : StepConfig} {kind : FetchKind} {variant : FetchVariant}
    {nested : StepConfig → Except StepError FetchSpec}
    (success : compileVariant nested config kind = .ok variant) : variant.kind = kind := by
  cases kind with
  | request | input =>
    obtain ⟨_, -, success⟩ := Outcome.bind_ok_iff.mp success
    cases success
    rfl
  | memory | multiple =>
    obtain ⟨_, -, success⟩ := Outcome.bind_ok_iff.mp success
    obtain ⟨_, -, success⟩ := Outcome.bind_ok_iff.mp success
    cases success
    rfl
  | multipleCustom =>
    obtain ⟨_, -, success⟩ := Outcome.bind_ok_iff.mp success
    dsimp only at success
    split at success
    · cases success
    · obtain ⟨_, -, success⟩ := Outcome.bind_ok_iff.mp success
      cases success
      rfl

theorem wellFormed_of_compileWithin {table : DispatchTable} {levels : Nat}
    {inherited : Option String} {config : StepConfig} {spec : FetchSpec}
    (success : compileWithin table levels inherited config = .ok spec) : spec.WellFormed := by
  obtain ⟨below, own, apiKeyName, kind, variant, -, -, compiled, rfl⟩ := compileWithin_ok success
  refine ⟨kind_of_compileVariant compiled, fun requests keys same => ?_⟩
  obtain rfl : variant = .multipleCustom requests (some keys) := same
  exact Fetch.length_of_compileVariant compiled

end FetchSpec

/-! What lies in a compiled spec has been compiled as well. -/

/-- A configuration is compiled to a spec: as a step of a document, of a group to each of its
transforms, or as a fetch or a transform for itself. -/
inductive StepConfig.CompilesTo (table : DispatchTable) (config : StepConfig) : Link → Prop
  | step {index : Nat} {step : Step} {spec : Link}
    (success : Step.compile table index config = .ok step) (begins : step.action.Begins spec) :
    CompilesTo table config spec
  | fetch {inherited : Option String} {spec : FetchSpec}
    (success : FetchSpec.compile table inherited config = .ok spec) :
    CompilesTo table config (.fetch spec)
  | transform {spec : TransformSpec} {key : String}
    (success : TransformSpec.compile table config = .ok spec) :
    CompilesTo table config (.transform spec key)

namespace Link

/-- A fetch or a transform has been compiled, at some depth. -/
def Compiled (table : DispatchTable) : Link → Prop
  | .fetch spec => ∃ levels inherited config,
    FetchSpec.compileWithin table levels inherited config = .ok spec
  | .transform spec _ => ∃ levels config, TransformSpec.compileWithin table levels config = .ok spec
  | .sequence _ => True

variable {table : DispatchTable} {outer inner : Link}

theorem compiled_of_compileAction {config : StepConfig} {kind : StepKind} {action : Action}
    (success : Step.compileAction table config kind = .ok action) (begins : action.Begins outer) :
    outer.Compiled table := by
  cases kind with
  | fetch =>
    obtain ⟨key, -, success⟩ := Outcome.bind_ok_iff.mp success
    obtain ⟨spec, compiled, success⟩ := Outcome.bind_ok_iff.mp success
    cases success
    cases begins
    exact ⟨_, _, _, compiled⟩
  | transform =>
    obtain ⟨spec, compiled, success⟩ := Outcome.bind_ok_iff.mp success
    cases success
    cases begins
    exact ⟨_, _, compiled⟩
  | transformGroup =>
    obtain ⟨specs, compiled, success⟩ := Outcome.bind_ok_iff.mp success
    cases success
    cases begins with
    | member listed =>
      obtain ⟨configs, -, compiled⟩ := Outcome.bind_ok_iff.mp compiled
      obtain ⟨config, -, success⟩ := Outcome.mapM_ok_made compiled listed
      exact ⟨_, config, success⟩
  | sequence =>
    obtain ⟨spec, -, success⟩ := Outcome.bind_ok_iff.mp success
    cases success
    cases begins
    trivial

theorem compiled_of_compilesTo {config : StepConfig} (compiled : config.CompilesTo table outer) :
    outer.Compiled table := by
  cases compiled with
  | fetch success => exact ⟨_, _, _, success⟩
  | transform success => exact ⟨_, _, success⟩
  | step success begins =>
    obtain ⟨kind, -, success⟩ := Step.compile_ok success
    exact compiled_of_compileAction success begins

theorem Compiled.contains (compiled : outer.Compiled table) (contains : Contains outer inner) :
    inner.Compiled table := by
  cases contains with
  | nested listed =>
    obtain ⟨levels, config, success⟩ := compiled
    obtain ⟨below, kind, keys, newKeys, op, -, compiled, -, -, same⟩ :=
      TransformSpec.compileWithin_ok success
    cases same
    obtain ⟨configs, compiled⟩ := TransformSpec.compileOp_each compiled
    obtain ⟨config, -, success⟩ := Outcome.mapM_ok_made compiled listed
    exact ⟨below, config, success⟩
  | alternative =>
    obtain ⟨levels, inherited, config, success⟩ := compiled
    obtain ⟨below, own, _, kind, variant, -, -, compiled, same⟩ :=
      FetchSpec.compileWithin_ok success
    cases same
    obtain ⟨given, -, success⟩ := FetchSpec.compileVariant_nested compiled
    exact ⟨below, _, given, success⟩
  | request listed =>
    obtain ⟨levels, inherited, config, success⟩ := compiled
    obtain ⟨below, own, _, kind, variant, -, -, compiled, same⟩ :=
      FetchSpec.compileWithin_ok success
    cases same
    obtain ⟨configs, -, compiled⟩ := FetchSpec.compileVariant_nested compiled
    obtain ⟨given, -, success⟩ := Outcome.mapM_ok_made compiled listed
    exact ⟨below, _, given, success⟩

/-- So is whatever lies in it at any depth. -/
theorem Compiled.within (compiled : outer.Compiled table)
    (within : Relation.ReflTransGen Contains outer inner) : inner.Compiled table := by
  induction within with
  | refl => exact compiled
  | tail _ contains ih => exact ih.contains contains

end Link

namespace StepConfig

open Link (Contains)
open Fetch (Gives run written)

/-- Whatever a configuration is compiled to, every transform and every fetch in it, at any depth, is
well formed. So a transform finds the output key for each of its keys among its new keys, and a
fetch with keys that ends well has filled in every key and run every request, in order. -/
theorem parts_wellFormed {table : DispatchTable} {config : StepConfig} {outer : Link}
    (compiled : config.CompilesTo table outer) :
    (∀ spec key, Relation.ReflTransGen Contains outer (.transform spec key) →
      spec.WellFormed ∧ spec.op.isKeyed = spec.kind.needsKeys ∧
      ∀ newKeys, spec.newKeys = some newKeys → ∀ place source, place < spec.keys.length →
        newKeys[place]? = some (spec.outputKey place source)) ∧
    ∀ spec, Relation.ReflTransGen Contains outer (.fetch spec) →
      spec.WellFormed ∧
      ∀ requests keys, spec.variant = .multipleCustom requests (some keys) →
        ∀ surroundings context scope world result after, context.config.testing = false →
          run surroundings context scope spec world = (.ok result, after) →
          ∃ texts responses,
            List.Forall₂ (fun key text => context.formatText scope key = .ok text) keys texts ∧
            Gives (requests.map (run surroundings context scope)) world responses after ∧
            result = .object (written [] texts responses) := by
  have begun := Link.compiled_of_compilesTo compiled
  constructor
  · intro spec key within
    obtain ⟨levels, config, success⟩ := begun.within within
    have wellFormed := TransformSpec.wellFormed_of_compileWithin success
    exact ⟨wellFormed, wellFormed.op_suits.isKeyed_eq,
      fun newKeys given place source there => wellFormed.outputKey given there source⟩
  · intro spec within
    obtain ⟨levels, inherited, config, success⟩ := begun.within within
    have wellFormed := FetchSpec.wellFormed_of_compileWithin success
    refine ⟨wellFormed, fun requests keys keyed surroundings context scope world result after => ?_⟩
    obtain ⟨kind, name, apiKeyName, variant⟩ := spec
    obtain rfl : variant = .multipleCustom requests (some keys) := keyed
    exact Fetch.run_custom_ok (wellFormed.keys_length requests keys rfl)

/-- Days whose texts are written under other names. -/
def renamedDays : StepConfig where
  type := "transform"
  params := [("transformation", .array [.object [("type", .string "loop"),
    ("values", .string "days"), ("transformation", .array [.object [("type", .string "replace"),
      ("keys", .array [.string "_loop.text", .string "city"]),
      ("new_keys", .array [.string "_loop.sky", .string "place"]),
      ("old_value", .string "-"), ("new_value", .string " ")]])]])]

def renamed : TransformSpec :=
  .mk .replace ["_loop.text", "city"] (some ["_loop.sky", "place"])
    (.replace (.string "-") (.string " ") (.ofInt (-1)))

def renamedLoop : TransformSpec := .mk .loop [] none (.each (.string "days") [renamed])

/-- The winds of two places, if there is no snapshot. -/
def windsOrLast : StepConfig where
  type := "request_memory"
  params := [("alternative", .object [("type", .string "request_multiple_custom"),
    ("name", .string "winds"), ("use_loop_as_key", .bool true),
    ("steps_value", .array [.ofNat 7, .string "\x7bdays.1.text\x7d"]),
    ("requests", .array [
      .object [("type", .string "input"), ("name", .string "north"), ("input", .string "calm")],
      .object [("type", .string "input"), ("name", .string "south"),
        ("input", .string "storm")]])])]

def windsFetch : FetchSpec := Fetch.winds "winds" [.ofNat 7, .string "\x7bdays.1.text\x7d"]

/-- The transform in the loop of the group and the requests of the alternative are well formed, and
both winds are fetched. -/
theorem parts_wellFormed_nested :
    renamedDays.CompilesTo .builtin (.transform renamedLoop "") ∧ renamed.WellFormed ∧
      ["_loop.sky", "place"][1]? = some (renamed.outputKey 1 "city") ∧
    windsOrLast.CompilesTo .builtin
      (.fetch (.mk .memory "request_memory" none (.memory 1 none (some windsFetch)))) ∧
      windsFetch.WellFormed ∧
      ∃ texts responses,
        List.Forall₂ (fun key text => Context.forecast.formatText Scope.root key = .ok text)
          [.ofNat 7, .string "\x7bdays.1.text\x7d"] texts ∧
        responses.length = 2 ∧
        .object [("7", .string "calm"), ("rain", .string "storm")] =
          Value.object (written [] texts responses) := by
  have group : Step.compile .builtin 0 renamedDays =
      .ok ⟨0, "transform", none, .transforms [renamedLoop]⟩ := rfl
  have memory : FetchSpec.compile .builtin none windsOrLast =
      .ok (.mk .memory "request_memory" none (.memory 1 none (some windsFetch))) := rfl
  have days : renamedDays.CompilesTo .builtin (.transform renamedLoop "") :=
    .step group (.member (List.mem_singleton_self _))
  have winds : windsOrLast.CompilesTo .builtin
      (.fetch (.mk .memory "request_memory" none (.memory 1 none (some windsFetch)))) :=
    .fetch memory
  obtain ⟨wellFormed, -, output⟩ :=
    (parts_wellFormed days).1 renamed "" (.single (.nested (List.mem_singleton_self _)))
  obtain ⟨paired, runs⟩ := (parts_wellFormed winds).2 windsFetch (.single .alternative)
  obtain ⟨texts, responses, filled, gives, result⟩ :=
    runs _ _ rfl Action.offline Context.forecast Scope.root {} _ {} rfl rfl
  exact ⟨days, wellFormed, output _ rfl 1 "city" (by decide), winds, paired, texts, responses,
    filled, gives.length_eq, result⟩

end StepConfig

end Newsreel
