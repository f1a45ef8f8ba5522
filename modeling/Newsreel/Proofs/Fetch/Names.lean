import Newsreel.Proofs.Document.Types

/-!
The names of nested fetches.

Wherever a fetch lies in another one, as an alternative or as one of several requests, it has the
name that it declares itself, or else the one declared nearest around it. Where none is declared on
the way, it goes by the name of the kind of the outermost one.
-/

namespace Newsreel

/-- A way into a fetch that holds others. -/
inductive Turn where
  | alternative
  | request (place : Nat)

namespace Value

/-- What a step of a document has at a turn. -/
def turn? (step : Value) : Turn → Option Value
  | .alternative => step.field? "alternative"
  | .request place => (step.itemsAt "requests")[place]?

/-- The name that a step declares. -/
def declaredName? (step : Value) : Option String := match step.field? "name" with
  | some (.string name) => some name
  | _ => none

/-- The names that are declared on the way to a nested step, its own included, the nearest first. -/
def namesAlong : List Turn → Value → List String
  | [], step => step.declaredName?.toList
  | turn :: rest, step =>
    ((step.turn? turn).map (namesAlong rest)).getD [] ++ step.declaredName?.toList

end Value

namespace FetchSpec

/-- The fetch that lies behind some turns. -/
def at? : List Turn → FetchSpec → Option FetchSpec
  | [], spec => some spec
  | .alternative :: rest, .mk _ _ _ (.memory _ _ (some alternative)) => at? rest alternative
  | .request place :: rest, .mk _ _ _ (.multipleCustom requests _) =>
    requests[place]?.bind (at? rest)
  | _ :: _, _ => none

end FetchSpec

theorem headD_append {α : Type} (xs ys : List α) (a : α) :
    (xs ++ ys).headD a = xs.headD (ys.headD a) := by
  cases xs <;> rfl

open Decode

section Reading

variable {config inner : StepConfig} {value : Value} {place : Nat}

theorem StepConfig.Represents.declaredName (represents : config.Represents value)
    {own : Option String} (success : FetchSpec.nameField.get config.params = .ok own) :
    value.declaredName? = own := by
  rw [Value.declaredName?, represents.params "name" (by decide)]
  obtain ⟨stated, found, decoded⟩ | ⟨missing, ⟨⟩⟩ := RecordField.get_cases success
  · have found : Fields.find? "name" config.params = some stated := found
    rw [found]
    cases stated with
    | string name =>
      cases decoded
      rfl
    | null =>
      cases decoded
      rfl
    | _ => cases decoded
  · have missing : Fields.find? "name" config.params = none := missing
    rw [missing]

/-- The alternative of a step stands where the step has it. -/
theorem StepConfig.Represents.alternative (represents : config.Represents value)
    (success : FetchSpec.alternativeField.get config.params = .ok (some inner)) :
    ∃ item, value.turn? .alternative = some item ∧ inner.Represents item := by
  rw [Value.turn?, represents.params "alternative" (by decide)]
  obtain ⟨item, found, read⟩ := FetchSpec.alternative_of_get success
  exact ⟨item, found, represents_ofValue read⟩

/-- The requests of a step stand where the step has them. -/
theorem StepConfig.Represents.request (represents : config.Represents value)
    {configs : List StepConfig} (success : FetchSpec.requestsField.get config.params = .ok configs)
    (there : configs[place]? = some inner) :
    ∃ item, value.turn? (.request place) = some item ∧ inner.Represents item := by
  rw [Value.turn?, Value.itemsAt, represents.params "requests" (by decide)]
  obtain ⟨items, found, read⟩ | absent := items_of_get rfl success
  · have found : Fields.find? "requests" config.params = some (.array items) := found
    obtain ⟨item, listed, read⟩ := Outcome.mapM_ok_at read there
    rw [found]
    exact ⟨item, listed, represents_ofValue read⟩
  · cases absent

end Reading

namespace FetchSpec

variable {table : DispatchTable} {config : StepConfig} {inherited : Option String}
  {spec inner : FetchSpec} {nested : StepConfig → Except StepError FetchSpec} {kind : FetchKind}

/-- Where the fetches within a fetch have been compiled from. -/
theorem compileVariant_nested {variant : FetchVariant}
    (success : compileVariant nested config kind = .ok variant) : match variant with
      | .memory _ _ (some inner) => ∃ given,
        alternativeField.get config.params = .ok (some given) ∧ nested given = .ok inner
      | .multipleCustom specs _ => ∃ configs,
        requestsField.get config.params = .ok configs ∧ configs.mapM nested = .ok specs
      | _ => True := by
  cases kind with
  | request =>
    obtain ⟨_, -, success⟩ := Outcome.bind_ok_iff.mp success
    cases success
    trivial
  | input =>
    obtain ⟨_, -, success⟩ := Outcome.bind_ok_iff.mp success
    cases success
    trivial
  | memory =>
    obtain ⟨⟨_, _, alternative⟩, read, success⟩ := Outcome.bind_ok_iff.mp success
    obtain ⟨made, compiled, success⟩ := Outcome.bind_ok_iff.mp success
    cases success
    cases alternative with
    | none =>
      cases compiled
      trivial
    | some given =>
      have compiled : (nested given).map some = .ok made := compiled
      cases ran : nested given with
      | error error =>
        rw [ran] at compiled
        cases compiled
      | ok inner =>
        rw [ran] at compiled
        cases compiled
        exact ⟨given, memoryParams_ok read, ran⟩
  | multiple =>
    obtain ⟨_, -, success⟩ := Outcome.bind_ok_iff.mp success
    obtain ⟨_, -, success⟩ := Outcome.bind_ok_iff.mp success
    cases success
    trivial
  | multipleCustom =>
    obtain ⟨⟨configs, keys, keyed⟩, read, success⟩ := Outcome.bind_ok_iff.mp success
    dsimp only at success
    split at success
    · cases success
    · obtain ⟨specs, compiled, success⟩ := Outcome.bind_ok_iff.mp success
      cases success
      exact ⟨configs, customParams_ok read, compiled⟩

/-- A nested fetch is named as the document declares it nearest around it. -/
theorem name_at {levels : Nat} {value : Value} {turns : List Turn}
    (success : compileWithin table levels inherited config = .ok spec)
    (represents : config.Represents value) (there : spec.at? turns = some inner) :
    inner.name = (value.namesAlong turns).headD (inherited.getD spec.kind.name) := by
  -- What a fetch hands on as inherited is its own name, with nothing left to the kinds within.
  induction turns generalizing levels inherited config spec value with
  | nil =>
    obtain ⟨below, own, _, kind, variant, -, read, -, rfl⟩ := compileWithin_ok success
    cases there
    rw [Value.namesAlong, represents.declaredName read]
    cases own <;> rfl
  | cons turn rest ih =>
    obtain ⟨below, own, _, kind, variant, -, read, compiled, rfl⟩ := compileWithin_ok success
    have nestedName {config : StepConfig} {item : Value} {spec : FetchSpec}
        (turned : value.turn? turn = some item) (within : config.Represents item)
        (success : compileWithin table below (some ((own.or inherited).getD kind.name)) config =
          .ok spec) (there : spec.at? rest = some inner) :
        inner.name = (value.namesAlong (turn :: rest)).headD (inherited.getD kind.name) := by
      rw [ih success within there, Value.namesAlong, turned, represents.declaredName read,
        headD_append]
      cases own <;> rfl
    cases turn with
    | alternative =>
      cases variant with
      | memory useLast timedelta alternative =>
        cases alternative with
        | none => cases there
        | some alternative =>
          obtain ⟨given, got, success⟩ := compileVariant_nested compiled
          obtain ⟨item, turned, within⟩ := represents.alternative got
          exact nestedName turned within success there
      | _ => cases there
    | request place =>
      cases variant with
      | multipleCustom specs keys =>
        obtain ⟨spec, listed, there⟩ := Option.bind_eq_some_iff.mp there
        obtain ⟨configs, got, success⟩ := compileVariant_nested compiled
        obtain ⟨given, present, success⟩ := Outcome.mapM_ok_at success listed
        obtain ⟨item, turned, within⟩ := represents.request got present
        exact nestedName turned within success there
      | _ => cases there

end FetchSpec

end Newsreel
