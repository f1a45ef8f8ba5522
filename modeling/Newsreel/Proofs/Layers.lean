import Mathlib.Data.List.Chain
import Newsreel.Fetch.Spec
import Newsreel.Media.Spec
import Newsreel.Proofs.Fault

/-!
Layers of errors.

A spec that fails puts one layer around what it fails with: a fetch tells its kind and its name, a
transform its kind and the key it was at work on, a sequence its kind. So the layers of an error are
told by a chain of specs, the outermost one first, and below them lies the cause.
-/

namespace Newsreel

/-- A spec that has failed; of a transform also the key that it was at work on. -/
inductive Link where
  | fetch (spec : FetchSpec)
  | transform (spec : TransformSpec) (key : String)
  | sequence (spec : SequenceSpec)

namespace Link

/-- The layer that a spec puts around what it fails with. -/
def layer : Link → StepError → StepError
  | .fetch spec => .fetch spec.kind spec.name
  | .transform spec key => .transform spec.kind key
  | .sequence spec => .sequence spec.kind

/-- A cause as a chain of specs tells it. -/
def told (chain : List Link) (cause : StepError) : StepError := chain.foldr layer cause

/-- A spec has another one in it: a loop its nested transforms, a fetch from memory its alternative,
a list of requests its requests. -/
inductive Contains : Link → Link → Prop
  | nested {kind : TransformKind} {keys : List String} {newKeys : Option (List String)}
      {array : Value} {transformation : List TransformSpec} {spec : TransformSpec}
      {key inner : String} (listed : spec ∈ transformation) :
      Contains (.transform (.mk kind keys newKeys (.each array transformation)) key)
        (.transform spec inner)
  | alternative {kind : FetchKind} {name : String} {apiKeyName : Option String} {useLast : Nat}
      {timedelta : Option Float} {spec : FetchSpec} :
      Contains (.fetch (.mk kind name apiKeyName (.memory useLast timedelta (some spec))))
        (.fetch spec)
  | request {kind : FetchKind} {name : String} {apiKeyName : Option String}
      {requests : List FetchSpec} {keys : Option (List Value)} {spec : FetchSpec}
      (listed : spec ∈ requests) :
      Contains (.fetch (.mk kind name apiKeyName (.multipleCustom requests keys))) (.fetch spec)

@[simp] theorem told_cons (link : Link) (chain : List Link) (cause : StepError) :
    told (link :: chain) cause = link.layer (told chain cause) := rfl

@[simp] theorem root_layer (link : Link) (error : StepError) :
    (link.layer error).root = error.root := by
  cases link <;> rfl

theorem root_told (chain : List Link) (cause : StepError) :
    (told chain cause).root = cause.root := by
  induction chain with
  | nil => rfl
  | cons link chain ih => rw [told_cons, root_layer, ih]

/-- From a spec on, each spec of a chain has the next one in it. -/
structure Path (first : Link) (chain : List Link) : Prop where
  begins : chain.head? = some first
  within : chain.IsChain Contains

theorem path_singleton (link : Link) : Path link [link] := ⟨rfl, .singleton link⟩

theorem Path.cons {outer first : Link} {chain : List Link} (path : Path first chain)
    (contains : Contains outer first) : Path outer (outer :: chain) := by
  obtain ⟨rest, rfl⟩ := List.head?_eq_some_iff.mp path.begins
  exact ⟨rfl, .cons_cons contains path.within⟩

end Link

end Newsreel
