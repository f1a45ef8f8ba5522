import Newsreel.Proofs.Layers
import Newsreel.Proofs.Transform.Stops

/-!
What the layers of a failed transform tell.

Every transform on the way to the one that failed puts one layer around the failure: a loop its
array, a transform without an implementation its first key, any other transform the key at which it
failed. The transforms behind the one that failed have not been run.
-/

namespace Newsreel.Transform

open Attempt Link Outcome

/-- How a transform, begun on one context, fails with a cause and leaves another context, and the
chain of transforms down to the one whose own work failed. Of the items of a loop, and in a list of
transforms, the first one that fails stops the work. -/
inductive Fails (chance : Chance) :
    Scope → TransformSpec → Context → List Link → StepError → Context → Prop where
  | key {scope : Scope} {spec : TransformSpec} {before after : Context} {index : Nat}
      {key : String} {cause : StepError} (keyed : spec.op.isKeyed = true)
      (present : spec.keys[index]? = some key)
      (earlier : apply chance scope (spec.firstKeys index) before = (.ok (), after))
      (failed : applyKey chance spec.op key (spec.outputKey index key)
        (keyScope spec.kind scope index key) after = (.error cause, after)) :
      Fails chance scope spec before [.transform spec key] cause after
  | unimplemented {scope : Scope} {kind : TransformKind} {keys : List String}
      {newKeys : Option (List String)} {before : Context} :
      Fails chance scope (.mk kind keys newKeys .unimplemented) before
        [.transform (.mk kind keys newKeys .unimplemented) (keys.headD "")] (.notImplemented kind)
        before
  | noArray {scope : Scope} {kind : TransformKind} {keys : List String}
      {newKeys : Option (List String)} {array : Value} {transformation : List TransformSpec}
      {before : Context} {cause : StepError}
      (failed : before.iterations array kind.name scope = .error cause) :
      Fails chance scope (.mk kind keys newKeys (.each array transformation)) before
        [.transform (.mk kind keys newKeys (.each array transformation)) array.text] cause before
  | nested {scope : Scope} {kind : TransformKind} {keys : List String}
      {newKeys : Option (List String)} {array : Value} {transformation : List TransformSpec}
      {before between inner after : Context} {iterations : List Iteration} {iteration : Iteration}
      {i j : Nat} {spec : TransformSpec} {chain : List Link} {cause : StepError}
      (begun : before.iterations array kind.name scope = .ok iterations)
      (reached : StopsAt (forEach fun scope => applyAll chance scope transformation) iterations
        before i iteration between (told chain cause) after)
      (stops : StopsAt (applyAll chance iteration.scope) transformation between j spec inner
        (told chain cause) after)
      (fails : Fails chance iteration.scope spec inner chain cause after) :
      Fails chance scope (.mk kind keys newKeys (.each array transformation)) before
        (.transform (.mk kind keys newKeys (.each array transformation)) array.text :: chain) cause
        after

variable {chance : Chance} {scope : Scope} {before after : Context} {error cause : StepError}
  {chain : List Link} {spec : TransformSpec}

/-! Causes. -/

theorem write_bare (path : String) (value : Value) (scope : Scope) (context : Context) :
    Bare (Edit.write path value scope context).1 := context.insert_bare path scope value

/-- A key fails for want of a value or because the value cannot be written. -/
theorem applyKey_bare {op : TransformOp} {key target : String}
    (failure : applyKey chance op key target scope before = (.error error, after)) :
    error.isBare = true := by
  rcases bind_error_iff.mp failure with looked | ⟨value, between, -, failure⟩
  · exact outcome_bare before scope chance key op error (congrArg Prod.fst looked)
  · rcases bind_error_iff.mp failure with refused | ⟨⟨⟩, behind, -, drawn⟩
    · exact write_bare target value scope between error (congrArg Prod.fst refused)
    · have fine := countDraw_ok op behind
      rw [drawn] at fine
      cases fine

theorem Fails.isBare (fails : Fails chance scope spec before chain cause after) :
    cause.isBare = true := by
  induction fails with
  | key keyed present earlier failed => exact applyKey_bare failed
  | unimplemented => rfl
  | noArray failed => exact Context.iterations_bare _ _ _ _ _ failed
  | nested begun reached stops fails ih => exact ih

/-- The chain begins with the transform, and each of its transforms lies in the one before. -/
theorem Fails.path (fails : Fails chance scope spec before chain cause after) :
    ∃ key, Path (.transform spec key) chain := by
  induction fails with
  | key keyed present earlier failed => exact ⟨_, path_singleton _⟩
  | unimplemented => exact ⟨_, path_singleton _⟩
  | noArray failed => exact ⟨_, path_singleton _⟩
  | nested begun reached stops fails ih =>
    obtain ⟨key, path⟩ := ih
    exact ⟨_, path.cons (.nested (List.mem_of_getElem? stops.present))⟩

/-! Failures. -/

/-- A list of transforms stops where one of them fails on what those before it have left. -/
theorem applyAll_stopsAt {specs : List TransformSpec} {j : Nat} {between : Context}
    (present : specs[j]? = some spec)
    (earlier : applyAll chance scope (specs.take j) before = (.ok (), between))
    (failed : apply chance scope spec between = (.error error, after)) :
    StopsAt (applyAll chance scope) specs before j spec between error after := by
  rw [applyAll_eq_inOrder] at earlier
  rw [funext (applyAll_eq_inOrder chance scope)]
  exact inOrder_map_stopsAt present earlier failed

/-- So does a loop over items. -/
theorem forEach_stopsAt {body : Scope → Edit Unit} {iterations : List Iteration}
    {iteration : Iteration} {i : Nat} {between : Context}
    (reached : iterations[i]? = some iteration)
    (earlier : forEach body (iterations.take i) before = (.ok (), between))
    (failed : body iteration.scope between = (.error error, after)) :
    StopsAt (forEach body) iterations before i iteration between error after := by
  rw [forEach_eq_inOrder] at earlier
  rw [funext (forEach_eq_inOrder body)]
  exact inOrder_map_stopsAt reached earlier failed

/-- A transform that fails tells how it failed. -/
theorem fails_of_error (failure : apply chance scope spec before = (.error error, after)) :
    ∃ chain cause, Fails chance scope spec before chain cause after ∧ error = told chain cause := by
  -- Nested transforms lie in a list inside the transform, so the induction is on its size.
  induction size : sizeOf spec using Nat.strong_induction_on
    generalizing spec scope before after error with
  | _ bound ih =>
    by_cases keyed : spec.op.isKeyed = true
    · obtain ⟨index, key, present, earlier, failed⟩ := (apply_keyed_error_iff keyed).mp failure
      obtain ⟨cause, inside, rfl⟩ := annotate_error_iff.mp (Prod.ext failed rfl)
      rw [applyKey_error inside] at inside
      exact ⟨_, cause, .key keyed present earlier inside, rfl⟩
    · obtain ⟨kind, keys, newKeys, op⟩ := spec
      cases op with
      | each array transformation =>
        rcases apply_each_error failure with
          ⟨cause, refused, rfl, rfl⟩ |
          ⟨iterations, i, iteration, between, j, nested, inner, source, begun, reached, earlier,
            present, earlierInside, failed, rfl⟩
        · exact ⟨_, cause, .noArray refused, rfl⟩
        · have within := List.sizeOf_lt_of_mem (List.mem_of_getElem? present)
          have smaller : sizeOf nested < bound := by
            simp only [TransformSpec.mk.sizeOf_spec, TransformOp.each.sizeOf_spec] at size
            omega
          obtain ⟨chain, cause, fails, rfl⟩ := ih _ smaller failed rfl
          have stops := applyAll_stopsAt present earlierInside failed
          exact ⟨_, cause, .nested begun (forEach_stopsAt reached earlier stops.failed) stops fails,
            rfl⟩
      | select relevantKeys =>
        rw [apply, applyOp] at failure
        cases failure
      | unimplemented =>
        rw [apply, applyOp] at failure
        cases failure
        exact ⟨_, _, .unimplemented, rfl⟩
      | _ => exact absurd rfl keyed

/-- And where it fails in this way, that is what it tells. -/
theorem error_of_fails (fails : Fails chance scope spec before chain cause after) :
    apply chance scope spec before = (.error (told chain cause), after) := by
  cases fails with
  | key keyed present earlier failed =>
    refine (apply_keyed_error_iff keyed).mpr ⟨_, _, present, earlier, ?_⟩
    exact congrArg Prod.fst (annotate_error_iff.mpr ⟨_, failed, rfl⟩)
  | unimplemented =>
    rw [apply, applyOp]
    rfl
  | noArray refused =>
    rw [apply, applyOp]
    exact annotate_error_iff.mpr ⟨_, look_bind_error refused, rfl⟩
  | nested begun reached stops fails =>
    rw [apply, applyOp]
    refine annotate_error_iff.mpr ⟨_, bind_error_iff.mpr (Or.inr ?_), rfl⟩
    exact ⟨_, _, congrArg (fun found => (found, _)) begun, reached.failed⟩

end Newsreel.Transform
