import Newsreel.Proofs.Attempt
import Newsreel.Proofs.Context.Locate
import Newsreel.Transform.Apply

/-!
What is left of a transform that fails.

Keys, iterations and nested transforms all are pieces of work in order, and the write of a key is the
last thing that can fail in it. So a failure leaves what the pieces before it have written, and at the
depth where it happens nothing of the piece that failed.
-/

namespace Newsreel

/-- The operations that work key by key. -/
def TransformOp.isKeyed : TransformOp → Bool
  | .each _ _ | .select _ | .unimplemented => false
  | _ => true

/-- The transform for the first of its keys. -/
def TransformSpec.firstKeys (spec : TransformSpec) (count : Nat) : TransformSpec :=
  .mk spec.kind (spec.keys.take count) (spec.newKeys.map (·.take count)) spec.op

namespace Transform

variable {chance : Chance} {scope : Scope} {before after : Context} {error : StepError}

/-- The work of a keyed transform on the key at a place. -/
def keyWork (chance : Chance) (spec : TransformSpec) (scope : Scope) (place : Nat) (key : String) :
    Edit Unit :=
  Attempt.annotate (.transform spec.kind key)
    (applyKey chance spec.op key (spec.outputKey place key) (keyScope spec.kind scope place key))

/-- A transform, begun on one context, stops with a failure and leaves another one: a keyed transform
what it makes of the keys before the one that fails; a loop what it makes of the iterations before
the one that fails, of the nested transforms before the one that fails in it, and of the latter by
the same rule. A loop that does not come to its first iteration changes nothing. -/
inductive Stops (chance : Chance) : Scope → TransformSpec → Context → Context → Prop where
  | key {scope : Scope} {spec : TransformSpec} {before after : Context} {index : Nat}
      {key : String} {error : StepError} (keyed : spec.op.isKeyed = true)
      (present : spec.keys[index]? = some key)
      (earlier : apply chance scope (spec.firstKeys index) before = (.ok (), after))
      (failed : (keyWork chance spec scope index key after).1 = .error error) :
      Stops chance scope spec before after
  | unimplemented {scope : Scope} {kind : TransformKind} {keys : List String}
      {newKeys : Option (List String)} {before : Context} :
      Stops chance scope (.mk kind keys newKeys .unimplemented) before before
  | noArray {scope : Scope} {kind : TransformKind} {keys : List String}
      {newKeys : Option (List String)} {array : Value} {transformation : List TransformSpec}
      {before : Context} {error : StepError}
      (failed : before.iterations array kind.name scope = .error error) :
      Stops chance scope (.mk kind keys newKeys (.each array transformation)) before before
  | nested {scope : Scope} {kind : TransformKind} {keys : List String}
      {newKeys : Option (List String)} {array : Value} {transformation : List TransformSpec}
      {before between inner after : Context} {iterations : List Iteration} {iteration : Iteration}
      {i j : Nat} {spec : TransformSpec}
      (begun : before.iterations array kind.name scope = .ok iterations)
      (reached : iterations[i]? = some iteration)
      (earlier : forEach (fun scope => applyAll chance scope transformation) (iterations.take i)
        before = (.ok (), between))
      (present : transformation[j]? = some spec)
      (earlierInside : applyAll chance iteration.scope (transformation.take j) between =
        (.ok (), inner))
      (stopped : Stops chance iteration.scope spec inner after) :
      Stops chance scope (.mk kind keys newKeys (.each array transformation)) before after

/-- The same rule for a list of transforms. -/
def StopsAll (chance : Chance) (scope : Scope) (specs : List TransformSpec)
    (before after : Context) : Prop :=
  ∃ (j : Nat) (spec : TransformSpec) (between : Context), specs[j]? = some spec ∧
    applyAll chance scope (specs.take j) before = (.ok (), between) ∧
    Stops chance scope spec between after

/-! Pieces of work. -/

theorem applyAll_eq_inOrder (chance : Chance) (scope : Scope) (specs : List TransformSpec) :
    applyAll chance scope specs = Attempt.inOrder (specs.map (apply chance scope)) := by
  induction specs with
  | nil => rw [applyAll]; rfl
  | cons spec rest ih =>
    rw [applyAll, ih]
    rfl

theorem forEach_eq_inOrder (body : Scope → Edit Unit) (iterations : List Iteration) :
    forEach body iterations =
      Attempt.inOrder (iterations.map fun iteration => body iteration.scope) := by
  induction iterations with
  | nil => rfl
  | cons iteration rest ih =>
    rw [forEach, ih]
    rfl

theorem applyKeys_eq_inOrder (chance : Chance) (spec : TransformSpec) (scope : Scope) (start : Nat)
    (keys : List String) : applyKeys chance spec scope start keys = Attempt.inOrder
      (keys.mapIdx fun place key => keyWork chance spec scope (start + place) key) := by
  induction keys generalizing start with
  | nil => rfl
  | cons key rest ih =>
    rw [applyKeys, ih, List.mapIdx_cons, Attempt.inOrder]
    simp only [keyWork, Nat.add_zero, Nat.add_assoc, Nat.add_comm 1]

theorem apply_keyed {spec : TransformSpec} (keyed : spec.op.isKeyed = true) :
    apply chance scope spec = applyKeys chance spec scope 0 spec.keys := by
  obtain ⟨kind, keys, newKeys, op⟩ := spec
  rw [apply]
  cases op with
  | each array transformation => cases keyed
  | select relevantKeys => cases keyed
  | unimplemented => cases keyed
  | _ => rw [applyOp]; rfl

/-- Leaving out later keys changes nothing about the earlier ones. -/
theorem keyWork_firstKeys {spec : TransformSpec} {place count : Nat} (early : place < count)
    (chance : Chance) (scope : Scope) (key : String) :
    keyWork chance (spec.firstKeys count) scope place key = keyWork chance spec scope place key := by
  have target : (spec.firstKeys count).outputKey place key = spec.outputKey place key := by
    rw [TransformSpec.outputKey, TransformSpec.outputKey, TransformSpec.firstKeys,
      TransformSpec.newKeys]
    cases spec.newKeys with
    | none => rfl
    | some newKeys => simp [early]
  rw [keyWork, target]
  rfl

theorem apply_firstKeys {spec : TransformSpec} (keyed : spec.op.isKeyed = true) (count : Nat) :
    apply chance scope (spec.firstKeys count) =
      Attempt.inOrder ((spec.keys.mapIdx (keyWork chance spec scope)).take count) := by
  have keyedFirst : (spec.firstKeys count).op.isKeyed = true := keyed
  rw [apply_keyed keyedFirst, applyKeys_eq_inOrder]
  refine congrArg Attempt.inOrder (List.ext_getElem? fun place => ?_)
  have keys : (spec.firstKeys count).keys = spec.keys.take count := rfl
  rw [keys, List.getElem?_mapIdx, List.getElem?_take, List.getElem?_take, List.getElem?_mapIdx]
  split
  · next early => simp only [Nat.zero_add, keyWork_firstKeys early]
  · rfl

theorem countDraw_ok (op : TransformOp) (context : Context) :
    (countDraw op context).1 = .ok () := by
  cases op <;> rfl

/-- A key that fails changes nothing. -/
theorem applyKey_error {op : TransformOp} {key target : String}
    (failure : applyKey chance op key target scope before = (.error error, after)) :
    after = before := by
  rw [applyKey, Attempt.bind_error_iff] at failure
  rcases failure with looked | ⟨value, between, looked, failure⟩
  · exact (congrArg Prod.snd looked).symm
  · obtain rfl : before = between := congrArg Prod.snd looked
    rcases Attempt.bind_error_iff.mp failure with refused | ⟨⟨⟩, behind, -, drawn⟩
    · have kept := Context.insert_error (congrArg Prod.fst refused)
      exact (congrArg Prod.snd refused).symm.trans kept
    · have fine := countDraw_ok op behind
      rw [drawn] at fine
      cases fine

theorem keyWork_error {spec : TransformSpec} {place : Nat} {key : String}
    (failure : keyWork chance spec scope place key before = (.error error, after)) :
    after = before := by
  obtain ⟨source, failure, -⟩ := Attempt.annotate_error_iff.mp failure
  exact applyKey_error failure

/-! Failures. -/

theorem applyAll_error_iff {specs : List TransformSpec} :
    applyAll chance scope specs before = (.error error, after) ↔
      ∃ j spec between, specs[j]? = some spec ∧
        applyAll chance scope (specs.take j) before = (.ok (), between) ∧
        apply chance scope spec between = (.error error, after) := by
  simp only [applyAll_eq_inOrder]
  exact Attempt.inOrder_map_error_iff

theorem forEach_error_iff {body : Scope → Edit Unit} {iterations : List Iteration} :
    forEach body iterations before = (.error error, after) ↔
      ∃ i iteration between, iterations[i]? = some iteration ∧
        forEach body (iterations.take i) before = (.ok (), between) ∧
        body iteration.scope between = (.error error, after) := by
  simp only [forEach_eq_inOrder]
  exact Attempt.inOrder_map_error_iff

/-- A keyed transform fails at a key, and leaves what its earlier keys alone leave. -/
theorem apply_keyed_error_iff {spec : TransformSpec} (keyed : spec.op.isKeyed = true) :
    apply chance scope spec before = (.error error, after) ↔
      ∃ (index : Nat) (key : String), spec.keys[index]? = some key ∧
        apply chance scope (spec.firstKeys index) before = (.ok (), after) ∧
        (keyWork chance spec scope index key after).1 = .error error := by
  rw [apply_keyed keyed, applyKeys_eq_inOrder, Attempt.inOrder_error_iff]
  simp only [Nat.zero_add, apply_firstKeys keyed]
  constructor
  · rintro ⟨index, work, between, present, earlier, failed⟩
    rw [List.getElem?_mapIdx, Option.map_eq_some_iff] at present
    obtain ⟨key, present, rfl⟩ := present
    obtain rfl := keyWork_error failed
    exact ⟨index, key, present, earlier, congrArg Prod.fst failed⟩
  · rintro ⟨index, key, present, earlier, failed⟩
    refine ⟨index, keyWork chance spec scope index key, after, ?_, earlier, ?_⟩
    · rw [List.getElem?_mapIdx, present]
      rfl
    · rcases run : keyWork chance spec scope index key after with ⟨outcome, behind⟩
      rw [run] at failed
      cases failed
      rw [keyWork_error run]

/-- A loop fails before its first iteration or in a nested transform. -/
theorem apply_each_error {kind : TransformKind} {keys : List String}
    {newKeys : Option (List String)} {array : Value} {transformation : List TransformSpec}
    (failure : apply chance scope (.mk kind keys newKeys (.each array transformation)) before =
      (.error error, after)) :
    (∃ source, before.iterations array kind.name scope = .error source ∧ after = before ∧
      error = .transform kind array.text source) ∨
    ∃ iterations i iteration between j spec inner source,
      before.iterations array kind.name scope = .ok iterations ∧ iterations[i]? = some iteration ∧
      forEach (fun scope => applyAll chance scope transformation) (iterations.take i) before =
        (.ok (), between) ∧
      transformation[j]? = some spec ∧
      applyAll chance iteration.scope (transformation.take j) between = (.ok (), inner) ∧
      apply chance iteration.scope spec inner = (.error source, after) ∧
      error = .transform kind array.text source := by
  rw [apply, applyOp] at failure
  obtain ⟨source, inside, rfl⟩ := Attempt.annotate_error_iff.mp failure
  rcases Attempt.bind_error_iff.mp inside with refused | ⟨iterations, _, begun, inside⟩
  · exact Or.inl ⟨source, congrArg Prod.fst refused, (congrArg Prod.snd refused).symm, rfl⟩
  · obtain rfl : before = _ := congrArg Prod.snd begun
    obtain ⟨i, iteration, between, reached, earlier, inside⟩ := forEach_error_iff.mp inside
    obtain ⟨j, spec, inner, present, earlierInside, failed⟩ := applyAll_error_iff.mp inside
    exact Or.inr ⟨iterations, i, iteration, between, j, spec, inner, source,
      congrArg Prod.fst begun, reached, earlier, present, earlierInside, failed, rfl⟩

/-- Whatever makes a transform fail, it stops by the rule. -/
theorem stops_of_error {spec : TransformSpec}
    (failure : apply chance scope spec before = (.error error, after)) :
    Stops chance scope spec before after := by
  -- Nested transforms lie in a list inside the transform, so the induction is on its size.
  induction size : sizeOf spec using Nat.strong_induction_on
    generalizing spec scope before after error with
  | _ bound ih =>
    by_cases keyed : spec.op.isKeyed = true
    · obtain ⟨index, key, present, earlier, failed⟩ := (apply_keyed_error_iff keyed).mp failure
      exact .key keyed present earlier failed
    · obtain ⟨kind, keys, newKeys, op⟩ := spec
      cases op with
      | each array transformation =>
        rcases apply_each_error failure with
          ⟨source, refused, rfl, -⟩ |
          ⟨iterations, i, iteration, between, j, nested, inner, source, begun, reached, earlier,
            present, earlierInside, failed, -⟩
        · exact .noArray refused
        · have within := List.sizeOf_lt_of_mem (List.mem_of_getElem? present)
          have smaller : sizeOf nested < bound := by
            simp only [TransformSpec.mk.sizeOf_spec, TransformOp.each.sizeOf_spec] at size
            omega
          exact .nested begun reached earlier present earlierInside (ih _ smaller failed rfl)
      | select relevantKeys =>
        rw [apply, applyOp] at failure
        cases failure
      | unimplemented =>
        rw [apply, applyOp] at failure
        cases failure
        exact .unimplemented
      | _ => exact absurd rfl keyed

/-- And where the rule applies the transform fails, so the rule leaves no choice. -/
theorem error_of_stops {spec : TransformSpec} (stops : Stops chance scope spec before after) :
    ∃ error, apply chance scope spec before = (.error error, after) := by
  induction stops with
  | key keyed present earlier failed =>
    exact ⟨_, (apply_keyed_error_iff keyed).mpr ⟨_, _, present, earlier, failed⟩⟩
  | unimplemented =>
    simp only [apply, applyOp]
    exact ⟨_, rfl⟩
  | noArray refused =>
    simp only [apply, applyOp]
    exact ⟨_, Attempt.annotate_error_iff.mpr ⟨_, Attempt.look_bind_error refused, rfl⟩⟩
  | nested begun reached earlier present earlierInside stopped ih =>
    obtain ⟨source, failed⟩ := ih
    have inside := applyAll_error_iff.mpr ⟨_, _, _, present, earlierInside, failed⟩
    have outside := forEach_error_iff.mpr ⟨_, _, _, reached, earlier, inside⟩
    simp only [apply, applyOp]
    refine ⟨_, Attempt.annotate_error_iff.mpr ⟨source, Attempt.bind_error_iff.mpr ?_, rfl⟩⟩
    exact Or.inr ⟨_, _, congrArg (fun found => (found, _)) begun, outside⟩

theorem stops_unique {spec : TransformSpec} {other : Context}
    (stops : Stops chance scope spec before after)
    (stopsOther : Stops chance scope spec before other) : other = after := by
  obtain ⟨_, failed⟩ := error_of_stops stops
  obtain ⟨_, failedOther⟩ := error_of_stops stopsOther
  exact congrArg Prod.snd (failedOther.symm.trans failed)

theorem stopsAll_of_error {specs : List TransformSpec}
    (failure : applyAll chance scope specs before = (.error error, after)) :
    StopsAll chance scope specs before after := by
  obtain ⟨j, spec, between, present, earlier, failed⟩ := applyAll_error_iff.mp failure
  exact ⟨j, spec, between, present, earlier, stops_of_error failed⟩

theorem error_of_stopsAll {specs : List TransformSpec}
    (stops : StopsAll chance scope specs before after) :
    ∃ error, applyAll chance scope specs before = (.error error, after) := by
  obtain ⟨j, spec, between, present, earlier, stopped⟩ := stops
  obtain ⟨error, failed⟩ := error_of_stops stopped
  exact ⟨error, applyAll_error_iff.mpr ⟨j, spec, between, present, earlier, failed⟩⟩

theorem stopsAll_unique {specs : List TransformSpec} {other : Context}
    (stops : StopsAll chance scope specs before after)
    (stopsOther : StopsAll chance scope specs before other) : other = after := by
  obtain ⟨_, failed⟩ := error_of_stopsAll stops
  obtain ⟨_, failedOther⟩ := error_of_stopsAll stopsOther
  exact congrArg Prod.snd (failedOther.symm.trans failed)

end Transform

end Newsreel
