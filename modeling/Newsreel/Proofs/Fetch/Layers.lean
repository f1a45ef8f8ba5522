import Newsreel.Proofs.Layers
import Newsreel.Proofs.Run.Failures

/-!
What the layers of a failed fetch tell.

Every fetch on the way to the one that failed puts one layer around the failure. Where a snapshot is
missing, the way goes on into the alternative, and nothing is told of the snapshot. The requests
behind the one that failed have not been sent.
-/

namespace Newsreel.Fetch

open Attempt Link Outcome

variable {surroundings : Surroundings} {context : Context} {scope : Scope} {before after : World}
  {error cause : StepError} {chain : List Link}

/-- How a fetch, begun on one world, fails with a cause and leaves another world, and the chain of
fetches down to the one whose own work failed. In a list of requests, the first one that fails stops
the work. -/
inductive Fails (surroundings : Surroundings) (context : Context) (scope : Scope) :
    FetchSpec → World → List Link → StepError → World → Prop where
  | own {kind : FetchKind} {name : String} {apiKeyName : Option String} {variant : FetchVariant}
      {before after : World} {cause : StepError}
      (failed : runVariant surroundings context scope name apiKeyName variant before =
        (.error cause, after))
      (unlayered : cause.isLayer = false) :
      Fails surroundings context scope (.mk kind name apiKeyName variant) before
        [.fetch (.mk kind name apiKeyName variant)] cause after
  | alternative {kind : FetchKind} {name : String} {apiKeyName : Option String} {useLast : Nat}
      {timedelta : Option Float} {alternative : FetchSpec} {before between after : World}
      {miss cause : StepError} {chain : List Link}
      (missed : remembered surroundings context.config name useLast timedelta before =
        (.error miss, between))
      (isMiss : miss.isCacheMiss = true)
      (fails : Fails surroundings context scope alternative between chain cause after) :
      Fails surroundings context scope
        (.mk kind name apiKeyName (.memory useLast timedelta (some alternative))) before
        (.fetch (.mk kind name apiKeyName (.memory useLast timedelta (some alternative))) :: chain)
        cause after
  | request {kind : FetchKind} {name : String} {apiKeyName : Option String}
      {requests : List FetchSpec} {keys : Option (List Value)} {j : Nat} {spec : FetchSpec}
      {before between after : World} {cause : StepError} {chain : List Link}
      (stops : StopsAt (fun requests => runVariant surroundings context scope name apiKeyName
        (.multipleCustom requests keys)) requests before j spec between (told chain cause) after)
      (fails : Fails surroundings context scope spec between chain cause after) :
      Fails surroundings context scope
        (.mk kind name apiKeyName (.multipleCustom requests keys)) before
        (.fetch (.mk kind name apiKeyName (.multipleCustom requests keys)) :: chain) cause after

section Fails

variable {spec : FetchSpec}

theorem Fails.unlayered (fails : Fails surroundings context scope spec before chain cause after) :
    cause.isLayer = false := by
  induction fails with
  | own failed unlayered => exact unlayered
  | alternative missed isMiss fails ih => exact ih
  | request stops fails ih => exact ih

/-- The chain begins with the fetch, and each of its fetches lies in the one before. -/
theorem Fails.path (fails : Fails surroundings context scope spec before chain cause after) :
    Path (.fetch spec) chain := by
  induction fails with
  | own failed unlayered => exact path_singleton _
  | alternative missed isMiss fails ih => exact ih.cons .alternative
  | request stops fails ih => exact ih.cons (.request (List.mem_of_getElem? stops.present))

end Fails

/-! Lists of fetches. -/

/-- A list of fetches stops where one of them fails. -/
theorem runAll_error {specs : List FetchSpec}
    (failure : runAll surroundings context scope specs before = (.error error, after)) :
    ∃ j spec between,
      StopsAt (runAll surroundings context scope) specs before j spec between error after ∧
      run surroundings context scope spec between = (.error error, after) := by
  induction specs generalizing before with
  | nil =>
    rw [runAll] at failure
    cases failure
  | cons first rest ih =>
    rw [runAll] at failure
    rcases bind_error_iff.mp failure with failed | ⟨value, between, done, failure⟩
    · refine ⟨0, first, before, stopsAt_first (a := []) ?_ fun later => ?_, failed⟩
      · rw [runAll]
        rfl
      · rw [runAll]
        exact bind_run_error failed
    · rcases bind_error_iff.mp failure with failure | ⟨values, behind, -, ended⟩
      · obtain ⟨j, spec, behind, stops, failed⟩ := ih failure
        refine ⟨j + 1, spec, behind, (stops.map (value :: ·)).cons fun specs => ?_, failed⟩
        rw [runAll]
        exact bind_run_ok done
      · cases ended

/-- So does a list of fetches under keys, unless the template of a key has no text. -/
theorem runKeyed_error {gathered : Fields} {keys : List Value} {specs : List FetchSpec}
    (failure : runKeyed surroundings context scope gathered keys specs before =
      (.error error, after)) :
    error.isBare = true ∨ ∃ j spec between,
      StopsAt (runKeyed surroundings context scope gathered keys) specs before j spec between error
        after ∧
      run surroundings context scope spec between = (.error error, after) := by
  induction specs generalizing gathered keys before with
  | nil =>
    rw [runKeyed_no_specs] at failure
    cases failure
  | cons first rest ih =>
    cases keys with
    | nil =>
      rw [runKeyed_no_keys] at failure
      cases failure
    | cons key keys =>
      rw [runKeyed] at failure
      rcases bind_error_iff.mp failure with refused | ⟨text, between, formatted, failure⟩
      · exact Or.inl (context.formatText_bare scope key error (congrArg Prod.fst refused))
      · obtain ⟨-, rfl⟩ := ofExcept_ok_iff.mp formatted
        rcases bind_error_iff.mp failure with failed | ⟨value, between, done, failure⟩
        · refine Or.inr ⟨0, first, before, stopsAt_first (a := gathered) ?_ fun later => ?_, failed⟩
          · rw [runKeyed_no_specs]
            rfl
          · rw [runKeyed]
            exact (bind_run_ok formatted).trans (bind_run_error failed)
        · refine (ih failure).imp_right ?_
          rintro ⟨j, spec, behind, stops, failed⟩
          refine ⟨j + 1, spec, behind, stops.cons fun specs => ?_, failed⟩
          rw [runKeyed]
          exact (bind_run_ok formatted).trans (bind_run_ok done)

/-! What a fetch fails with. -/

/-- The requests of a list stop where the list of fetches stops. -/
theorem multipleCustom_stopsAt {name : String} {apiKeyName : Option String}
    {requests : List FetchSpec} {keys : Option (List Value)}
    (live : context.config.testing = false)
    (failure : runVariant surroundings context scope name apiKeyName
      (.multipleCustom requests keys) before = (.error error, after)) :
    error.isBare = true ∨ ∃ j spec between,
      StopsAt (fun requests => runVariant surroundings context scope name apiKeyName
        (.multipleCustom requests keys)) requests before j spec between error after ∧
      run surroundings context scope spec between = (.error error, after) := by
  simp only [runVariant, unlessTesting, live, Bool.false_eq_true, if_false] at failure ⊢
  cases keys with
  | some keys =>
    rcases bind_error_iff.mp failure with failure | ⟨fields, behind, -, ended⟩
    · refine (runKeyed_error failure).imp_right ?_
      rintro ⟨j, spec, between, stops, failed⟩
      exact ⟨j, spec, between, stops.map Value.object, failed⟩
    · cases ended
  | none =>
    rcases bind_error_iff.mp failure with failure | ⟨values, behind, -, ended⟩
    · obtain ⟨j, spec, between, stops, failed⟩ := runAll_error failure
      exact Or.inr ⟨j, spec, between, stops.map Value.array, failed⟩
    · cases ended

/-- A fetch fails by its own work, or because a fetch in it fails. -/
theorem runVariant_error {name : String} {apiKeyName : Option String} {variant : FetchVariant}
    (failure : runVariant surroundings context scope name apiKeyName variant before =
      (.error error, after)) :
    error.isBare = true ∨
    (∃ useLast timedelta alternative miss between,
      variant = .memory useLast timedelta (some alternative) ∧
      remembered surroundings context.config name useLast timedelta before =
        (.error miss, between) ∧
      miss.isCacheMiss = true ∧
      run surroundings context scope alternative between = (.error error, after)) ∨
    ∃ requests keys j spec between, variant = .multipleCustom requests keys ∧
      StopsAt (fun requests => runVariant surroundings context scope name apiKeyName
        (.multipleCustom requests keys)) requests before j spec between error after ∧
      run surroundings context scope spec between = (.error error, after) := by
  have joins : Effect.Joins fun work => work.FailsAs (·.isBare = true) :=
    Effect.joins_failsAs fun _ => id
  have sends (request : Request) : (Effect.send surroundings request).FailsAs (·.isBare = true) :=
    Effect.send_failsAs (fun _ => id) surroundings request
  have reads : (fixture context.config name).FailsAs (·.isBare = true) :=
    fixture_failsAs (fun _ => id) context.config name
  -- A fixture is read for a request in testing mode, and it fails with a bare cause as well.
  have tested {work : Effect Value} (bare : work.FailsAs (·.isBare = true))
      (failure : unlessTesting context name work before = (.error error, after)) :
      error.isBare = true := by
    rw [unlessTesting] at failure
    split at failure
    · exact reads before error (congrArg Prod.fst failure)
    · exact bare before error (congrArg Prod.fst failure)
  cases variant with
  | request request =>
    rw [runVariant] at failure
    exact Or.inl (tested (sendRequest_holds joins sends apiKeyName request) failure)
  | input input =>
    rw [runVariant] at failure
    exact Or.inl (context.deepFormat_bare scope apiKeyName input error (congrArg Prod.fst failure))
  | multiple request stepsValue useLoopAsKey =>
    rw [runVariant] at failure
    exact Or.inl
      (tested (sendMultiple_holds joins sends apiKeyName request stepsValue useLoopAsKey) failure)
  | memory useLast timedelta alternative =>
    rw [runVariant_memory_eq] at failure
    rcases look : remembered surroundings context.config name useLast timedelta before with
      ⟨source | value, between⟩
    · have bare : source.isBare = true :=
        (remembered_failsAs _ _ _ _ _ before source (congrArg Prod.fst look)).isBare
      rw [tryCatch_run_error look] at failure
      split at failure
      · next isMiss =>
        cases alternative with
        | none =>
          rw [runAlternative] at failure
          cases failure
          exact Or.inl bare
        | some alternative =>
          rw [runAlternative] at failure
          exact Or.inr (Or.inl ⟨_, _, _, source, between, rfl, look, isMiss, failure⟩)
      · cases failure
        exact Or.inl bare
    · rw [tryCatch_run_ok look] at failure
      cases failure
  | multipleCustom requests keys =>
    by_cases testing : context.config.testing = true
    · simp only [runVariant, unlessTesting, testing, if_true] at failure
      exact Or.inl (reads before error (congrArg Prod.fst failure))
    · refine (multipleCustom_stopsAt (Bool.eq_false_iff.mpr testing) failure).imp_right ?_
      rintro ⟨j, spec, between, stops, failed⟩
      exact Or.inr ⟨_, _, j, spec, between, rfl, stops, failed⟩

/-- A fetch that fails tells how it failed. -/
theorem fails_of_error {spec : FetchSpec}
    (failure : run surroundings context scope spec before = (.error error, after)) :
    ∃ chain cause, Fails surroundings context scope spec before chain cause after ∧
      error = told chain cause := by
  -- Requests lie in a list inside the fetch, so the induction is on its size.
  induction size : sizeOf spec using Nat.strong_induction_on
    generalizing spec before after error with
  | _ bound ih =>
    obtain ⟨kind, name, apiKeyName, variant⟩ := spec
    rw [run] at failure
    obtain ⟨source, inside, rfl⟩ := annotate_error_iff.mp failure
    rcases runVariant_error inside with
      bare | ⟨useLast, timedelta, alternative, miss, between, rfl, missed, isMiss, failed⟩ |
      ⟨requests, keys, j, spec, between, rfl, stops, failed⟩
    · exact ⟨_, source, .own inside (StepError.isLayer_of_isBare bare), rfl⟩
    · have smaller : sizeOf alternative < bound := by
        simp only [FetchSpec.mk.sizeOf_spec, FetchVariant.memory.sizeOf_spec,
          Option.some.sizeOf_spec] at size
        omega
      obtain ⟨chain, cause, fails, rfl⟩ := ih _ smaller failed rfl
      exact ⟨_, cause, .alternative missed isMiss fails, rfl⟩
    · have within := List.sizeOf_lt_of_mem (List.mem_of_getElem? stops.present)
      have smaller : sizeOf spec < bound := by
        simp only [FetchSpec.mk.sizeOf_spec, FetchVariant.multipleCustom.sizeOf_spec] at size
        omega
      obtain ⟨chain, cause, fails, rfl⟩ := ih _ smaller failed rfl
      exact ⟨_, cause, .request stops fails, rfl⟩

/-- And where it fails in this way, that is what it tells. -/
theorem error_of_fails {spec : FetchSpec}
    (fails : Fails surroundings context scope spec before chain cause after) :
    run surroundings context scope spec before = (.error (told chain cause), after) := by
  induction fails with
  | own failed unlayered =>
    rw [run]
    exact annotate_error_iff.mpr ⟨_, failed, rfl⟩
  | alternative missed isMiss fails ih =>
    rw [run]
    refine annotate_error_iff.mpr ⟨_, ?_, rfl⟩
    rw [runVariant_memory_eq, tryCatch_run_error missed, if_pos isMiss, runAlternative]
    exact ih
  | request stops fails ih =>
    rw [run]
    exact annotate_error_iff.mpr ⟨_, stops.failed, rfl⟩

end Newsreel.Fetch
