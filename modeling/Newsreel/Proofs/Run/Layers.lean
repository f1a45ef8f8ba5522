import Newsreel.Proofs.Fetch.Layers
import Newsreel.Proofs.Run.FailedStep
import Newsreel.Proofs.Transform.Layers

/-!
What the layers of a failed step tell.

The layers of the error are told by a path through the specs of the step: it begins with the spec of
the step, or of a group with the transform that failed, and ends with the spec whose own work
failed. Each spec on the path has put one layer around the failure, and no spec behind one of them
has been run.
-/

namespace Newsreel

open Attempt Link

/-- An encoder can report an error, when it measures an audio file or when it is started. -/
def Encoder.Reports (encoder : Encoder) (error : StepError) : Prop :=
  (∃ path, encoder.audioDuration path = .error error) ∨
    ∃ before call, encoder.run before call = .error error

/-- An error is in no layer, unless the encoder can report it. -/
def Encoder.Allows (encoder : Encoder) (error : StepError) : Prop :=
  error.isLayer = false ∨ encoder.Reports error

/-- What the programs of a machine report is never in a layer. -/
theorem Programs.reports_unlayered {programs : Programs} {error : StepError}
    (reports : programs.encoder.Reports error) : error.isLayer = false := by
  have covers (error : StepError) : error.isBare = true → error.isLayer = false :=
    StepError.isLayer_of_isBare
  rcases reports with ⟨path, failed⟩ | ⟨before, call, failed⟩
  · exact programs.audioDuration_failsAs covers path error failed
  · exact programs.encode_failsAs covers before call error failed

namespace Media

variable {surroundings : Surroundings} {context : Context} {scope : Scope} {spec : SequenceSpec}
  {before after : World} {cause : StepError}

/-- A sequence puts its layer around a cause that is in none, or around what the encoder reports. -/
theorem assemble_error
    (failure : assemble surroundings context scope spec before =
      (.error (.sequence spec.kind cause), after)) : surroundings.encoder.Allows cause := by
  have covers (error : StepError) (bare : error.isBare = true) :
      surroundings.encoder.Allows error := Or.inl (StepError.isLayer_of_isBare bare)
  have measuring (path : String) :
      Outcome.FailsAs surroundings.encoder.Allows (surroundings.encoder.audioDuration path) :=
    fun _ failed => Or.inr (Or.inl ⟨path, failed⟩)
  have running (before : List EncoderCall) (call : EncoderCall) :
      Outcome.FailsAs surroundings.encoder.Allows (surroundings.encoder.run before call) :=
    fun _ failed => Or.inr (Or.inr ⟨before, call, failed⟩)
  obtain ⟨source, inside, same⟩ := annotate_error_iff.mp failure
  cases same
  exact body_holds (Effect.joins_failsAs covers) (pieces_failsAs covers measuring running context)
    scope spec before _ (congrArg Prod.fst inside)

end Media

namespace Action

/-- The spec with which the path of a step's failure begins. -/
inductive Begins : Action → Link → Prop
  | fetch {key : String} {spec : FetchSpec} : Begins (.fetch key spec) (.fetch spec)
  | transform {spec : TransformSpec} {key : String} :
    Begins (.transform spec) (.transform spec key)
  | member {specs : List TransformSpec} {spec : TransformSpec} {key : String}
    (listed : spec ∈ specs) : Begins (.transforms specs) (.transform spec key)
  | sequence {spec : SequenceSpec} : Begins (.sequence spec) (.sequence spec)

/-- How a step, begun on a context and a world, fails with a cause and leaves others, and the chain
of specs down to the one that failed. In a group, the first transform that fails stops the work. A
fetch or a sequence also fails by the write of its value. -/
inductive Fails (surroundings : Surroundings) (scope : Scope) :
    Action → Context × World → List Link → StepError → Context × World → Prop where
  | fetch {key : String} {spec : FetchSpec} {context : Context} {before after : World}
      {chain : List Link} {cause : StepError}
      (fails : Fetch.Fails surroundings context scope spec before chain cause after) :
      Fails surroundings scope (.fetch key spec) (context, before) chain cause (context, after)
  | fetchWrite {key : String} {spec : FetchSpec} {context : Context} {before after : World}
      {value : Value} {cause : StepError}
      (fetched : Fetch.run surroundings context scope spec before = (.ok value, after))
      (refused : (context.insert key value scope).1 = .error cause) :
      Fails surroundings scope (.fetch key spec) (context, before) [.fetch spec] cause
        (context, after)
  | transform {spec : TransformSpec} {before after : Context} {world : World} {chain : List Link}
      {cause : StepError}
      (fails : Transform.Fails surroundings.chance scope spec before chain cause after) :
      Fails surroundings scope (.transform spec) (before, world) chain cause (after, world)
  | member {specs : List TransformSpec} {j : Nat} {spec : TransformSpec}
      {before between after : Context} {world : World} {chain : List Link} {cause : StepError}
      (stops : StopsAt (Transform.applyAll surroundings.chance scope) specs before j spec between
        (told chain cause) after)
      (fails : Transform.Fails surroundings.chance scope spec between chain cause after) :
      Fails surroundings scope (.transforms specs) (before, world) chain cause (after, world)
  | sequence {spec : SequenceSpec} {context : Context} {before after : World} {cause : StepError}
      (failed : Media.assemble surroundings context scope spec before =
        (.error (.sequence spec.kind cause), after)) :
      Fails surroundings scope (.sequence spec) (context, before) [.sequence spec] cause
        (context, after)
  | sequenceWrite {spec : SequenceSpec} {context : Context} {before after : World}
      {output : String} {cause : StepError}
      (made : Media.assemble surroundings context scope spec before = (.ok output, after))
      (refused : (context.insert spec.key (.string output) scope).1 = .error cause) :
      Fails surroundings scope (.sequence spec) (context, before) [.sequence spec] cause
        (context, after)

variable {surroundings : Surroundings} {scope : Scope} {action : Action}
  {before after : Context × World} {error cause : StepError} {chain : List Link}

/-- The cause is in no layer, unless an encoder has reported one. -/
theorem Fails.unlayered_or_reported
    (fails : action.Fails surroundings scope before chain cause after) :
    cause.isLayer = false ∨
      (∃ spec, action = .sequence spec) ∧ surroundings.encoder.Reports cause := by
  have refusal {context : Context} {path : String} {value : Value}
      (refused : (context.insert path value scope).1 = .error cause) : cause.isLayer = false :=
    StepError.isLayer_of_isBare (context.insert_bare path scope value cause refused)
  cases fails with
  | fetch fails => exact Or.inl fails.unlayered
  | fetchWrite fetched refused => exact Or.inl (refusal refused)
  | transform fails => exact Or.inl (StepError.isLayer_of_isBare fails.isBare)
  | member stops fails => exact Or.inl (StepError.isLayer_of_isBare fails.isBare)
  | sequence failed =>
    exact Or.imp_right (fun reports => ⟨⟨_, rfl⟩, reports⟩) (Media.assemble_error failed)
  | sequenceWrite made refused => exact Or.inl (refusal refused)

/-- The chain is a path from the spec of the step. -/
theorem Fails.path (fails : action.Fails surroundings scope before chain cause after) :
    ∃ first, action.Begins first ∧ Path first chain := by
  cases fails with
  | fetch fails => exact ⟨_, .fetch, fails.path⟩
  | fetchWrite fetched refused => exact ⟨_, .fetch, path_singleton _⟩
  | transform fails =>
    obtain ⟨key, path⟩ := fails.path
    exact ⟨_, .transform, path⟩
  | member stops fails =>
    obtain ⟨key, path⟩ := fails.path
    exact ⟨_, .member (List.mem_of_getElem? stops.present), path⟩
  | sequence failed => exact ⟨_, .sequence, path_singleton _⟩
  | sequenceWrite made refused => exact ⟨_, .sequence, path_singleton _⟩

/-- A step that fails tells how it failed. -/
theorem fails_of_error (failure : action.run surroundings scope before = (.error error, after)) :
    ∃ chain cause, action.Fails surroundings scope before chain cause after ∧
      error = told chain cause := by
  obtain ⟨context, world⟩ := before
  obtain ⟨contextAfter, worldAfter⟩ := after
  cases action with
  | fetch key spec =>
    rw [run] at failure
    obtain ⟨rfl, failed | ⟨value, cause, fetched, refused, rfl⟩⟩ := write_last_error_iff.mp failure
    · obtain ⟨chain, cause, fails, rfl⟩ := Fetch.fails_of_error failed
      exact ⟨chain, cause, .fetch fails, rfl⟩
    · exact ⟨_, cause, .fetchWrite fetched refused, rfl⟩
  | transform spec =>
    rw [run] at failure
    rcases bind_error_iff.mp failure with failed | ⟨⟨⟩, last, -, ended⟩
    · obtain ⟨stopped, rfl⟩ := onContext_error_iff.mp failed
      obtain ⟨chain, cause, fails, rfl⟩ := Transform.fails_of_error stopped
      exact ⟨chain, cause, .transform fails, rfl⟩
    · cases ended
  | transforms specs =>
    rw [run] at failure
    rcases bind_error_iff.mp failure with failed | ⟨⟨⟩, last, -, ended⟩
    · obtain ⟨stopped, rfl⟩ := onContext_error_iff.mp failed
      obtain ⟨j, spec, between, present, earlier, broke⟩ := Transform.applyAll_error_iff.mp stopped
      obtain ⟨chain, cause, fails, rfl⟩ := Transform.fails_of_error broke
      exact ⟨chain, cause, .member (Transform.applyAll_stopsAt present earlier broke) fails, rfl⟩
    · cases ended
  | sequence spec =>
    rw [run] at failure
    obtain ⟨rfl, failed | ⟨output, cause, made, refused, rfl⟩⟩ := write_last_error_iff.mp failure
    · obtain ⟨cause, inside, rfl⟩ := annotate_error_iff.mp failed
      exact ⟨_, cause, .sequence failed, rfl⟩
    · exact ⟨_, cause, .sequenceWrite made refused, rfl⟩

/-- And where it fails in this way, that is what it tells. -/
theorem error_of_fails (fails : action.Fails surroundings scope before chain cause after) :
    action.run surroundings scope before = (.error (told chain cause), after) := by
  cases fails with
  | fetch fails =>
    rw [run]
    exact write_last_error_iff.mpr ⟨rfl, Or.inl (Fetch.error_of_fails fails)⟩
  | fetchWrite fetched refused =>
    rw [run]
    exact write_last_error_iff.mpr ⟨rfl, Or.inr ⟨_, _, fetched, refused, rfl⟩⟩
  | transform fails =>
    rw [run]
    exact bind_run_error (onContext_error_iff.mpr ⟨Transform.error_of_fails fails, rfl⟩)
  | member stops fails =>
    rw [run]
    exact bind_run_error (onContext_error_iff.mpr ⟨stops.failed, rfl⟩)
  | sequence failed =>
    rw [run]
    exact write_last_error_iff.mpr ⟨rfl, Or.inl failed⟩
  | sequenceWrite made refused =>
    rw [run]
    exact write_last_error_iff.mpr ⟨rfl, Or.inr ⟨_, _, made, refused, rfl⟩⟩

/-- A step that fails tells a path through its specs: it begins with the spec of the step, of a
group with the transform that failed, and each spec has the next one in it. The error is the cause
in one layer for each spec of the path, and how the step failed accounts for every one of them: what
it was at work on, and that nothing behind it has been run. The cause itself is in no layer, unless
it is the encoder that has reported one. The programs of a machine never do. -/
theorem run_error_tells
    (failure : action.run surroundings scope before = (.error error, after)) :
    (∃ first chain cause, action.Begins first ∧ Path first chain ∧
      action.Fails surroundings scope before chain cause after ∧
      error = told chain cause ∧
      (cause.isLayer = false ∧ error.root = cause ∨
        (∃ spec, action = .sequence spec) ∧ surroundings.encoder.Reports cause)) ∧
    ∀ (programs : Programs) reported, programs.encoder.Reports reported →
      reported.isLayer = false := by
  obtain ⟨chain, cause, fails, rfl⟩ := fails_of_error failure
  obtain ⟨first, begins, path⟩ := fails.path
  refine ⟨⟨first, chain, cause, begins, path, fails, rfl, ?_⟩,
    fun programs reported => Programs.reports_unlayered⟩
  refine fails.unlayered_or_reported.imp_left fun unlayered => ⟨unlayered, ?_⟩
  rw [root_told, StepError.root_of_unlayered unlayered]

/-- The wind is not known to the forecast. -/
def missingWind : FetchSpec := .mk .input "wind" none (.input (.string "\x7bwind\x7d"))

/-- What is fetched if there is no snapshot: the sky, the wind and the rain. -/
def skyAndWind : FetchSpec :=
  .mk .multipleCustom "both" none (.multipleCustom [.mk .input "sky" none (.input (.string "sun")),
    missingWind, .mk .input "rain" none (.input (.string "rain"))] none)

/-- The snapshot is missing. -/
def lastOrNow : FetchSpec := .mk .memory "last" none (.memory 1 none (some skyAndWind))

/-- The wind lies two specs deep, and there are three layers around the cause. -/
theorem run_error_tells_wind :
    ∃ chain after, (Action.fetch "news" lastOrNow).run offline Scope.root (Context.forecast, {}) =
        (.error (told chain (.unresolved "wind")), after) ∧
      told chain (.unresolved "wind") = .fetch .memory "last" (.fetch .multipleCustom "both"
        (.fetch .input "wind" (.unresolved "wind"))) ∧
      Path (.fetch lastOrNow) chain ∧
      (Action.fetch "news" lastOrNow).Fails offline Scope.root (Context.forecast, {}) chain
        (.unresolved "wind") after := by
  obtain ⟨after, failure⟩ : ∃ after,
      (Action.fetch "news" lastOrNow).run offline Scope.root (Context.forecast, {}) =
        (.error (.fetch .memory "last" (.fetch .multipleCustom "both"
          (.fetch .input "wind" (.unresolved "wind")))), after) := ⟨_, Prod.ext rfl rfl⟩
  obtain ⟨⟨first, chain, cause, begins, path, fails, tells, unlayered | reported⟩, -⟩ :=
    run_error_tells failure
  · cases begins
    obtain rfl : StepError.unresolved "wind" = cause := unlayered.2
    exact ⟨chain, after, failure.trans (by rw [tells]), tells.symm, path, fails⟩
  · obtain ⟨⟨spec, impossible⟩, -⟩ := reported
    cases impossible

end Action

end Newsreel
