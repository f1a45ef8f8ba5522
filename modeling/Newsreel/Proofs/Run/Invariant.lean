import Newsreel.Proofs.Files.Places
import Newsreel.Proofs.Run.Ending
import Newsreel.Proofs.Run.Pieces
import Newsreel.Proofs.Transform.Outputs

/-!
What stays true while steps run.

Transforms touch the context only by writing and by counting random choices, fetches touch the world
only by sending requests, and sequences only make directories, write the list of their audio files
and start the encoder. What these pieces of work preserve, every step preserves.
-/

namespace Newsreel

/-- True of a context whatever is written and chosen. -/
structure Edit.Stable (invariant : Context → Prop) : Prop where
  writes : ∀ path value scope, (Edit.write path value scope).Preserves invariant
  draws : ∀ context, invariant context → invariant { context with draws := context.draws + 1 }

/-! Transforms. -/

namespace Transform

variable {invariant : Context → Prop}

theorem forEach_preserves {body : Scope → Edit Unit}
    (each : ∀ scope, (body scope).Preserves invariant) (iterations : List Iteration) :
    (forEach body iterations).Preserves invariant := by
  rw [forEach_eq_inOrder]
  refine Attempt.preserves_inOrder fun work member => ?_
  obtain ⟨iteration, -, rfl⟩ := List.mem_map.mp member
  exact each iteration.scope

mutual
theorem apply_preserves (stable : Edit.Stable invariant) (chance : Chance) (scope : Scope) :
    (spec : TransformSpec) → (apply chance scope spec).Preserves invariant
  | .mk kind keys newKeys op => by
    match op with
    | .each array transformation =>
      rw [apply, applyOp]
      refine Attempt.Preserves.annotate ((Attempt.preserves_look _).bind fun iterations => ?_) _
      exact forEach_preserves
        (fun scope => applyAll_preserves stable chance scope transformation) iterations
    | .select _ =>
      rw [apply, applyOp]
      exact Attempt.preserves_pure ()
    | .unimplemented =>
      rw [apply, applyOp]
      exact fun _ holds => holds
    | .addSymbol _ | .replace _ _ _ | .dateFormat _ | .dateWeekday _ | .dateNow _
    | .windDirection _ _ | .chooseRandom _ _ =>
      exact apply_keyed_preserves rfl stable.draws chance fun _ _ _ value =>
        stable.writes _ value _

theorem applyAll_preserves (stable : Edit.Stable invariant) (chance : Chance) (scope : Scope) :
    (specs : List TransformSpec) → (applyAll chance scope specs).Preserves invariant
  | [] => by
    rw [applyAll]
    exact Attempt.preserves_pure ()
  | spec :: rest => by
    rw [applyAll]
    exact (apply_preserves stable chance scope spec).bind fun _ =>
      applyAll_preserves stable chance scope rest
end

end Transform

theorem Effect.composes_preserves (invariant : World → Prop) :
    Composes fun work => work.Preserves invariant where
  ofExcept _ := Attempt.preserves_ofExcept _
  bind := Attempt.Preserves.bind
  annotate _ inside := inside.annotate _
  recover first later := first.recover fun error => later error (Attempt.preserves_throw _)

/-! Fetches. -/

namespace Fetch

variable {invariant : World → Prop} {surroundings : Surroundings}

theorem readValue_preserves (path : String) : (Effect.readValue path).Preserves invariant := by
  have reads : (Effect.readFile path).Preserves invariant := by
    intro world holds
    rw [Effect.readFile, Effect.onFiles, Files.Work.look]
    cases world.files.read path with
    | error fault => exact holds
    | ok text => exact holds
  refine reads.bind fun text => ?_
  split
  · exact Attempt.preserves_pure _
  · exact Attempt.preserves_throw _

theorem readLast_preserves (snapshots : Snapshots) (job name : String) (place : Nat) :
    (snapshots.readLast job name place).Preserves invariant := by
  refine (Attempt.preserves_look _).bind fun entries => ?_
  split
  · exact readValue_preserves _
  · exact Attempt.preserves_throw _

theorem readClosest_preserves (snapshots : Snapshots) (job name : String) (days : Float)
    (now : Calendar.DateTime) : (snapshots.readClosest job name days now).Preserves invariant := by
  refine (Attempt.preserves_ofExcept _).bind fun target =>
    (Attempt.preserves_look _).bind fun entries => ?_
  split
  · exact readValue_preserves _
  · exact Attempt.preserves_throw _

theorem remembered_preserves (config : JobConfig) (name : String) (useLast : Nat)
    (timedelta : Option Float) :
    (remembered surroundings config name useLast timedelta).Preserves invariant := by
  cases timedelta with
  | none => exact readLast_preserves _ _ _ _
  | some days => exact readClosest_preserves _ _ _ _ _

/-- A fetch changes the world by what it sends alone. -/
theorem run_preserves (sends : ∀ request, (Effect.send surroundings request).Preserves invariant)
    (context : Context) (scope : Scope) (spec : FetchSpec) :
    (run surroundings context scope spec).Preserves invariant := by
  have pieces : Pieces (fun work => work.Preserves invariant) surroundings context.config
      (names spec.family) := {
    send := sends
    fixture := fun _ _ => readValue_preserves _
    remembered := fun name _ => remembered_preserves context.config name }
  exact run_holds (Effect.composes_preserves invariant) pieces spec (List.Subset.refl _)

end Fetch

/-! Sequences. -/

namespace Media

variable {α : Type} {surroundings : Surroundings} {place : Files.Place} {text : Option String}

/-- Work on the files that leaves the file at a place alone, as work on the world. -/
theorem onFiles_preserves {work : Files.Work α}
    (keeps : ∀ tree, (work tree).2.file? place = tree.file? place) :
    (Effect.onFiles work).Preserves fun world => world.files.file? place = text :=
  Effect.onFiles_preserves (fun tree => tree.file? place = text) fun tree holds =>
    (keeps tree).trans holds

theorem makeDirectories_preserves (path : String) :
    (Effect.onFiles (Files.Work.makeDirectories path)).Preserves
      fun world => world.files.file? place = text :=
  onFiles_preserves fun tree => Files.Work.makeDirectories_file? path tree place

/-- What the encoder writes is not among the files. -/
theorem encode_preserves (invocation : Invocation) :
    (Effect.encode surroundings invocation).Preserves
      fun world => world.files.file? place = text :=
  fun _ holds => holds

/-- A sequence leaves every file outside the directory of the run as it was. -/
theorem assemble_preserves {context : Context} (outside : place.Outside (tempDirectory context))
    (scope : Scope) (spec : SequenceSpec) :
    (assemble surroundings context scope spec).Preserves
      fun world => world.files.file? place = text := by
  have elsewhere : place ≠ Files.Place.ofPath (listPath context) :=
    Files.Place.ne_ofPath_join outside (by decide) (by decide)
  refine assemble_holds (Effect.composes_preserves _) ?_ scope spec
  exact {
    lays := fun _ _ => Attempt.preserves_ofExcept _
    makesTemp := makeDirectories_preserves _
    makesOutput := fun _ => makeDirectories_preserves _
    writesList := fun content =>
      onFiles_preserves fun tree => Files.Work.write_file? elsewhere content tree
    joins := encode_preserves _
    shows := fun _ _ _ _ => encode_preserves _ }

end Media

/-! Steps. -/

/-- A run that has begun on a context, as long as its configuration and its id stay and the file at
a place has its text. -/
structure Underway (beginning : Context) (place : Files.Place) (text : Option String)
    (state : Context × World) : Prop where
  config : state.1.config = beginning.config
  runId : state.1.runId = beginning.runId
  file : state.2.files.file? place = text

namespace Action

variable {α : Type} {invariant : Context × World → Prop} {surroundings : Surroundings}

theorem onContext_preserves {edit : Edit α}
    (preserves : ∀ world, edit.Preserves fun context => invariant (context, world)) :
    (onContext edit).Preserves invariant :=
  fun state holds => preserves state.2 state.1 holds

theorem onWorld_preserves {work : Context → Effect α}
    (preserves : ∀ context, (work context).Preserves fun world => invariant (context, world)) :
    (onWorld work).Preserves invariant :=
  fun state holds => preserves state.1 state.2 holds

/-- What writes, choices, fetches and sequences preserve is preserved by every step. -/
theorem run_preserves (stable : ∀ world, Edit.Stable fun context => invariant (context, world))
    (fetches : ∀ context scope spec, (Fetch.run surroundings context scope spec).Preserves
      fun world => invariant (context, world))
    (sequences : ∀ context scope spec, (Media.assemble surroundings context scope spec).Preserves
      fun world => invariant (context, world))
    (action : Action) (scope : Scope) : (action.run surroundings scope).Preserves invariant := by
  have writes (path : String) (value : Value) :
      (onContext (Edit.write path value scope)).Preserves invariant :=
    onContext_preserves fun world => (stable world).writes path value scope
  cases action with
  | fetch key spec =>
    exact (onWorld_preserves fun context => fetches context scope spec).bind fun value =>
      ((writes key value).annotate _).bind fun _ => Attempt.preserves_pure _
  | transform spec =>
    exact (onContext_preserves fun world =>
      Transform.apply_preserves (stable world) _ scope spec).bind fun _ => Attempt.preserves_pure _
  | transforms specs =>
    exact (onContext_preserves fun world =>
      Transform.applyAll_preserves (stable world) _ scope specs).bind fun _ =>
        Attempt.preserves_pure _
  | sequence spec =>
    exact (onWorld_preserves fun context => sequences context scope spec).bind fun output =>
      ((writes spec.key (.string output)).annotate _).bind fun _ => Attempt.preserves_pure _

theorem underway_stable (beginning : Context) (place : Files.Place) (text : Option String)
    (world : World) : Edit.Stable fun context => Underway beginning place text (context, world) where
  writes path value scope context underway := by
    obtain ⟨config, runId⟩ := Context.insert_frame context path value scope
    exact ⟨config.trans underway.config, runId.trans underway.runId, underway.file⟩
  draws context underway := ⟨underway.config, underway.runId, underway.file⟩

/-- No step touches a file outside the directory of its run. -/
theorem run_underway {beginning : Context} {place : Files.Place}
    (outside : place.Outside (Media.tempDirectory beginning)) (text : Option String)
    (action : Action) (scope : Scope) :
    (action.run surroundings scope).Preserves (Underway beginning place text) := by
  refine run_preserves (underway_stable beginning place text) ?_ ?_ action scope
  · intro context scope spec world underway
    have sends : ∀ request, (Effect.send surroundings request).Preserves
        fun world => world.files.file? place = text := fun _ _ holds => holds
    have kept := Fetch.run_preserves sends context scope spec world underway.file
    exact ⟨underway.config, underway.runId, kept⟩
  · intro context scope spec world underway
    have same : Media.tempDirectory context = Media.tempDirectory beginning := by
      rw [Media.tempDirectory, underway.config, underway.runId]
      rfl
    have kept : (Media.assemble surroundings context scope spec world).2.files.file? place = text :=
      Media.assemble_preserves (same ▸ outside) scope spec world underway.file
    exact ⟨underway.config, underway.runId, kept⟩

end Action

/-! Runs. -/

section Runs

variable {invariant : Context × World → Prop} {surroundings : Surroundings} {steps : List Step}
  {before after : Context × World}

theorem Completes.preserves {outputs : List (Option String)}
    (each : ∀ action : Action, (action.run surroundings Scope.root).Preserves invariant)
    (completes : Completes surroundings steps before outputs after) (holds : invariant before) :
    invariant after := by
  induction completes with
  | nothing => exact holds
  | @step step _ _ _ before _ _ ended later ih =>
    have between := each step.action before holds
    rw [ended] at between
    exact ih between

theorem FailsAt.preserves {place : Nat} {error : StepError}
    (each : ∀ action : Action, (action.run surroundings Scope.root).Preserves invariant)
    (fails : FailsAt surroundings steps before place error after) (holds : invariant before) :
    invariant after := by
  obtain ⟨step, outputs, between, -, completes, failed⟩ := fails
  have reached := completes.preserves each holds
  have left := each step.action between reached
  rwa [failed] at left

theorem runStages_preserves
    (each : ∀ action : Action, (action.run surroundings Scope.root).Preserves invariant)
    (index : Nat) (artifact : Option String) {context : Context} {world : World}
    (stages : List Stage) (holds : invariant (context, world)) :
    invariant ((runStages surroundings index artifact context world stages).context,
      (runStages surroundings index artifact context world stages).world) := by
  induction stages generalizing index artifact context world with
  | nil => exact holds
  | cons stage rest ih =>
    have between := each stage.step.action (context, world) holds
    rcases ran : stage.step.action.run surroundings Scope.root (context, world) with
      ⟨error | path, after⟩
    · rw [ran] at between
      simp only [runStages, ran]
      exact between
    · rw [ran] at between
      simp only [runStages, ran]
      exact ih (index + 1) (path.or artifact) between

end Runs

end Newsreel
