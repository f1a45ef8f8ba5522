import Newsreel.Proofs.Files.Clearing
import Newsreel.Proofs.Run.Owners

/-!
The files that a run touches.

Of the steps only sequences work on files, and only in the directory of the run, which goes in the end
whatever the result is. What a run leaves changed are snapshots of its entries of `storing`, and those
only if all steps have succeeded.
-/

namespace Newsreel

open Files (IsPart Place Tree)

/-! Steps. -/

/-- A directory of a run that is still to be removed can be removed. -/
structure Orderly (beginning : Context) (state : Context × World) : Prop where
  config : state.1.config = beginning.config
  runId : state.1.runId = beginning.runId
  clearable : state.2.files.Clearable (Media.tempDirectory beginning)

namespace Orderly

variable {beginning : Context} {state : Context × World}

theorem tempDirectory (orderly : Orderly beginning state) :
    Media.tempDirectory state.1 = Media.tempDirectory beginning := by
  rw [Media.tempDirectory, orderly.config, orderly.runId]
  rfl

end Orderly

namespace Media

variable {surroundings : Surroundings} {context : Context}

theorem tempDirectory_ne_empty (isId : IsPart context.runId) : tempDirectory context ≠ "" := by
  intro empty
  have named := isId.ofPath_join context.config.tempPath
  rw [← tempDirectory, empty] at named
  exact absurd named.symm (List.append_ne_nil_of_right_ne_nil _ (List.cons_ne_nil _ _))

/-- A sequence puts files into the directory of its run alone, where they can be found again. -/
theorem assemble_clearable (isId : IsPart context.runId) (scope : Scope) (spec : SequenceSpec) :
    (assemble surroundings context scope spec).Preserves
      fun world => world.files.Clearable (tempDirectory context) := by
  let invariant (tree : Tree) : Prop := tree.Clearable (tempDirectory context)
  have makes (path : String) : (Effect.onFiles (Files.Work.makeDirectories path)).Preserves
      fun world => invariant world.files :=
    Effect.onFiles_preserves invariant fun tree holds =>
      Files.Work.makeDirectories_clearable holds path
  refine assemble_holds (Effect.composes_preserves _) ?_ scope spec
  exact {
    lays := fun _ _ => Attempt.preserves_ofExcept _
    makesTemp := makes _
    makesOutput := fun _ => makes _
    writesList := fun text => Effect.onFiles_preserves invariant fun tree holds =>
      Files.Work.write_join_clearable holds (tempDirectory_ne_empty isId) (by decide) text
    joins := fun _ holds => holds
    shows := fun _ _ _ _ _ holds => holds }

end Media

namespace Action

variable {surroundings : Surroundings}

theorem run_orderly {beginning : Context} (isId : IsPart beginning.runId) (action : Action)
    (scope : Scope) : (action.run surroundings scope).Preserves (Orderly beginning) := by
  refine run_preserves (fun world => ⟨?_, ?_⟩) ?_ ?_ action scope
  · intro path value scope context orderly
    obtain ⟨config, runId⟩ := Context.insert_frame context path value scope
    exact ⟨config.trans orderly.config, runId.trans orderly.runId, orderly.clearable⟩
  · exact fun context orderly => ⟨orderly.config, orderly.runId, orderly.clearable⟩
  · intro context scope spec world orderly
    have sends : ∀ request, (Effect.send surroundings request).Preserves
        fun world => world.files.Clearable (Media.tempDirectory beginning) := fun _ _ holds => holds
    exact ⟨orderly.config, orderly.runId,
      Fetch.run_preserves sends context scope spec world orderly.clearable⟩
  · intro context scope spec world orderly
    have same := orderly.tempDirectory
    have ownId : IsPart context.runId := orderly.runId ▸ isId
    have clearable : world.files.Clearable (Media.tempDirectory context) := same ▸ orderly.clearable
    exact ⟨orderly.config, orderly.runId,
      same ▸ Media.assemble_clearable ownId scope spec world clearable⟩

/-- Fetches and transforms leave the files alone, directories included. -/
theorem run_files (action : Action) (noSequence : ∀ spec, action ≠ .sequence spec) (scope : Scope)
    (state : Context × World) : (action.run surroundings scope state).2.2.files = state.2.files := by
  have writes {α : Type} (edit : Edit α) : (onContext edit).Preserves
      fun after => after.2.files = state.2.files := fun _ holds => holds
  have sends : ∀ request, (Effect.send surroundings request).Preserves
      fun world => world.files = state.2.files := fun _ _ holds => holds
  have keeps : (action.run surroundings scope).Preserves
      fun after => after.2.files = state.2.files := by
    cases action with
    | fetch key spec =>
      exact (onWorld_preserves fun context => Fetch.run_preserves sends context scope spec).bind
        fun value => ((writes _).annotate _).bind fun _ => Attempt.preserves_pure _
    | transform spec => exact (writes _).bind fun _ => Attempt.preserves_pure _
    | transforms specs => exact (writes _).bind fun _ => Attempt.preserves_pure _
    | sequence spec => exact absurd rfl (noSequence spec)
  exact keeps state rfl

end Action

/-! Whole runs. -/

namespace Pipeline

variable {invariant : Context × World → Prop} {surroundings : Surroundings} {config : JobConfig}
  {pipeline : Pipeline} {world : World}

/-- What every step and every entry of `storing` keeps holds when the directory of the run goes. -/
theorem execute_left
    (each : ∀ action : Action, (action.run surroundings Scope.root).Preserves invariant)
    (stores : ∀ context, ∀ entry ∈ pipeline.storing, (entry.store surroundings context).Preserves
      fun world => invariant (context, world))
    (holds : invariant (pipeline.beginning surroundings config world)) :
    ∃ state, invariant state ∧
      (pipeline.execute surroundings config world).world = removeTemp state.1 state.2 := by
  obtain ⟨left, kept, ended⟩ := conclude_preserves (stores _)
    (runStages_preserves each 0 none (pipeline.begun surroundings).stages holds)
  exact ⟨(_, left), kept, (execute_world surroundings config pipeline world).trans ended⟩

end Pipeline

/-! Storing. -/

namespace Storing

variable {surroundings : Surroundings} {context : Context} {entry : Storing}

theorem ofPath_snapshot (isJob : IsPart context.config.jobName) (isName : IsPart entry.name)
    (time : Calendar.DateTime) : Place.ofPath (entry.snapshotPath context time) =
      Place.ofPath context.config.memoryPath ++
        [context.config.jobName, entry.name, time.stamp ++ ".json"] := by
  rw [snapshotPath, Snapshots.ofPath_file, Snapshots.ofPath_directory isJob isName,
    List.append_assoc]
  rfl

/-- Storing an entry changes no other file than its snapshot. -/
theorem store_file? {place : Place}
    (elsewhere : place ≠ Place.ofPath (entry.snapshotPath context surroundings.now))
    (world : World) :
    (entry.store surroundings context world).2.files.file? place = world.files.file? place := by
  rcases ran : entry.store surroundings context world with ⟨error | path, after⟩
  · exact congrFun (store_error ran) place
  · rw [store_ok ran, withSnapshots, withSnapshots, if_neg elsewhere]

theorem store_clearable {directory : String}
    (outside : (Place.ofPath (entry.snapshotPath context surroundings.now)).Outside directory) :
    (entry.store surroundings context).Preserves fun world => world.files.Clearable directory := by
  let invariant (tree : Tree) : Prop := tree.Clearable directory
  refine store_preserves ?_ fun text => ?_
  · exact Effect.onFiles_preserves invariant fun tree holds =>
      Files.Work.makeDirectories_clearable holds _
  · exact Effect.onFiles_preserves invariant fun tree holds =>
      Files.Work.write_clearable holds outside text

end Storing

namespace Files.Place

/-- Paths that lie apart stay apart, however they are continued. -/
theorem Outside.continued {first second : String} (outside : (ofPath second).Outside first)
    (inside : (ofPath first).Outside second) (down on : Place) :
    ¬ofPath first ++ down <+: ofPath second ++ on := by
  intro below
  rcases List.prefix_or_prefix_of_prefix ((List.prefix_append _ _).trans below)
    (List.prefix_append (ofPath second) on) with above | above
  · exact outside above
  · exact inside above

end Files.Place

namespace Pipeline

variable {surroundings : Surroundings} {config : JobConfig} {pipeline : Pipeline} {world : World}

/-- Where the snapshot of an entry goes in a run. -/
def snapshotPlace (config : JobConfig) (now : Calendar.DateTime) (entry : Storing) : Place :=
  Place.ofPath config.memoryPath ++ [config.jobName, entry.name, now.stamp ++ ".json"]

/-- Once all steps have succeeded, the books say so, whether storing succeeds or not. -/
theorem states_completed {outputs : List (Option String)} {after : Context × World}
    (completes : Completes surroundings pipeline.steps (pipeline.beginning surroundings config world)
      outputs after) :
    ∀ state ∈ (pipeline.execute surroundings config world).pipeline.states,
      state.isCompleted = true := by
  rw [← pipeline.steps_begun surroundings] at completes
  obtain ⟨events, ran⟩ := runStages_completes 0 none completes
  have closed : ∃ status, (pipeline.execute surroundings config world).pipeline =
      (pipeline.begun surroundings).close
        (allCompleted surroundings.now (pipeline.begun surroundings).stages) status
        surroundings.now := by
    rcases stores : storeAll surroundings after.1 pipeline.storing after.2 with
      ⟨error | stored, left⟩
    · exact ⟨.failed, (execute_error ran (conclude_not_stored rfl stores)).2.1⟩
    · exact ⟨.completed, (execute_ok ran (conclude_stored rfl stores)).2⟩
  obtain ⟨status, closed⟩ := closed
  rw [closed]
  intro state member
  obtain ⟨stage, present, rfl⟩ := List.mem_map.mp member
  rw [state_allCompleted present]
  rfl

/-- A step that fails has left the files outside the directory of the run as they were. -/
theorem execute_file?_of_fails {index : Nat} {error : StepError} {after : Context × World}
    (fails : FailsAt surroundings pipeline.steps (pipeline.beginning surroundings config world) index
      error after) {place : Place}
    (outside : place.Outside (pipeline.tempDirectory surroundings config)) :
    (pipeline.execute surroundings config world).world.files.file? place =
      world.files.file? place := by
  have underway : Underway (pipeline.beginning surroundings config world).1 place
      (world.files.file? place) after :=
    fails.preserves (fun action => Action.run_underway outside _ action Scope.root) ⟨rfl, rfl, rfl⟩
  rw [← pipeline.steps_begun surroundings] at fails
  obtain ⟨events, label, ran⟩ := runStages_fails 0 none fails
  obtain ⟨-, -, left⟩ := execute_error ran (conclude_failed rfl)
  rw [left, removeTemp_file? (underway.tempDirectory ▸ outside)]
  exact underway.file

/-- A run changes no file but those in its directory and its snapshots. -/
theorem execute_file? (isJob : IsPart config.jobName)
    (names : ∀ entry ∈ pipeline.storing, IsPart entry.name) {place : Place}
    (outside : place.Outside (pipeline.tempDirectory surroundings config))
    (elsewhere : ∀ entry ∈ pipeline.storing,
      place ≠ snapshotPlace config surroundings.now entry) :
    (pipeline.execute surroundings config world).world.files.file? place =
      world.files.file? place := by
  obtain ⟨state, underway, left⟩ := execute_left
    (fun action => Action.run_underway outside (world.files.file? place) action Scope.root)
    (fun context entry member left underway => by
      obtain ⟨sameConfig, sameId, file⟩ := underway
      have apart : place ≠ Place.ofPath (entry.snapshotPath context surroundings.now) := by
        rw [Storing.ofPath_snapshot (sameConfig ▸ isJob) (names entry member), sameConfig]
        exact elsewhere entry member
      exact ⟨sameConfig, sameId, (Storing.store_file? apart left).trans file⟩)
    (⟨rfl, rfl, rfl⟩ : Underway (pipeline.beginning surroundings config world).1 place
      (world.files.file? place) (pipeline.beginning surroundings config world))
  rw [left, removeTemp_file? (underway.tempDirectory ▸ outside)]
  exact underway.file

/-- The directory of a run goes in the end, with every file in it. -/
theorem execute_clears
    (memoryOutside : (Place.ofPath config.memoryPath).Outside config.tempPath)
    (tempOutside : (Place.ofPath config.tempPath).Outside config.memoryPath)
    (isId : IsPart (pipeline.begun surroundings).run.runId) (isJob : IsPart config.jobName)
    (names : ∀ entry ∈ pipeline.storing, IsPart entry.name)
    (vacant : world.files.Vacant (pipeline.tempDirectory surroundings config)) :
    (∀ entry, (pipeline.execute surroundings config world).world.files.lookup
        (pipeline.tempDirectory surroundings config) ≠ .ok entry) ∧
      ∀ place, Place.ofPath (pipeline.tempDirectory surroundings config) <+: place →
        (pipeline.execute surroundings config world).world.files.file? place = none := by
  have named : Place.ofPath (pipeline.tempDirectory surroundings config) =
      Place.ofPath config.tempPath ++ [(pipeline.begun surroundings).run.runId] :=
    isId.ofPath_join config.tempPath
  obtain ⟨state, orderly, left⟩ := execute_left
    (fun action => Action.run_orderly isId action Scope.root)
    (fun context entry member left orderly => by
      obtain ⟨sameConfig, sameId, clearable⟩ := orderly
      have outside : (Place.ofPath (entry.snapshotPath context surroundings.now)).Outside
          (pipeline.tempDirectory surroundings config) := by
        rw [Storing.ofPath_snapshot (sameConfig ▸ isJob) (names entry member), sameConfig,
          Place.Outside, named]
        exact memoryOutside.continued tempOutside _ _
      exact ⟨sameConfig, sameId, Storing.store_clearable outside left clearable⟩)
    (⟨rfl, rfl, vacant.clearable⟩ : Orderly (pipeline.beginning surroundings config world).1
      (pipeline.beginning surroundings config world))
  have removed : (removeTemp state.1 state.2).files =
      (Files.Work.removeDirectory (pipeline.tempDirectory surroundings config) state.2.files).2 := by
    rw [removeTemp, Effect.onFiles_snd, orderly.tempDirectory]
    rfl
  rw [left, removed]
  exact Files.Work.removeDirectory_clears orderly.clearable (named ▸ isId.isStart _)

/-- Where the directory of a run is not there before, it is not there afterwards. Steps that are no
sequences leave all files alone, and the files that differ in the end are snapshots of the run, whose
steps have all succeeded then. The directories for memory and for intermediate files lie apart. -/
theorem execute_touches_snapshots
    (memoryOutside : (Place.ofPath config.memoryPath).Outside config.tempPath)
    (tempOutside : (Place.ofPath config.tempPath).Outside config.memoryPath)
    (isId : IsPart (pipeline.begun surroundings).run.runId) (isJob : IsPart config.jobName)
    (names : ∀ entry ∈ pipeline.storing, IsPart entry.name)
    (vacant : world.files.Vacant (pipeline.tempDirectory surroundings config)) :
    (∀ entry, (pipeline.execute surroundings config world).world.files.lookup
        (pipeline.tempDirectory surroundings config) ≠ .ok entry) ∧
      (∀ step ∈ pipeline.steps, (∀ spec, step.action ≠ .sequence spec) → ∀ state,
        (step.action.run surroundings Scope.root state).2.2.files = state.2.files) ∧
      ∀ place, (pipeline.execute surroundings config world).world.files.file? place ≠
          world.files.file? place →
        (∃ entry ∈ pipeline.storing, place = snapshotPlace config surroundings.now entry) ∧
          ∀ state ∈ (pipeline.execute surroundings config world).pipeline.states,
            state.isCompleted = true := by
  obtain ⟨gone, empty⟩ := execute_clears memoryOutside tempOutside isId isJob names vacant
  refine ⟨gone, fun step _ noSequence state => step.action.run_files noSequence Scope.root state,
    fun place differs => ?_⟩
  have outside : place.Outside (pipeline.tempDirectory surroundings config) := by
    intro inside
    exact differs ((empty place inside).trans (Tree.file?_of_missing (vacant place inside)).symm)
  constructor
  · by_contra elsewhere
    push Not at elsewhere
    exact differs (execute_file? isJob names outside elsewhere)
  · rcases completes_or_fails surroundings pipeline.steps
      (pipeline.beginning surroundings config world) with
      ⟨outputs, after, completes⟩ | ⟨index, error, after, fails⟩
    · exact states_completed completes
    · exact absurd (execute_file?_of_fails fails outside) differs

/-- Remembers the sky and the wind, and makes a video. -/
def windy : Pipeline :=
  { pair "sky" "wind" with stages := (pair "sky" "wind").stages ++ double.stages.drop 1 }

/-- What another run has left among its intermediate files. -/
def littered : World := { files := Tree.withFile {} "temp/other/input.txt" "file 'sun.mp3'" }

def litter : Place := ["temp", "other", "input.txt"]

/-- Where the sky goes that the run remembers. -/
def shelvedSky : Place := ["memory", "news", "sky", "2020-06-15_07-00-00.json"]

theorem execute_touches_snapshots_windy :
    (Place.ofPath shelf.memoryPath).Outside shelf.tempPath ∧
      (Place.ofPath shelf.tempPath).Outside shelf.memoryPath ∧
      IsPart (windy.begun Action.offline).run.runId ∧ IsPart shelf.jobName ∧
      (∀ entry ∈ windy.storing, IsPart entry.name) ∧
      littered.files.Vacant (windy.tempDirectory Action.offline shelf) ∧
      (∀ entry, (windy.execute Action.offline shelf littered).world.files.lookup
        (windy.tempDirectory Action.offline shelf) ≠ .ok entry) ∧
      (windy.execute Action.offline shelf littered).world.files.file? litter =
        littered.files.file? litter ∧
      (windy.execute Action.offline shelf littered).world.files.file? shelvedSky =
        some "\"sun\"" ∧
      ∀ state ∈ (windy.execute Action.offline shelf littered).pipeline.states,
        state.isCompleted = true := by
  have memoryOutside : (Place.ofPath shelf.memoryPath).Outside shelf.tempPath := by decide +kernel
  have tempOutside : (Place.ofPath shelf.tempPath).Outside shelf.memoryPath := by decide +kernel
  have isId : IsPart (windy.begun Action.offline).run.runId := by decide +kernel
  have isJob : IsPart shelf.jobName := by decide
  have names : ∀ entry ∈ windy.storing, IsPart entry.name := by decide
  have vacant : littered.files.Vacant (windy.tempDirectory Action.offline shelf) := by
    decide +kernel
  obtain ⟨gone, -, changes⟩ :=
    execute_touches_snapshots memoryOutside tempOutside isId isJob names vacant
  have stored : (windy.execute Action.offline shelf littered).world.files.file? shelvedSky =
      some "\"sun\"" := by
    decide +kernel
  have unstored : littered.files.file? shelvedSky = none := by decide +kernel
  have differs : (windy.execute Action.offline shelf littered).world.files.file? shelvedSky ≠
      littered.files.file? shelvedSky := by
    rw [stored, unstored]
    exact Option.some_ne_none _
  have noSnapshot : ∀ entry ∈ windy.storing,
      litter ≠ snapshotPlace shelf Action.offline.now entry := by
    decide +kernel
  refine ⟨memoryOutside, tempOutside, isId, isJob, names, vacant, gone, ?_, stored,
    (changes shelvedSky differs).2⟩
  by_contra touched
  obtain ⟨⟨entry, member, same⟩, -⟩ := changes litter touched
  exact noSnapshot entry member same

end Pipeline

end Newsreel
