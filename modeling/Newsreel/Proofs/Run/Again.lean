import Newsreel.Proofs.Run.Reports

/-!
Pipelines that run again.

A run changes the states of the steps and the books, and nothing else; the next run puts both back.
So of all that has been run before, only the files and what the servers and the encoder have been
asked can be noticed later.
-/

namespace Newsreel

/-- What a run is given besides its pipeline. -/
structure Occasion where
  surroundings : Surroundings
  config : JobConfig
  world : World

namespace Pipeline

/-- The pipeline as it is left by runs on some occasions, one after the other. -/
def after (pipeline : Pipeline) (earlier : List Occasion) : Pipeline :=
  earlier.foldl (fun pipeline occasion =>
    (pipeline.execute occasion.surroundings occasion.config occasion.world).pipeline) pipeline

/-- Made of the same document: how far runs have come does not matter. -/
structure SameDocument (pipeline other : Pipeline) : Prop where
  name : pipeline.name = other.name
  description : pipeline.description = other.description
  steps : pipeline.steps = other.steps
  storing : pipeline.storing = other.storing

theorem SameDocument.trans {pipeline other third : Pipeline} (first : pipeline.SameDocument other)
    (second : other.SameDocument third) : pipeline.SameDocument third :=
  ⟨first.name.trans second.name, first.description.trans second.description,
    first.steps.trans second.steps, first.storing.trans second.storing⟩

/-- Runs of steps leave the steps. -/
theorem runStages_steps {surroundings : Surroundings} (index : Nat) (artifact : Option String)
    (context : Context) (world : World) (stages : List Stage) :
    (runStages surroundings index artifact context world stages).stages.map (·.step) =
      stages.map (·.step) := by
  induction stages generalizing index artifact context world with
  | nil => rfl
  | cons stage rest ih =>
    rcases ran : stage.step.action.run surroundings Scope.root (context, world) with
      ⟨error | path, between, behind⟩
    · simp [runStages, ran, skipAll]
    · simp [runStages, ran, ih]

/-- A run leaves what is made of the document. -/
theorem execute_sameDocument (surroundings : Surroundings) (config : JobConfig)
    (pipeline : Pipeline) (world : World) :
    (pipeline.execute surroundings config world).pipeline.SameDocument pipeline := by
  obtain ⟨status, -, closed⟩ := execute_close surroundings config pipeline world
  have begun : (pipeline.begun surroundings).SameDocument pipeline := by
    refine ⟨?_, ?_, pipeline.steps_begun surroundings, pipeline.storing_begun surroundings⟩ <;>
    · rw [begun, begin, ready]
      split <;> rfl
  rw [closed]
  exact ⟨begun.name, begun.description, (runStages_steps _ _ _ _ _).trans begun.steps,
    begun.storing⟩

theorem after_sameDocument (pipeline : Pipeline) (earlier : List Occasion) :
    (pipeline.after earlier).SameDocument pipeline := by
  induction earlier generalizing pipeline with
  | nil => exact ⟨rfl, rfl, rfl, rfl⟩
  | cons occasion rest ih =>
    exact (ih _).trans (pipeline.execute_sameDocument occasion.surroundings occasion.config
      occasion.world)

/-- What has run once is never again as it was compiled. -/
theorem after_isFinished (pipeline : Pipeline) {earlier : List Occasion} (some : earlier ≠ []) :
    (pipeline.after earlier).run.status.isFinished = true := by
  obtain ⟨front, last, rfl⟩ := (List.eq_nil_or_concat earlier).resolve_left some
  rw [List.concat_eq_append, after, List.foldl_append]
  obtain ⟨status, finished, closed⟩ := execute_close last.surroundings last.config
    (pipeline.after front) last.world
  rw [after] at closed
  rw [List.foldl_cons, List.foldl_nil, closed]
  exact finished

/-- Put back to its beginning, a pipeline is the one that the document gives. -/
theorem compile_reset {table : DispatchTable} {firstId : String} {document : Document}
    {pipeline fresh : Pipeline} (compiled : compile table firstId document = .ok fresh)
    (same : pipeline.SameDocument fresh) (runId : String) :
    compile table runId document = .ok (pipeline.reset runId) := by
  obtain ⟨steps, listed, made⟩ := Outcome.bind_ok_iff.mp compiled
  cases made
  have fresh : pipeline.steps = steps := by
    rw [same.steps, Pipeline.steps, List.map_map]
    exact List.map_id _
  have stages : (pipeline.stages.map fun stage => { stage with state := .pending }) =
      steps.map fun step => ({ step } : Stage) := by
    rw [← fresh, Pipeline.steps, List.map_map]
    rfl
  rw [compile, listed, reset, stages, same.name, same.description, same.storing]
  rfl

/-- A run goes by the id of the pipeline that is made ready for it. -/
theorem execute_runId (surroundings : Surroundings) (config : JobConfig) (pipeline : Pipeline)
    (world : World) : (pipeline.execute surroundings config world).pipeline.run.runId =
      (pipeline.ready surroundings.freshId).run.runId := by
  obtain ⟨status, -, closed⟩ := execute_close surroundings config pipeline world
  rw [closed]
  rfl

/-- A pipeline that has run before runs under a new id. -/
theorem ready_after {pipeline : Pipeline} {earlier : List Occasion} (some : earlier ≠ [])
    (freshId : String) : (pipeline.after earlier).ready freshId =
      (pipeline.after earlier).reset freshId := by
  have finished := pipeline.after_isFinished some
  refine if_neg fun pending => ?_
  rw [pending] at finished
  cases finished

/-- What is made ready under the id that a compiled pipeline has is that pipeline. -/
theorem execute_ready {surroundings : Surroundings} {pipeline fresh : Pipeline}
    (pending : fresh.run.status = .pending) (ready : pipeline.ready surroundings.freshId = fresh)
    (config : JobConfig) (world : World) :
    pipeline.execute surroundings config world = fresh.execute surroundings config world := by
  have also : fresh.ready surroundings.freshId = fresh := if_pos pending
  rw [execute, execute, ready, also]

/-- However often and with whatever outcome a compiled pipeline has run before, its next run is in
everything the run of a pipeline freshly compiled from the document under the id of that run. -/
theorem execute_again {table : DispatchTable} {firstId : String} {document : Document}
    {pipeline : Pipeline} (compiled : compile table firstId document = .ok pipeline)
    (earlier : List Occasion) (surroundings : Surroundings) (config : JobConfig) (world : World) :
    ∃ fresh, compile table
        ((pipeline.after earlier).execute surroundings config world).pipeline.run.runId document =
          .ok fresh ∧
      (pipeline.after earlier).execute surroundings config world =
        fresh.execute surroundings config world := by
  obtain ⟨fresh, made, pending, ready⟩ : ∃ fresh, compile table fresh.run.runId document = .ok fresh ∧
      fresh.run.status = .pending ∧ (pipeline.after earlier).ready surroundings.freshId = fresh := by
    by_cases none : earlier = []
    · subst none
      have pending : pipeline.run = { runId := firstId } := by
        obtain ⟨steps, -, made⟩ := Outcome.bind_ok_iff.mp compiled
        cases made
        rfl
      refine ⟨pipeline, ?_, ?_, if_pos ?_⟩
      · rw [pending]
        exact compiled
      · rw [pending]
      · exact congrArg RunState.status pending
    · exact ⟨_, compile_reset compiled (pipeline.after_sameDocument earlier) surroundings.freshId,
        rfl, ready_after none surroundings.freshId⟩
  refine ⟨fresh, ?_, execute_ready pending ready config world⟩
  rw [execute_runId, ready]
  exact made

/-- Surroundings in which the encoder fails, later than the others, with an id of their own. -/
def broken : Surroundings := { Action.offline with
  now := ⟨⟨2020, 6, 16⟩, ⟨7, 0, 0, 0⟩⟩
  encoder := ⟨fun _ => .ok 0, fun _ _ => .error (.encoding 1 "broken")⟩
  freshId := "22222222-3333-4444-8555-666666666666" }

/-- A run that succeeds and one that fails leave no trace in the third one. -/
theorem execute_again_double :
    compile .builtin double.run.runId doubleNews = .ok double ∧
      ((double.execute Action.offline desk {}).result.isOk = true ∧
        ((double.after [⟨Action.offline, desk, {}⟩]).execute broken desk {}).result.isOk = false) ∧
      ∃ fresh, compile .builtin Action.offline.freshId doubleNews = .ok fresh ∧
        (double.after [⟨Action.offline, desk, {}⟩, ⟨broken, desk, {}⟩]).execute Action.offline desk {} =
          fresh.execute Action.offline desk {} := by
  have compiled : compile .builtin double.run.runId doubleNews = .ok double := rfl
  obtain ⟨fresh, made, same⟩ := execute_again compiled
    [⟨Action.offline, desk, {}⟩, ⟨broken, desk, {}⟩] Action.offline desk {}
  have runId : ((double.after [⟨Action.offline, desk, {}⟩, ⟨broken, desk, {}⟩]).execute
      Action.offline desk {}).pipeline.run.runId = Action.offline.freshId := by
    rw [execute_runId, ready_after (by simp)]
    rfl
  rw [runId] at made
  exact ⟨compiled, by decide +kernel, fresh, made, same⟩

end Pipeline

end Newsreel
