import Mathlib.Logic.ExistsUnique
import Newsreel.History.Summary
import Newsreel.Proofs.Run.FailedStep

/-!
How a run ends.

A run goes through its steps, stores what is to be remembered and closes its books. There are three
ways out: everything succeeds, a step fails, or storing fails. What the run returns, the states of
the steps, the counts and the summary are written down in different places; here they are shown to
tell the same story, whatever states the steps were in before.
-/

namespace Newsreel

namespace Pipeline

def steps (pipeline : Pipeline) : List Step := pipeline.stages.map (·.step)

/-- Made of the steps of a document; how far an earlier run has come does not matter. -/
def Compiled (pipeline : Pipeline) : Prop :=
  ∃ table runId document fresh, compile table runId document = .ok fresh ∧
    pipeline.steps = fresh.steps

theorem compileSteps_index {table : DispatchTable} {start : Nat} {configs : List StepConfig}
    {steps : List Step} (compiled : compileSteps table start configs = .ok steps) {place : Nat}
    {step : Step} (present : steps[place]? = some step) : step.index = start + place := by
  induction configs generalizing start steps place with
  | nil =>
    cases compiled
    cases present
  | cons config rest ih =>
    rw [compileSteps, Outcome.bind_ok_iff] at compiled
    obtain ⟨head, first, compiled⟩ := compiled
    obtain ⟨tail, later, compiled⟩ := Outcome.bind_ok_iff.mp compiled
    cases compiled
    cases place with
    | zero =>
      cases present
      rw [Step.compile, Outcome.bind_ok_iff] at first
      obtain ⟨kind, -, first⟩ := first
      obtain ⟨action, -, first⟩ := Outcome.bind_ok_iff.mp first
      cases first
      rfl
    | succ place =>
      have index := ih later present
      omega

theorem Compiled.index {pipeline : Pipeline} (compiled : pipeline.Compiled) {place : Nat}
    {step : Step} (present : pipeline.steps[place]? = some step) : step.index = place := by
  obtain ⟨table, runId, document, fresh, success, same⟩ := compiled
  rw [compile, Outcome.bind_ok_iff] at success
  obtain ⟨steps, compiled, success⟩ := success
  cases success
  have fresh : pipeline.steps = steps := by
    rw [same, Pipeline.steps, List.map_map]
    exact List.map_id _
  rw [fresh] at present
  simpa using compileSteps_index compiled present

end Pipeline

/-! Steps in a row. -/

/-- Steps run to their ends one after the other, each giving the path of a video or nothing. -/
inductive Completes (surroundings : Surroundings) :
    List Step → Context × World → List (Option String) → Context × World → Prop where
  | nothing {state : Context × World} : Completes surroundings [] state [] state
  | step {step : Step} {rest : List Step} {output : Option String}
      {outputs : List (Option String)} {before between after : Context × World}
      (ended : step.action.run surroundings Scope.root before = (.ok output, between))
      (later : Completes surroundings rest between outputs after) :
      Completes surroundings (step :: rest) before (output :: outputs) after

/-- All steps before a place run to their ends, and the one at that place fails. -/
def FailsAt (surroundings : Surroundings) (steps : List Step) (before : Context × World)
    (place : Nat) (error : StepError) (after : Context × World) : Prop :=
  ∃ step outputs between, steps[place]? = some step ∧
    Completes surroundings (steps.take place) before outputs between ∧
    step.action.run surroundings Scope.root between = (.error error, after)

/-- The output of the last step that is a sequence. -/
def lastVideo (steps : List Step) (outputs : List (Option String)) : Option String :=
  ((steps.zip outputs).filter fun pair => pair.1.isSequence).getLast?.bind (·.2)

variable {surroundings : Surroundings} {steps : List Step} {before after : Context × World}
  {outputs : List (Option String)}

/-- Sequences give the path of their video, other steps nothing. -/
theorem Step.isSome_output {step : Step} {output : Option String} {scope : Scope}
    (success : step.action.run surroundings scope before = (.ok output, after)) :
    output.isSome = step.isSequence := by
  obtain ⟨index, type, name, action⟩ := step
  cases action with
  | fetch key spec =>
    obtain ⟨value, between, -, success⟩ := Attempt.bind_ok_iff.mp success
    obtain ⟨⟨⟩, last, -, success⟩ := Attempt.bind_ok_iff.mp success
    cases success
    rfl
  | transform spec =>
    obtain ⟨⟨⟩, last, -, success⟩ := Attempt.bind_ok_iff.mp success
    cases success
    rfl
  | transforms specs =>
    obtain ⟨⟨⟩, last, -, success⟩ := Attempt.bind_ok_iff.mp success
    cases success
    rfl
  | sequence spec =>
    obtain ⟨path, between, -, success⟩ := Attempt.bind_ok_iff.mp success
    obtain ⟨⟨⟩, last, -, success⟩ := Attempt.bind_ok_iff.mp success
    cases success
    rfl

theorem completes_or_fails (surroundings : Surroundings) (steps : List Step)
    (before : Context × World) :
    (∃ outputs after, Completes surroundings steps before outputs after) ∨
      ∃ place error after, FailsAt surroundings steps before place error after := by
  induction steps generalizing before with
  | nil => exact Or.inl ⟨[], before, .nothing⟩
  | cons step rest ih =>
    rcases ran : step.action.run surroundings Scope.root before with ⟨error | output, between⟩
    · exact Or.inr ⟨0, error, between, step, [], before, rfl, .nothing, ran⟩
    · rcases ih between with
        ⟨outputs, after, completes⟩ | ⟨place, error, after, failing, outputs, behind, fails⟩
      · exact Or.inl ⟨output :: outputs, after, .step ran completes⟩
      · obtain ⟨present, completes, failed⟩ := fails
        exact Or.inr ⟨place + 1, error, after, failing, output :: outputs, behind, present,
          .step ran completes, failed⟩

theorem Completes.isSome_output (completes : Completes surroundings steps before outputs after)
    {pair : Step × Option String} (ran : pair ∈ steps.zip outputs) :
    pair.2.isSome = pair.1.isSequence := by
  induction completes with
  | nothing => cases ran
  | step ended later ih =>
    rw [List.zip_cons_cons, List.mem_cons] at ran
    rcases ran with rfl | ran
    · exact Step.isSome_output ended
    · exact ih ran

theorem lastVideo_cons {step : Step} {output : Option String}
    (fits : output.isSome = step.isSequence)
    (completes : Completes surroundings steps before outputs after) :
    lastVideo (step :: steps) (output :: outputs) = (lastVideo steps outputs).or output := by
  rw [lastVideo, lastVideo, List.zip_cons_cons, List.filter_cons]
  cases output with
  | none =>
    have noSequence : step.isSequence = false := fits.symm
    simp [noSequence]
  | some path =>
    have isSequence : step.isSequence = true := fits.symm
    rw [if_pos isSequence, List.getLast?_cons]
    cases last : ((steps.zip outputs).filter fun pair => pair.1.isSequence).getLast? with
    | none => rfl
    | some pair =>
      -- A later sequence has a video of its own, so this one does not count.
      obtain ⟨ran, sequence⟩ := List.mem_filter.mp (List.mem_of_getLast? last)
      obtain ⟨video, given⟩ := Option.isSome_iff_exists.mp
        ((completes.isSome_output ran).trans sequence)
      simp [given]

/-- The artifact of a run, kept up to date step by step, is the output of the last sequence. -/
theorem Completes.foldl_or (completes : Completes surroundings steps before outputs after)
    (artifact : Option String) :
    outputs.foldl (fun last output => output.or last) artifact =
      (lastVideo steps outputs).or artifact := by
  induction completes generalizing artifact with
  | nothing => rfl
  | step ended later ih =>
    rw [List.foldl_cons, ih, lastVideo_cons (Step.isSome_output ended) later, Option.or_assoc]

/-! The stages that a run of them leaves. -/

/-- The stages once all steps have succeeded. -/
def allCompleted (now : Calendar.DateTime) (stages : List Stage) : List Stage :=
  stages.map fun stage => { stage with state := .completed now now }

/-- The state of the step at an index once the step at a place has failed. -/
def stateAfterFailure (now : Calendar.DateTime) (place : Nat) (label message : String)
    (index : Nat) : StepState :=
  if index < place then .completed now now
  else if index = place then .failed message now now
  else .skipped ("step " ++ label ++ " failed")

/-- The stages once the step at a place has failed. -/
def stopped (now : Calendar.DateTime) (place : Nat) (label message : String)
    (stages : List Stage) : List Stage :=
  stages.mapIdx fun i stage => { stage with state := stateAfterFailure now place label message i }

section Left

variable {now : Calendar.DateTime} {place i : Nat} {label message : String} {stage : Stage}
  {stages : List Stage} {state : StepState}

theorem steps_allCompleted (now : Calendar.DateTime) (stages : List Stage) :
    (allCompleted now stages).map (·.step) = stages.map (·.step) := by
  rw [allCompleted, List.map_map]
  rfl

theorem state_allCompleted (member : stage ∈ allCompleted now stages) :
    stage.state = .completed now now := by
  obtain ⟨first, -, rfl⟩ := List.mem_map.mp member
  rfl

theorem stopped_zero : stopped now 0 label message (stage :: stages) =
    { stage with state := .failed message now now } :: skipAll label stages := by
  have skipped : skipAll label stages = stages.mapIdx fun i stage =>
      { stage with state := stateAfterFailure now 0 label message (i + 1) } := by
    apply List.ext_getElem?
    intro i
    simp [skipAll, stateAfterFailure]
  rw [skipped, stopped, List.mapIdx_cons]
  rfl

theorem stopped_succ : stopped now (place + 1) label message (stage :: stages) =
    { stage with state := .completed now now } :: stopped now place label message stages := by
  simp [stopped, List.mapIdx_cons, stateAfterFailure]

theorem steps_stopped :
    (stopped now place label message stages).map (·.step) = stages.map (·.step) := by
  apply List.ext_getElem?
  intro i
  rw [stopped, List.getElem?_map, List.getElem?_map, List.getElem?_mapIdx, Option.map_map]
  rfl

theorem state_stopped
    (present : ((stopped now place label message stages).map (·.state))[i]? = some state) :
    state = stateAfterFailure now place label message i := by
  rw [stopped, List.getElem?_map, List.getElem?_mapIdx, Option.map_map,
    Option.map_eq_some_iff] at present
  obtain ⟨stage, -, rfl⟩ := present
  rfl

theorem isTerminal_stopped (member : stage ∈ stopped now place label message stages) :
    stage.state.isTerminal = true := by
  obtain ⟨i, inside, rfl⟩ := List.mem_mapIdx.mp member
  simp only [stateAfterFailure]
  split
  · rfl
  · split <;> rfl

theorem find?_stopped (now : Calendar.DateTime) (label message : String)
    (present : stages[place]? = some stage) :
    (stopped now place label message stages).find? (fun stage => stage.state.isFailed) =
      some { stage with state := .failed message now now } := by
  obtain ⟨inside, rfl⟩ := List.getElem?_eq_some_iff.mp present
  rw [List.find?_eq_some_iff_getElem]
  refine ⟨rfl, place, by simpa [stopped] using inside, ?_, ?_⟩
  · simp [stopped, stateAfterFailure]
  · intro earlier before
    simp [stopped, stateAfterFailure, before, StepState.isFailed]

end Left

/-! The run of all stages. -/

variable {context : Context} {world : World} {stages : List Stage}

theorem runStages_completes (index : Nat) (artifact : Option String)
    (completes : Completes surroundings (stages.map (·.step)) (context, world) outputs after) :
    ∃ events, runStages surroundings index artifact context world stages = {
      stages := allCompleted surroundings.now stages
      events
      result := .ok (outputs.foldl (fun last output => output.or last) artifact)
      context := after.1
      world := after.2 } := by
  induction stages generalizing index artifact context world outputs with
  | nil =>
    cases completes
    exact ⟨[], rfl⟩
  | cons stage rest ih =>
    rw [List.map_cons] at completes
    cases completes with
    | @step _ _ output outputs _ between _ ended later =>
      obtain ⟨events, ran⟩ := ih (index + 1) (output.or artifact) later
      simp only [runStages, ended, ran, List.foldl_cons]
      exact ⟨_, rfl⟩

theorem runStages_fails (index : Nat) (artifact : Option String) {place : Nat} {error : StepError}
    (fails : FailsAt surroundings (stages.map (·.step)) (context, world) place error after) :
    ∃ events label, runStages surroundings index artifact context world stages = {
      stages := stopped surroundings.now place label error.message stages
      events
      result := .error error
      context := after.1
      world := after.2 } := by
  obtain ⟨failing, outputs, between, present, completes, failed⟩ := fails
  induction stages generalizing index artifact context world outputs place with
  | nil => cases present
  | cons stage rest ih =>
    cases place with
    | zero =>
      cases present
      cases completes
      simp only [runStages, failed, ← stopped_zero]
      exact ⟨_, stage.step.label, rfl⟩
    | succ place =>
      rw [List.map_cons, List.take_succ_cons] at completes
      cases completes with
      | @step _ _ output outputs _ behind _ ended later =>
        obtain ⟨events, label, ran⟩ :=
          ih (index + 1) (output.or artifact) outputs present later
        simp only [runStages, ended, ran, ← stopped_succ]
        exact ⟨_, label, rfl⟩

/-! What comes behind the steps. -/

section Conclude

variable {storing : List Storing} {steps : StagesRun} {artifact : Option String}
  {stored : List String} {error : StepError} {worldAfter : World}

theorem conclude_failed (failed : steps.result = .error error) :
    conclude surroundings storing steps =
      (.error error, removeTemp steps.context steps.world) := by
  rw [conclude, failed]

theorem conclude_not_stored (completed : steps.result = .ok artifact)
    (stores : storeAll surroundings steps.context storing steps.world =
      (.error error, worldAfter)) :
    conclude surroundings storing steps = (.error error, removeTemp steps.context worldAfter) := by
  rw [conclude, completed]
  simp only [stores]

theorem conclude_stored (completed : steps.result = .ok artifact)
    (stores : storeAll surroundings steps.context storing steps.world =
      (.ok stored, worldAfter)) :
    conclude surroundings storing steps =
      (.ok (artifact, stored), removeTemp steps.context worldAfter) := by
  rw [conclude, completed]
  simp only [stores]

end Conclude

/-! The ways a run can end. -/

inductive RunEnding where
  | completed
  /-- The step at this place has failed. -/
  | stoppedAt (place : Nat)
  /-- Every step has succeeded, but not everything could be stored. -/
  | notStored

namespace Execution

/-- Every step succeeds and everything is stored. -/
structure EndsWell (run : Execution) (surroundings : Surroundings) (pipeline : Pipeline)
    (before : Context × World) : Prop where
  status : run.pipeline.run.status = .completed
  states : ∀ state ∈ run.pipeline.states, state.isCompleted = true
  result : ∃ report outputs after, run.result = .ok report ∧
    Completes surroundings pipeline.steps before outputs after ∧
    (storeAll surroundings after.1 pipeline.storing after.2).1 = .ok report.stored ∧
    report.artifact = lastVideo pipeline.steps outputs

/-- The step at a place fails. -/
structure EndsAtStep (run : Execution) (surroundings : Surroundings) (pipeline : Pipeline)
    (before : Context × World) (place : Nat) : Prop where
  status : run.pipeline.run.status = .failed
  earlier : ∀ i state, i < place → run.pipeline.states[i]? = some state →
    state.isCompleted = true
  itself : ∃ error started ended, run.result = .error error ∧
    run.pipeline.states[place]? = some (.failed error.message started ended)
  later : ∀ i state, place < i → run.pipeline.states[i]? = some state →
    state.isSkipped = true
  failedStep : run.pipeline.failedStep?.map (·.index) = some place
  result : ∃ error after, run.result = .error error ∧
    FailsAt surroundings pipeline.steps before place error after

/-- Every step succeeds, but storing fails. -/
structure EndsAtStoring (run : Execution) (surroundings : Surroundings) (pipeline : Pipeline)
    (before : Context × World) : Prop where
  status : run.pipeline.run.status = .failed
  states : ∀ state ∈ run.pipeline.states, state.isCompleted = true
  failedStep : run.pipeline.failedStep? = none
  result : ∃ error outputs after, run.result = .error error ∧
    Completes surroundings pipeline.steps before outputs after ∧
    (storeAll surroundings after.1 pipeline.storing after.2).1 = .error error

/-- A run of a pipeline, begun on what is before it, ends in the given way. -/
def EndsBy (run : Execution) (surroundings : Surroundings) (pipeline : Pipeline)
    (before : Context × World) : RunEnding → Prop
  | .completed => run.EndsWell surroundings pipeline before
  | .stoppedAt place => run.EndsAtStep surroundings pipeline before place
  | .notStored => run.EndsAtStoring surroundings pipeline before

/-- The way a run has ended, read off its result and its first failed step. -/
def ending (run : Execution) : RunEnding := match run.result, run.pipeline.failedStep? with
  | .ok _, _ => .completed
  | .error _, some step => .stoppedAt step.index
  | .error _, none => .notStored

theorem EndsBy.eq_ending {run : Execution} {pipeline : Pipeline} {ending : RunEnding}
    (ends : run.EndsBy surroundings pipeline before ending) : ending = run.ending := by
  cases ending with
  | completed =>
    obtain ⟨report, outputs, after, result, -⟩ := ends.result
    simp [Execution.ending, result]
  | stoppedAt place =>
    obtain ⟨error, after, result, -⟩ := ends.result
    obtain ⟨step, failed, rfl⟩ := Option.map_eq_some_iff.mp ends.failedStep
    simp [Execution.ending, result, failed]
  | notStored =>
    obtain ⟨error, outputs, after, result, -⟩ := ends.result
    simp [Execution.ending, result, ends.failedStep]

/-- What the books say of every run that is over. -/
structure Closed (run : Execution) (pipeline : Pipeline) : Prop where
  steps : run.pipeline.steps = pipeline.steps
  complete : run.pipeline.isComplete = true
  total : run.pipeline.run.total = pipeline.steps.length
  accounted : run.pipeline.run.total =
    run.pipeline.run.completed + run.pipeline.run.failed + run.pipeline.run.skipped
  completed : run.pipeline.run.completed = run.pipeline.states.countP StepState.isCompleted
  failed : run.pipeline.run.failed = run.pipeline.states.countP StepState.isFailed
  skipped : run.pipeline.run.skipped = run.pipeline.states.countP StepState.isSkipped

end Execution

/-! The books. -/

/-- A step that is done with has come out in one of three ways. -/
theorem StepState.one_outcome {state : StepState} (terminal : state.isTerminal = true) :
    (if state.isCompleted then 1 else 0) + (if state.isFailed then 1 else 0) +
      (if state.isSkipped then 1 else 0) = 1 := by
  cases state with
  | pending => cases terminal
  | running started => cases terminal
  | completed started ended => rfl
  | failed error started ended => rfl
  | skipped reason => rfl

theorem countP_terminal {states : List StepState}
    (terminal : ∀ state ∈ states, state.isTerminal = true) :
    states.length = states.countP StepState.isCompleted + states.countP StepState.isFailed +
      states.countP StepState.isSkipped := by
  induction states with
  | nil => rfl
  | cons state rest ih =>
    have behind := ih fun other member => terminal other (List.mem_cons_of_mem _ member)
    have here := StepState.one_outcome (terminal state List.mem_cons_self)
    simp only [List.countP_cons, List.length_cons]
    omega

namespace Pipeline

/-- The pipeline as its run begins, under its own id or a fresh one. -/
def begun (pipeline : Pipeline) (surroundings : Surroundings) : Pipeline :=
  (pipeline.ready surroundings.freshId).begin surroundings.now

theorem steps_begun (pipeline : Pipeline) (surroundings : Surroundings) :
    (pipeline.begun surroundings).stages.map (·.step) = pipeline.steps := by
  rw [begun, begin, ready]
  split
  · rfl
  · simp [reset, steps]

theorem storing_begun (pipeline : Pipeline) (surroundings : Surroundings) :
    (pipeline.begun surroundings).storing = pipeline.storing := by
  rw [begun, begin, ready]
  split <;> rfl

theorem total_begun (pipeline : Pipeline) (surroundings : Surroundings) :
    (pipeline.begun surroundings).run.total = (pipeline.begun surroundings).stages.length :=
  rfl

/-- The books of a pipeline are right once it is closed with steps that are all done with. -/
theorem close_counts {begun : Pipeline} {stages : List Stage} {status : Status}
    {now : Calendar.DateTime} (total : begun.run.total = stages.length)
    (terminal : ∀ stage ∈ stages, stage.state.isTerminal = true) :
    (begun.close stages status now).run.total =
      (begun.close stages status now).run.completed + (begun.close stages status now).run.failed +
        (begun.close stages status now).run.skipped := by
  have allTerminal : ∀ state ∈ stages.map (·.state), state.isTerminal = true := by
    simpa using terminal
  have counted := countP_terminal allTerminal
  rw [List.length_map, ← total] at counted
  exact counted

/-- What its first step finds. -/
def beginning (pipeline : Pipeline) (surroundings : Surroundings) (config : JobConfig)
    (world : World) : Context × World :=
  (Context.start config (pipeline.begun surroundings).run.runId, world)

variable {pipeline : Pipeline} {config : JobConfig} {world : World} {ran : StagesRun}

/-- A failed run returns what stopped it. -/
theorem execute_error {error : StepError} {worldAfter : World}
    (run : runStages surroundings 0 none (pipeline.beginning surroundings config world).1 world
      (pipeline.begun surroundings).stages = ran)
    (failed : conclude surroundings pipeline.storing ran = (.error error, worldAfter)) :
    (pipeline.execute surroundings config world).result = .error error ∧
      (pipeline.execute surroundings config world).pipeline =
        (pipeline.begun surroundings).close ran.stages .failed surroundings.now ∧
      (pipeline.execute surroundings config world).world = worldAfter := by
  rw [← pipeline.storing_begun surroundings] at failed
  simp only [beginning, begun] at run failed ⊢
  simp only [execute, run, failed, and_self]

/-- A run that succeeds reports its artifact and what it has stored. -/
theorem execute_ok {artifact : Option String} {stored : List String} {worldAfter : World}
    (run : runStages surroundings 0 none (pipeline.beginning surroundings config world).1 world
      (pipeline.begun surroundings).stages = ran)
    (succeeded : conclude surroundings pipeline.storing ran =
      (.ok (artifact, stored), worldAfter)) :
    (∃ report, (pipeline.execute surroundings config world).result = .ok report ∧
      report.artifact = artifact ∧ report.stored = stored) ∧
      (pipeline.execute surroundings config world).pipeline =
        (pipeline.begun surroundings).close ran.stages .completed surroundings.now := by
  rw [← pipeline.storing_begun surroundings] at succeeded
  simp only [beginning, begun] at run succeeded ⊢
  simp only [execute, run, succeeded, and_true]
  exact ⟨_, rfl, rfl, rfl⟩

end Pipeline

namespace Execution

variable {run : Execution} {begun pipeline : Pipeline} {stages : List Stage} {status : Status}
  {now : Calendar.DateTime}

/-- A run closed with its steps, all done with, has its books in order. -/
theorem closed_of_close (closing : run.pipeline = begun.close stages status now)
    (steps : stages.map (·.step) = pipeline.steps) (total : begun.run.total = stages.length)
    (terminal : ∀ stage ∈ stages, stage.state.isTerminal = true) : run.Closed pipeline where
  steps := by rw [closing]; exact steps
  complete := by
    rw [closing, Pipeline.isComplete, List.all_eq_true]
    intro state member
    obtain ⟨stage, present, rfl⟩ := List.mem_map.mp member
    exact terminal stage present
  total := by rw [closing, ← steps, List.length_map, ← total]; rfl
  accounted := by rw [closing]; exact Pipeline.close_counts total terminal
  completed := by rw [closing]; rfl
  failed := by rw [closing]; rfl
  skipped := by rw [closing]; rfl

end Execution

namespace Pipeline

variable {pipeline : Pipeline} {config : JobConfig} {world : World}

/-- The steps succeed: how the run ends hangs on storing. -/
theorem ends_of_completes
    (completes : Completes surroundings pipeline.steps
      (pipeline.beginning surroundings config world) outputs after) :
    ∃ ending, (pipeline.execute surroundings config world).EndsBy surroundings pipeline
        (pipeline.beginning surroundings config world) ending ∧
      (pipeline.execute surroundings config world).Closed pipeline := by
  have begun := pipeline.steps_begun surroundings
  rw [← begun] at completes
  obtain ⟨events, ran⟩ := runStages_completes 0 none completes
  rw [begun] at completes
  have video := completes.foldl_or none
  rw [Option.or_none] at video
  rw [video] at ran
  have steps := (steps_allCompleted surroundings.now _).trans begun
  have total : (pipeline.begun surroundings).run.total =
      (allCompleted surroundings.now (pipeline.begun surroundings).stages).length := by
    rw [total_begun, allCompleted, List.length_map]
  have completed : ∀ stage ∈ allCompleted surroundings.now (pipeline.begun surroundings).stages,
      stage.state.isCompleted = true := by
    intro stage member
    rw [state_allCompleted member]
    rfl
  have terminal : ∀ stage ∈ allCompleted surroundings.now (pipeline.begun surroundings).stages,
      stage.state.isTerminal = true := by
    intro stage member
    rw [state_allCompleted member]
    rfl
  rcases stores : storeAll surroundings after.1 pipeline.storing after.2 with
    ⟨error | stored, worldAfter⟩
  · obtain ⟨result, closing, -⟩ := execute_error ran (conclude_not_stored rfl stores)
    refine ⟨.notStored, ?_, Execution.closed_of_close closing steps total terminal⟩
    exact {
      status := by rw [closing]; rfl
      states := by
        rw [closing]
        simpa [Pipeline.states, close, tally] using completed
      failedStep := by
        rw [closing, failedStep?, Option.map_eq_none_iff, List.find?_eq_none]
        intro stage member
        rw [state_allCompleted member]
        exact Bool.false_ne_true
      result := ⟨error, outputs, after, result, completes, by rw [stores]⟩ }
  · obtain ⟨⟨report, result, artifact, kept⟩, closing⟩ :=
      execute_ok ran (conclude_stored rfl stores)
    refine ⟨.completed, ?_, Execution.closed_of_close closing steps total terminal⟩
    exact {
      status := by rw [closing]; rfl
      states := by
        rw [closing]
        simpa [Pipeline.states, close, tally] using completed
      result := ⟨report, outputs, after, result, completes, by rw [stores, kept], artifact⟩ }

/-- A step fails. -/
theorem ends_of_fails (compiled : pipeline.Compiled) {place : Nat} {error : StepError}
    (fails : FailsAt surroundings pipeline.steps (pipeline.beginning surroundings config world)
      place error after) :
    (pipeline.execute surroundings config world).EndsAtStep surroundings pipeline
        (pipeline.beginning surroundings config world) place ∧
      (pipeline.execute surroundings config world).Closed pipeline := by
  have begun := pipeline.steps_begun surroundings
  rw [← begun] at fails
  obtain ⟨events, label, ran⟩ := runStages_fails 0 none fails
  rw [begun] at fails
  obtain ⟨result, closing, -⟩ := execute_error ran (conclude_failed rfl)
  have states : (pipeline.execute surroundings config world).pipeline.states =
      (stopped surroundings.now place label error.message
        (pipeline.begun surroundings).stages).map (·.state) := by
    rw [closing]
    rfl
  obtain ⟨step, outputs, between, present, -⟩ := id fails
  have index := compiled.index present
  rw [← begun, List.getElem?_map, Option.map_eq_some_iff] at present
  obtain ⟨stage, present, rfl⟩ := present
  constructor
  · exact {
      status := by rw [closing]; rfl
      earlier := by
        intro i state before at?
        rw [states] at at?
        simp [state_stopped at?, stateAfterFailure, before, StepState.isCompleted]
      itself := by
        rw [states]
        refine ⟨error, surroundings.now, surroundings.now, result, ?_⟩
        simp [stopped, present, stateAfterFailure]
      later := by
        intro i state behind at?
        rw [states] at at?
        have notBefore : ¬i < place := Nat.lt_asymm behind
        have notItself : i ≠ place := Nat.ne_of_gt behind
        simp [state_stopped at?, stateAfterFailure, notBefore, notItself, StepState.isSkipped]
      failedStep := by
        rw [closing]
        have found := congrArg (Option.map fun stage : Stage => stage.step.index)
          (find?_stopped surroundings.now label error.message present)
        rw [Option.map_some, index] at found
        rw [failedStep?, Option.map_map]
        exact found
      result := ⟨error, after, result, fails⟩ }
  · refine Execution.closed_of_close closing (steps_stopped.trans begun) ?_
      fun stage => isTerminal_stopped
    rw [total_begun, stopped, List.length_mapIdx]

end Pipeline

namespace Execution

/-- The summary of a run tells by its error and by its status whether the run has succeeded. -/
theorem EndsBy.summary {run : Execution} {pipeline : Pipeline} {ending : RunEnding}
    (ends : run.EndsBy surroundings pipeline before ending) (jobName : String)
    (now : Calendar.DateTime) :
    ((RunSummary.ofRun run jobName now).error = none ↔ run.result.isOk = true) ∧
      (run.result.isOk = true ↔ (RunSummary.ofRun run jobName now).status = .completed) := by
  cases ending with
  | completed =>
    obtain ⟨report, outputs, after, result, -⟩ := ends.result
    simp [RunSummary.ofRun, result, ends.status, Except.isOk, Except.toBool]
  | stoppedAt place =>
    obtain ⟨error, after, result, -⟩ := ends.result
    simp [RunSummary.ofRun, result, ends.status, Except.isOk, Except.toBool]
  | notStored =>
    obtain ⟨error, outputs, after, result, -⟩ := ends.result
    simp [RunSummary.ofRun, result, ends.status, Except.isOk, Except.toBool]

end Execution

/-- A run of a compiled pipeline ends in exactly one of three ways, and its books and its summary
agree with what it returns. -/
theorem execute_ends_once {pipeline : Pipeline} (compiled : pipeline.Compiled)
    (surroundings : Surroundings) (config : JobConfig) (world : World) :
    (∃! ending, (pipeline.execute surroundings config world).EndsBy surroundings pipeline
        (pipeline.beginning surroundings config world) ending) ∧
      (pipeline.execute surroundings config world).Closed pipeline ∧
      ∀ jobName now,
        ((RunSummary.ofRun (pipeline.execute surroundings config world) jobName now).error =
            none ↔ (pipeline.execute surroundings config world).result.isOk = true) ∧
        ((pipeline.execute surroundings config world).result.isOk = true ↔
          (RunSummary.ofRun (pipeline.execute surroundings config world) jobName now).status =
            .completed) := by
  have ends : ∃ ending, (pipeline.execute surroundings config world).EndsBy surroundings pipeline
        (pipeline.beginning surroundings config world) ending ∧
      (pipeline.execute surroundings config world).Closed pipeline := by
    rcases completes_or_fails surroundings pipeline.steps
      (pipeline.beginning surroundings config world) with
      ⟨outputs, after, completes⟩ | ⟨place, error, after, fails⟩
    · exact Pipeline.ends_of_completes completes
    · exact ⟨.stoppedAt place, Pipeline.ends_of_fails compiled fails⟩
  obtain ⟨ending, ends, closed⟩ := ends
  exact ⟨⟨ending, ends, fun other also => also.eq_ending.trans ends.eq_ending.symm⟩, closed,
    ends.summary⟩

/-- A document whose second step cannot be carried out. -/
def unfinishedNews : Document where
  name := "news"
  description := none
  steps := [⟨"input", [("input", .string "sun")]⟩, ⟨"alias", []⟩,
    ⟨"input", [("input", .string "rain")]⟩]
  storing := []

/-- Its pipeline, with the states of a run that went no further than the first step. -/
def unfinished : Pipeline where
  name := "news"
  description := none
  stages := [
    ⟨⟨0, "input", none, .fetch "_req" (.mk .input "input" none (.input (.string "sun")))⟩,
      .running Action.offline.now⟩,
    ⟨⟨1, "alias", none, .transform (.mk .synonym [] none .unimplemented)⟩,
      .skipped "step #1 input failed"⟩,
    ⟨⟨2, "input", none, .fetch "_req" (.mk .input "input" none (.input (.string "rain")))⟩,
      .pending⟩]
  storing := []
  run := { runId := "11111111-2222-4333-8444-555555555555", status := .running }

theorem execute_ends_once_unfinished :
    unfinished.Compiled ∧
      (unfinished.execute Action.offline (JobConfig.named "news") {}).EndsBy Action.offline
        unfinished (unfinished.beginning Action.offline (JobConfig.named "news") {}) (.stoppedAt 1) ∧
      (unfinished.execute Action.offline (JobConfig.named "news") {}).Closed unfinished := by
  have compiled : unfinished.Compiled :=
    ⟨.builtin, "99999999-8888-4777-8666-555555555555", unfinishedNews, _, rfl, rfl⟩
  obtain ⟨⟨ending, ends, -⟩, closed, -⟩ :=
    execute_ends_once compiled Action.offline (JobConfig.named "news") {}
  have stops : (unfinished.execute Action.offline (JobConfig.named "news") {}).ending =
      .stoppedAt 1 := rfl
  rw [ends.eq_ending, stops] at ends
  exact ⟨compiled, ends, closed⟩

end Newsreel
