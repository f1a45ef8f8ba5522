import Mathlib.Logic.Function.Iterate
import Newsreel.Proofs.Run.Remembered

/-!
A run taken action by action.

The actions of a run are its steps, then the entries to be stored, then clearing up. Between two of
them others may work on the same files. Taken one after the other with nothing between them, they
make up the whole run.
-/

namespace Newsreel

/-- A run between two of its actions. -/
structure Course where
  context : Context
  /-- The stages that are done with. -/
  behind : List Stage := []
  ahead : List Stage
  events : List Event := []
  /-- The path of the last video so far. -/
  artifact : Option String := none
  storing : List Storing
  stored : List String := []
  failure : Option StepError := none
  cleared : Bool := false

namespace Course

variable {surroundings : Surroundings} {course : Course} {world : World}

/-- A step has been run, with an outcome that stops the run or not. -/
def stepped (course : Course) (now : Calendar.DateTime) (stage : Stage) (rest : List Stage)
    (context : Context) (outcome : Except StepError (Option String)) : Course :=
  let label := stage.step.label
  let index := course.behind.length
  match outcome with
  | .ok path => { course with
    context
    behind := course.behind ++ [{ stage with state := .completed now now }]
    ahead := rest
    events := course.events ++ [.stepStarted index label, .stepCompleted index label]
    artifact := path.or course.artifact }
  | .error error => { course with
    context
    behind := course.behind ++
      { stage with state := .failed error.message now now } :: skipAll label rest
    ahead := []
    events := course.events ++ [.stepStarted index label, .stepFailed index label error.message]
    artifact := none
    storing := []
    failure := some error }

/-- An entry has been stored, or has stopped the run. -/
def remembered (course : Course) (rest : List Storing) : Except StepError String → Course
  | .ok path => { course with storing := rest, stored := course.stored ++ [path] }
  | .error error =>
    { course with artifact := none, storing := [], stored := [], failure := some error }

/-- The next action. A run that has cleared up has none left. -/
def act (surroundings : Surroundings) (course : Course) (world : World) : Course × World :=
  match course.ahead, course.storing with
  | stage :: rest, _ =>
    let ran := stage.step.action.run surroundings Scope.root (course.context, world)
    (course.stepped surroundings.now stage rest ran.2.1 ran.1, ran.2.2)
  | [], entry :: rest =>
    let ran := entry.store surroundings course.context world
    (course.remembered rest ran.1, ran.2)
  | [], [] =>
    if course.cleared then (course, world)
    else ({ course with cleared := true }, removeTemp course.context world)

theorem act_of_ahead {stage : Stage} {rest : List Stage} (found : course.ahead = stage :: rest)
    (world : World) : course.act surroundings world =
      (course.stepped surroundings.now stage rest
        (stage.step.action.run surroundings Scope.root (course.context, world)).2.1
        (stage.step.action.run surroundings Scope.root (course.context, world)).1,
        (stage.step.action.run surroundings Scope.root (course.context, world)).2.2) := by
  rw [act, found]

theorem act_of_storing (noSteps : course.ahead = []) {entry : Storing} {rest : List Storing}
    (found : course.storing = entry :: rest) (world : World) : course.act surroundings world =
      (course.remembered rest (entry.store surroundings course.context world).1,
        (entry.store surroundings course.context world).2) := by
  rw [act, noSteps, found]

theorem act_of_waiting (noSteps : course.ahead = []) (noEntries : course.storing = [])
    (waiting : course.cleared = false) (world : World) : course.act surroundings world =
      ({ course with cleared := true }, removeTemp course.context world) := by
  rw [act, noSteps, noEntries, waiting]
  rfl

theorem act_of_cleared (noSteps : course.ahead = []) (noEntries : course.storing = [])
    (cleared : course.cleared = true) (world : World) :
    course.act surroundings world = (course, world) := by
  rw [act, noSteps, noEntries, cleared]
  rfl

/-- The most actions that are left. -/
def left (course : Course) : Nat :=
  course.ahead.length + course.storing.length + if course.cleared then 0 else 1

theorem act_of_done (done : course.left = 0) (world : World) :
    course.act surroundings world = (course, world) := by
  rw [left] at done
  have noSteps : course.ahead = [] := List.length_eq_zero_iff.mp (by omega)
  have noEntries : course.storing = [] := List.length_eq_zero_iff.mp (by omega)
  have cleared : course.cleared = true := by
    by_contra waiting
    rw [if_neg waiting] at done
    omega
  exact act_of_cleared noSteps noEntries cleared world

theorem left_stepped (course : Course) (now : Calendar.DateTime) (stage : Stage)
    (rest : List Stage) (context : Context) (outcome : Except StepError (Option String)) :
    (course.stepped now stage rest context outcome).left ≤
      rest.length + course.storing.length + if course.cleared then 0 else 1 := by
  cases outcome with
  | ok path => exact Nat.le_refl _
  | error error =>
    exact Nat.add_le_add_right (Nat.zero_le _) _

theorem left_remembered (course : Course) (rest : List Storing)
    (outcome : Except StepError String) : (course.remembered rest outcome).left ≤
      course.ahead.length + rest.length + if course.cleared then 0 else 1 := by
  cases outcome with
  | ok path => exact Nat.le_refl _
  | error error =>
    exact Nat.add_le_add_right (Nat.le_add_right _ _) _

/-- Every action brings the end nearer. -/
theorem left_act (surroundings : Surroundings) (course : Course) (world : World) :
    (course.act surroundings world).1.left ≤ course.left - 1 := by
  rw [act]
  split
  · next stage rest found =>
    refine (left_stepped course _ stage rest _ _).trans ?_
    simp only [left, found, List.length_cons]
    omega
  · next entry rest noSteps found =>
    refine (left_remembered course rest _).trans ?_
    simp only [left, noSteps, found, List.length_cons, List.length_nil]
    omega
  · next noSteps noEntries =>
    split
    · next cleared => simp [left, noSteps, noEntries, cleared]
    · simp [left, noSteps, noEntries]

/-- Some actions, one after the other. -/
def turns (surroundings : Surroundings) (count : Nat) (state : Course × World) : Course × World :=
  (fun state : Course × World => state.1.act surroundings state.2)^[count] state

theorem turns_succ (surroundings : Surroundings) (count : Nat) (state : Course × World) :
    turns surroundings (count + 1) state =
      (turns surroundings count state).1.act surroundings (turns surroundings count state).2 :=
  Function.iterate_succ_apply' _ _ _

theorem left_turns (surroundings : Surroundings) (count : Nat) (state : Course × World) :
    (turns surroundings count state).1.left ≤ state.1.left - count := by
  induction count with
  | zero => exact Nat.le_refl _
  | succ count ih =>
    rw [turns_succ]
    have further := left_act surroundings (turns surroundings count state).1
      (turns surroundings count state).2
    omega

/-- The rest of a run, with nothing between its actions. -/
def finish (surroundings : Surroundings) (state : Course × World) : Course × World :=
  turns surroundings state.1.left state

theorem left_finish (surroundings : Surroundings) (state : Course × World) :
    (finish surroundings state).1.left = 0 := by
  have nothing := left_turns surroundings state.1.left state
  rw [Nat.sub_self] at nothing
  exact Nat.le_zero.mp nothing

/-- More turns than there are actions change nothing. -/
theorem turns_eq_finish (count : Nat) {state : Course × World} (enough : state.1.left ≤ count) :
    turns surroundings count state = finish surroundings state := by
  obtain ⟨more, rfl⟩ := Nat.exists_eq_add_of_le' enough
  rw [turns, Function.iterate_add_apply]
  exact Function.iterate_fixed (act_of_done (left_finish surroundings state) _) more

theorem finish_act (course : Course) (world : World) :
    finish surroundings (course.act surroundings world) = finish surroundings (course, world) := by
  have fewer := left_act surroundings course world
  rw [← turns_eq_finish course.left (fewer.trans (Nat.sub_le _ _)),
    ← turns_eq_finish (course.left + 1) (Nat.le_succ course.left)]
  exact (Function.iterate_succ_apply
    (fun state : Course × World => state.1.act surroundings state.2) _ (course, world)).symm

/-! The actions make up the run. -/

/-- The steps that were ahead have been run. -/
def after (course : Course) (ran : StagesRun) : Course := match ran.result with
  | .ok artifact => { course with
    context := ran.context
    behind := course.behind ++ ran.stages
    ahead := []
    events := course.events ++ ran.events
    artifact }
  | .error error => { course with
    context := ran.context
    behind := course.behind ++ ran.stages
    ahead := []
    events := course.events ++ ran.events
    artifact := none
    storing := []
    failure := some error }

/-- The stages ahead are run to the first that fails. -/
theorem finish_steps (surroundings : Surroundings) (course : Course) (world : World) :
    finish surroundings (course, world) =
      finish surroundings (course.after (runStages surroundings course.behind.length
        course.artifact course.context world course.ahead),
        (runStages surroundings course.behind.length course.artifact course.context world
          course.ahead).world) := by
  induction ahead : course.ahead generalizing course world with
  | nil =>
    have same : course.after ⟨[], [], .ok course.artifact, course.context, world⟩ = course := by
      rcases course with ⟨context, behind, _, events⟩
      obtain rfl := ahead
      simp only [after, List.append_nil]
    rw [runStages, same]
  | cons stage rest ih =>
    rw [← finish_act]
    rw [act_of_ahead ahead, runStages]
    rcases stage.step.action.run surroundings Scope.root (course.context, world) with
      ⟨error | path, context, between⟩
    · rfl
    · dsimp only
      rw [ih (course.stepped surroundings.now stage rest context (.ok path)) between rfl]
      simp only [stepped, after, List.length_append, List.length_singleton, List.append_assoc,
        List.cons_append, List.nil_append]

/-- What was to be stored has been stored, or has stopped the run. -/
def settled (course : Course) : Except StepError (List String) → Course
  | .ok paths => { course with storing := [], stored := course.stored ++ paths }
  | .error error =>
    { course with artifact := none, storing := [], stored := [], failure := some error }

/-- The entries are stored up to the first that fails. -/
theorem finish_stores (noSteps : course.ahead = []) (world : World) :
    finish surroundings (course, world) =
      finish surroundings
        (course.settled (storeAll surroundings course.context course.storing world).1,
          (storeAll surroundings course.context course.storing world).2) := by
  induction entries : course.storing generalizing course world with
  | nil =>
    have same : course.settled (.ok []) = course := by
      rcases course with ⟨context, behind, ahead, events, artifact, _⟩
      obtain rfl := entries
      simp only [settled, List.append_nil]
    exact congrArg (fun state => finish surroundings (state, world)) same.symm
  | cons entry rest ih =>
    rw [← finish_act]
    rw [act_of_storing noSteps entries, storeAll_cons]
    rcases stores : entry.store surroundings course.context world with ⟨error | path, between⟩
    · rw [Attempt.bind_run_error stores]
      exact congrArg (fun state => finish surroundings (state, between))
        (by simp only [remembered, settled])
    · rw [Attempt.bind_run_ok stores]
      dsimp only
      have onward : (course.remembered rest (.ok path)).ahead = [] := noSteps
      rw [ih onward between rfl]
      rcases later : storeAll surroundings course.context rest between with ⟨error | paths, last⟩
      · rw [Attempt.bind_run_error later]
        simp only [remembered, later, settled]
      · rw [Attempt.bind_run_ok later]
        simp only [remembered, later, settled, List.append_assoc, List.cons_append, List.nil_append]
        rfl

theorem finish_clears (noSteps : course.ahead = []) (noEntries : course.storing = [])
    (waiting : course.cleared = false) (world : World) : finish surroundings (course, world) =
      ({ course with cleared := true }, removeTemp course.context world) := by
  have one : course.left = 1 := by
    rw [left, noSteps, noEntries, waiting]
    rfl
  rw [finish, one]
  exact act_of_waiting noSteps noEntries waiting world

/-! What a run has come to. -/

/-- The path of the last video and the paths of what has been stored, or what has stopped the run. -/
def outcome (course : Course) : Except StepError (Option String × List String) :=
  match course.failure with
  | some error => .error error
  | none => .ok (course.artifact, course.stored)

/-- What a run gives that has come to its end in a world. -/
def execution (course : Course) (surroundings : Surroundings) (begun : Pipeline) (world : World) :
    Execution :=
  let now := surroundings.now
  let opening : Event := .runStarted begun.run.runId begun.name begun.stages.length
  match course.outcome with
  | .ok (artifact, stored) => {
    result := .ok {
      runId := begun.run.runId
      pipelineName := begun.name
      jobName := course.context.config.jobName
      artifact, stored
      data := course.context.data }
    pipeline := begun.close course.behind .completed now
    events := opening :: course.events ++ [.runCompleted begun.run.runId .completed artifact]
    world }
  | .error error => {
    result := .error error
    pipeline := begun.close course.behind .failed now
    events := opening :: course.events ++ [.runCompleted begun.run.runId .failed none]
    world }

/-- The world adds nothing to it. -/
theorem execution_eq (course : Course) (surroundings : Surroundings) (begun : Pipeline)
    (world other : World) : course.execution surroundings begun world =
      { course.execution surroundings begun other with world } := by
  rw [execution, execution]
  rcases course.outcome with error | ⟨artifact, stored⟩ <;> rfl

end Course

namespace Pipeline

/-- A run before its first action. -/
def course (pipeline : Pipeline) (surroundings : Surroundings) (config : JobConfig) : Course where
  context := Context.start config (pipeline.begun surroundings).run.runId
  ahead := (pipeline.begun surroundings).stages
  storing := pipeline.storing

/-- The steps of a run. -/
def stagesRun (pipeline : Pipeline) (surroundings : Surroundings) (config : JobConfig)
    (world : World) : StagesRun :=
  runStages surroundings 0 none (pipeline.beginning surroundings config world).1 world
    (pipeline.begun surroundings).stages

/-- A run that has concluded gives what its course has come to. -/
theorem execute_eq {course : Course} {pipeline : Pipeline} {config : JobConfig} {world left : World}
    (concluded : conclude surroundings pipeline.storing
      (pipeline.stagesRun surroundings config world) = (course.outcome, left))
    (context : course.context = (pipeline.stagesRun surroundings config world).context)
    (behind : course.behind = (pipeline.stagesRun surroundings config world).stages)
    (events : course.events = (pipeline.stagesRun surroundings config world).events) :
    course.execution surroundings (pipeline.begun surroundings) left =
      pipeline.execute surroundings config world := by
  rw [← pipeline.storing_begun surroundings] at concluded
  rw [Course.execution, context, behind, events]
  simp only [stagesRun, beginning, begun] at concluded ⊢
  rw [execute]
  simp only [concluded]
  rcases course.outcome with error | ⟨artifact, stored⟩ <;> rfl

/-- Its actions, taken one after the other, make up the run. -/
theorem execution_finish {pipeline : Pipeline} {config : JobConfig} {world : World}
    {final : Course × World}
    (finished : Course.finish surroundings (pipeline.course surroundings config, world) = final) :
    final.1.execution surroundings (pipeline.begun surroundings) final.2 =
        pipeline.execute surroundings config world ∧
      final.1.context = (pipeline.stagesRun surroundings config world).context := by
  rw [Course.finish_steps] at finished
  change Course.finish surroundings ((pipeline.course surroundings config).after
    (pipeline.stagesRun surroundings config world),
    (pipeline.stagesRun surroundings config world).world) = final at finished
  rcases result : (pipeline.stagesRun surroundings config world).result with error | artifact
  · have stopped : (pipeline.course surroundings config).after
        (pipeline.stagesRun surroundings config world) = {
          context := (pipeline.stagesRun surroundings config world).context
          behind := (pipeline.stagesRun surroundings config world).stages
          ahead := []
          events := (pipeline.stagesRun surroundings config world).events
          storing := []
          failure := some error } := by
      simp only [Course.after, result]
      rfl
    rw [stopped, Course.finish_clears rfl rfl rfl] at finished
    rw [← finished]
    exact ⟨execute_eq (conclude_failed result) rfl rfl rfl, rfl⟩
  · have completed : (pipeline.course surroundings config).after
        (pipeline.stagesRun surroundings config world) = {
          context := (pipeline.stagesRun surroundings config world).context
          behind := (pipeline.stagesRun surroundings config world).stages
          ahead := []
          events := (pipeline.stagesRun surroundings config world).events
          artifact
          storing := pipeline.storing } := by
      simp only [Course.after, result]
      rfl
    rw [completed, Course.finish_stores rfl] at finished
    rcases stores : storeAll surroundings (pipeline.stagesRun surroundings config world).context
      pipeline.storing (pipeline.stagesRun surroundings config world).world with ⟨error | paths, left⟩
    · rw [stores, Course.finish_clears rfl rfl rfl] at finished
      rw [← finished]
      exact ⟨execute_eq (conclude_not_stored result stores) rfl rfl rfl, rfl⟩
    · rw [stores, Course.finish_clears rfl rfl rfl] at finished
      rw [← finished]
      exact ⟨execute_eq (conclude_stored result stores) rfl rfl rfl, rfl⟩

end Pipeline

end Newsreel
