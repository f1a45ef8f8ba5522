import Newsreel.Proofs.Fetch.Credentials
import Newsreel.Proofs.Run.Ending
import Newsreel.Proofs.Run.Invariant

/-!
What whole runs see of the credentials.

Transforms and sequences see none, and a fetch sees those that it and the fetches nested in it name.
Nothing else of a run looks at the credentials, and no step changes the configuration. So a document
runs the same under any two configurations that agree on everything but credentials which none of
its fetches names.
-/

namespace Newsreel

variable {context : Context} {keys : List (String × String)} {surroundings : Surroundings}

/-! Transforms. -/

namespace Transform

theorem outcome_withKeys (chance : Chance) (key : String) (scope : Scope) (op : TransformOp) :
    outcome chance (context.withKeys keys) key scope op = outcome chance context key scope op := by
  have draws : (context.withKeys keys).draws = context.draws := rfl
  cases op <;> simp only [outcome, textAt, windDirection, chosen, draws, Context.get_withKeys,
    Context.format_withKeys, Context.formatText_withKeys]

theorem applyKey_ignores (chance : Chance) (op : TransformOp) (key target : String)
    (scope : Scope) : (applyKey chance op key target scope).Ignores (Context.withKeys keys) := by
  have draw : (countDraw op).Ignores (Context.withKeys keys) := by
    cases op <;> exact fun _ => rfl
  exact (Attempt.ignores_look fun context => outcome_withKeys chance key scope op).bind fun value =>
    Attempt.Ignores.bind (fun context => context.insert_withKeys target value scope) fun _ => draw

theorem applyKeys_ignores (chance : Chance) (spec : TransformSpec) (scope : Scope) (place : Nat)
    (names : List String) :
    (applyKeys chance spec scope place names).Ignores (Context.withKeys keys) := by
  induction names generalizing place with
  | nil => exact Attempt.ignores_pure ()
  | cons key rest ih =>
    exact ((applyKey_ignores chance _ _ _ _).annotate _).bind fun _ => ih _

theorem forEach_ignores {body : Scope → Edit Unit}
    (each : ∀ scope, (body scope).Ignores (Context.withKeys keys)) (iterations : List Iteration) :
    (forEach body iterations).Ignores (Context.withKeys keys) := by
  induction iterations with
  | nil => exact Attempt.ignores_pure ()
  | cons iteration rest ih => exact (each iteration.scope).bind fun _ => ih

mutual
/-- A transform takes no notice of credentials. -/
theorem apply_ignores (chance : Chance) (scope : Scope) : (spec : TransformSpec) →
    (apply chance scope spec).Ignores (Context.withKeys keys)
  | .mk kind names newKeys op => by
    match op with
    | .each array transformation =>
      rw [apply, applyOp]
      refine Attempt.Ignores.annotate ((Attempt.ignores_look fun context => ?_).bind
        fun iterations => ?_) _
      · exact Context.iterations_withKeys array kind.name scope
      · exact forEach_ignores (fun scope => applyAll_ignores chance scope transformation) iterations
    | .select _ =>
      rw [apply, applyOp]
      exact Attempt.ignores_pure ()
    | .unimplemented =>
      rw [apply, applyOp]
      exact fun _ => rfl
    | .addSymbol _ | .replace _ _ _ | .dateFormat _ | .dateWeekday _ | .dateNow _
    | .windDirection _ _ | .chooseRandom _ _ =>
      rw [apply_keyed rfl]
      exact applyKeys_ignores chance _ scope 0 _

theorem applyAll_ignores (chance : Chance) (scope : Scope) : (specs : List TransformSpec) →
    (applyAll chance scope specs).Ignores (Context.withKeys keys)
  | [] => by
    rw [applyAll]
    exact Attempt.ignores_pure ()
  | spec :: rest => by
    rw [applyAll]
    exact (apply_ignores chance scope spec).bind fun _ => applyAll_ignores chance scope rest
end

end Transform

/-! Sequences. -/

namespace Timeline

variable {τ : Type} (measure : String → Except StepError τ)

theorem measured_withKeys (scope : Scope) (templates : List Value) :
    measured measure (context.withKeys keys) scope templates =
      measured measure context scope templates := by
  induction templates with
  | nil => rfl
  | cons template rest ih => simp only [measured, filePath, Context.formatText_withKeys, ih]

theorem pairClips_withKeys (scope : Scope) (templates : List Value) (durations : List τ) :
    pairClips (context.withKeys keys) scope templates durations =
      pairClips context scope templates durations := by
  induction templates generalizing durations with
  | nil => rfl
  | cons template rest ih => cases durations with
    | nil => rfl
    | cons duration durations => simp only [pairClips, filePath, Context.formatText_withKeys, ih]

theorem entries_withKeys (reckoning : Reckoning τ) (scope : Scope) (spec : SequenceSpec)
    (pattern : List PatternEntry) :
    entries reckoning measure (context.withKeys keys) scope spec pattern =
      entries reckoning measure context scope spec pattern := by
  induction pattern with
  | nil => rfl
  | cons first rest ih =>
    simp only [entries, entry, namedPath, filePath, Context.formatText_withKeys,
      Context.format_withKeys, ih]

theorem build_withKeys (reckoning : Reckoning τ) (scope : Scope) (spec : SequenceSpec) :
    build reckoning measure (context.withKeys keys) scope spec =
      build reckoning measure context scope spec := by
  simp only [build, successive, measured_withKeys, pairClips_withKeys, entries_withKeys]

end Timeline

/-- A sequence takes no notice of credentials. -/
theorem Media.assemble_withKeys (surroundings : Surroundings) (scope : Scope)
    (spec : SequenceSpec) : assemble surroundings (context.withKeys keys) scope spec =
      assemble surroundings context scope spec := by
  have render (timeline : Timeline Float) :
      render surroundings (context.withKeys keys) spec timeline =
        render surroundings context spec timeline := rfl
  simp only [assemble, timeline, Timeline.build_withKeys, render]

/-! Steps. -/

namespace Action

/-- The fetches of a step, those nested in others included. -/
def fetches : Action → List FetchSpec
  | .fetch _ spec => spec.family
  | .transform _ | .transforms _ | .sequence _ => []

/-- The state of a run with other credentials. -/
def withKeys (keys : List (String × String)) (state : Context × World) : Context × World :=
  (state.1.withKeys keys, state.2)

theorem onContext_ignores {edit : Edit Unit} (ignores : edit.Ignores (Context.withKeys keys)) :
    (onContext edit).Ignores (withKeys keys) := by
  rintro ⟨context, world⟩
  simp only [onContext, Attempt.within, withKeys, ignores context]
  rfl

/-- Work on the world that is the same under other credentials. -/
theorem onWorld_withKeys {α : Type} (work : Context → Effect α)
    (same : work (context.withKeys keys) = work context) (world : World) :
    onWorld work (withKeys keys (context, world)) =
      ((onWorld work (context, world)).1, withKeys keys (onWorld work (context, world)).2) := by
  simp only [onWorld, withKeys, same]
  rfl

/-- A step does the same where the names of its fetches stand for the same. -/
theorem run_withKeys (surroundings : Surroundings) (action : Action)
    (agree : context.config.AgreesOn keys (FetchSpec.apiKeyNames action.fetches)) (scope : Scope)
    (world : World) : action.run surroundings scope (context.withKeys keys, world) =
      ((action.run surroundings scope (context, world)).1,
        withKeys keys (action.run surroundings scope (context, world)).2) := by
  have writes (path : String) (value : Value) :
      (onContext (Edit.write path value scope)).Ignores (withKeys keys) :=
    onContext_ignores fun context => context.insert_withKeys path value scope
  cases action with
  | fetch key spec =>
    have fetched := onWorld_withKeys (fun context => Fetch.run surroundings context scope spec)
      (Fetch.run_withKeys surroundings scope spec agree) world
    exact Attempt.bind_ignores_at fetched fun value =>
      ((writes key value).annotate _).bind fun _ => Attempt.ignores_pure _
  | transform spec =>
    exact (onContext_ignores (Transform.apply_ignores _ scope spec)).bind
      (fun _ => Attempt.ignores_pure _) (context, world)
  | transforms specs =>
    exact (onContext_ignores (Transform.applyAll_ignores _ scope specs)).bind
      (fun _ => Attempt.ignores_pure _) (context, world)
  | sequence spec =>
    have same : Media.assemble surroundings (context.withKeys keys) scope spec =
      Media.assemble surroundings context scope spec := Media.assemble_withKeys surroundings scope spec
    have assembled := onWorld_withKeys (fun context => Media.assemble surroundings context scope spec)
      same world
    exact Attempt.bind_ignores_at assembled fun output =>
      ((writes spec.key (.string output)).annotate _).bind fun _ => Attempt.ignores_pure _

/-- No step changes the configuration. -/
theorem run_config (surroundings : Surroundings) (action : Action) (scope : Scope)
    (config : JobConfig) : (action.run surroundings scope).Preserves fun state => state.1.config = config := by
  refine run_preserves (fun world => ⟨?_, ?_⟩) ?_ ?_ action scope
  · intro path value scope context same
    exact (context.insert_frame path value scope).1.trans same
  · exact fun context same => same
  · exact fun context scope spec world same => same
  · exact fun context scope spec world same => same

end Action

/-! Runs. -/

/-- The steps of a run under other credentials do what they did. -/
theorem runStages_withKeys (surroundings : Surroundings) (context : Context) (index : Nat)
    (artifact : Option String) (world : World) (stages : List Stage)
    (agree : ∀ stage ∈ stages,
      context.config.AgreesOn keys (FetchSpec.apiKeyNames stage.step.action.fetches)) :
    runStages surroundings index artifact (context.withKeys keys) world stages =
      { runStages surroundings index artifact context world stages with
        context := (runStages surroundings index artifact context world stages).context.withKeys
          keys } := by
  induction stages generalizing context index artifact world with
  | nil => rfl
  | cons stage rest ih =>
    have first := stage.step.action.run_withKeys surroundings (agree stage List.mem_cons_self)
      Scope.root world
    have kept := stage.step.action.run_config surroundings Scope.root context.config
      (context, world) rfl
    rcases ran : stage.step.action.run surroundings Scope.root (context, world) with
      ⟨error | path, between, worldBetween⟩
    · rw [ran] at first
      simp only [runStages, first, ran, Action.withKeys]
    · rw [ran] at first kept
      have later := ih between (index + 1) (path.or artifact) worldBetween fun stage member => by
        rw [show between.config = context.config from kept]
        exact agree stage (List.mem_cons_of_mem _ member)
      simp only [runStages, first, ran, Action.withKeys, later]

theorem storeAll_withKeys (surroundings : Surroundings) (entries : List Storing) :
    storeAll surroundings (context.withKeys keys) entries =
      storeAll surroundings context entries := by
  induction entries with
  | nil => rfl
  | cons entry rest ih =>
    simp only [storeAll, Context.get_withKeys, ih]
    rfl

theorem conclude_withKeys (surroundings : Surroundings) (storing : List Storing)
    (steps : StagesRun) :
    conclude surroundings storing { steps with context := steps.context.withKeys keys } =
      conclude surroundings storing steps := by
  have clears (world : World) :
      removeTemp (steps.context.withKeys keys) world = removeTemp steps.context world := rfl
  simp only [conclude, storeAll_withKeys, clears]

namespace Pipeline

/-- The fetches of all steps, those nested in others included. -/
def fetches (pipeline : Pipeline) : List FetchSpec :=
  pipeline.stages.flatMap fun stage => stage.step.action.fetches

/-- The steps of a pipeline are what they were when its run begins. -/
theorem fetches_of_begun {pipeline : Pipeline} {stage : Stage}
    (member : stage ∈ (pipeline.begun surroundings).stages) :
    ∀ spec ∈ stage.step.action.fetches, spec ∈ pipeline.fetches := by
  intro spec nested
  have same : stage.step ∈ pipeline.steps := by
    rw [← pipeline.steps_begun surroundings]
    exact List.mem_map_of_mem member
  obtain ⟨before, present, unchanged⟩ := List.mem_map.mp same
  exact List.mem_flatMap.mpr ⟨before, present, unchanged ▸ nested⟩

/-- A run is the same where the names of its fetches stand for the same. -/
theorem execute_withKeys (surroundings : Surroundings) {config : JobConfig} {pipeline : Pipeline}
    (agree : config.AgreesOn keys (FetchSpec.apiKeyNames pipeline.fetches)) (world : World) :
    pipeline.execute surroundings (config.withKeys keys) world =
      pipeline.execute surroundings config world := by
  have each (stage : Stage) (member : stage ∈ (pipeline.begun surroundings).stages) :
      config.AgreesOn keys (FetchSpec.apiKeyNames stage.step.action.fetches) := by
    intro name named
    obtain ⟨spec, nested, own⟩ := List.mem_filterMap.mp named
    exact agree name (List.mem_filterMap.mpr ⟨spec, fetches_of_begun member spec nested, own⟩)
  have starts (runId : String) : Context.start (config.withKeys keys) runId =
      (Context.start config runId).withKeys keys := rfl
  have ran := runStages_withKeys surroundings
    (Context.start config (pipeline.begun surroundings).run.runId) 0 none world _ each
  rw [begun] at ran
  simp only [execute, starts, ran, conclude_withKeys]
  rfl

end Pipeline

/-- What sees nothing of the credentials, wherever in a run it is done: reading, in the
configuration as elsewhere, transforms, sequences, and fetches that name no credential. A fetch
without a name does not see the one that the fetch around it names. -/
structure Context.HidesKeys (surroundings : Surroundings) (context : Context)
    (keys : List (String × String)) (scope : Scope) : Prop where
  paths (path : String) : (context.withKeys keys).get path scope = context.get path scope
  transforms (spec : TransformSpec) :
    Transform.apply surroundings.chance scope spec (context.withKeys keys) =
      ((Transform.apply surroundings.chance scope spec context).1,
        (Transform.apply surroundings.chance scope spec context).2.withKeys keys)
  sequences (spec : SequenceSpec) : Media.assemble surroundings (context.withKeys keys) scope spec =
    Media.assemble surroundings context scope spec
  nameless (kind : FetchKind) (name : String) (variant : FetchVariant)
    (agree : context.config.AgreesOn keys (FetchSpec.apiKeyNames variant.nested)) :
    Fetch.run surroundings (context.withKeys keys) scope (.mk kind name none variant) =
      Fetch.run surroundings context scope (.mk kind name none variant)

theorem Context.hidesKeys (surroundings : Surroundings) (context : Context)
    (keys : List (String × String)) (scope : Scope) :
    context.HidesKeys surroundings keys scope where
  paths path := context.get_withKeys path scope
  transforms spec := Transform.apply_ignores _ scope spec context
  sequences spec := Media.assemble_withKeys surroundings scope spec
  nameless kind name variant agree := by
    refine Fetch.run_withKeys surroundings scope _ ?_
    rw [FetchSpec.apiKeyNames_family]
    exact agree

namespace Document

variable {table : DispatchTable} {config other : JobConfig} {document : Document}

/-- Compiles a document and runs it. -/
def execute (table : DispatchTable) (surroundings : Surroundings) (config : JobConfig)
    (runId : String) (document : Document) (world : World) : Except StepError Execution := do
  let pipeline ← Pipeline.compile table runId document
  return pipeline.execute surroundings config world

/-- The names of credentials that the fetches of a document give as their own, at any depth. -/
def apiKeyNames (table : DispatchTable) (document : Document) : List String :=
  match Pipeline.compileSteps table 0 document.steps with
  | .error _ => []
  | .ok steps => FetchSpec.apiKeyNames (steps.flatMap fun step => step.action.fetches)

theorem apiKeyNames_of_compile {runId : String} {pipeline : Pipeline}
    (compiled : Pipeline.compile table runId document = .ok pipeline) :
    FetchSpec.apiKeyNames pipeline.fetches = document.apiKeyNames table := by
  obtain ⟨steps, success, made⟩ := Outcome.bind_ok_iff.mp compiled
  cases made
  simp only [Pipeline.fetches, List.flatMap_map, apiKeyNames, success]

/-- A document runs the same under two configurations that agree on everything but credentials that
none of its fetches names: it sends the same requests, starts the encoder in the same way, stores
the same snapshots and ends the same. -/
theorem execute_unnamed_keys (surroundings : Surroundings)
    (same : { other with apiKeys := config.apiKeys } = config)
    (agree : ∀ name ∈ document.apiKeyNames table, other.apiKey? name = config.apiKey? name)
    (runId : String) (world : World) :
    document.execute table surroundings other runId world =
        document.execute table surroundings config runId world ∧
      ∀ (context : Context) (scope : Scope),
        context.HidesKeys surroundings other.apiKeys scope := by
  have changed : other = config.withKeys other.apiKeys := by rw [← same]; rfl
  refine ⟨?_, fun context scope => context.hidesKeys surroundings other.apiKeys scope⟩
  rcases compiled : Pipeline.compile table runId document with error | pipeline
  · simp only [execute, compiled]
    rfl
  · have named : config.AgreesOn other.apiKeys (FetchSpec.apiKeyNames pipeline.fetches) := by
      rw [apiKeyNames_of_compile compiled]
      intro name mentioned
      rw [← changed]
      exact agree name mentioned
    have ran := Pipeline.execute_withKeys surroundings named world
    rw [← changed] at ran
    simp only [execute, compiled]
    exact congrArg Except.ok ran

/-- Takes a snapshot or asks a server, with a credential that only the request names. -/
def sunNews : Document where
  name := "news"
  description := none
  storing := []
  steps := [{
    type := "request_memory"
    params := [("alternative", .object [("type", .string "request"),
      ("api_key_name", .string "sky"),
      ("url_pattern", .string "http://weather.test/?key=\x7b_api_key\x7d")])] }]

/-- A configuration with credentials for two servers. -/
def twoKeys (wind : String) : JobConfig :=
  { JobConfig.named "news" with apiKeys := [("wind", wind), ("sky", "rain")] }

theorem execute_unnamed_keys_sunNews :
    { twoKeys "calm" with apiKeys := (twoKeys "storm").apiKeys } = twoKeys "storm" ∧
      sunNews.apiKeyNames .builtin = ["sky"] ∧
      sunNews.execute .builtin Action.offline (twoKeys "calm") "run" {} =
        sunNews.execute .builtin Action.offline (twoKeys "storm") "run" {} ∧
      ∀ (context : Context) (scope : Scope),
        context.HidesKeys Action.offline (twoKeys "calm").apiKeys scope := by
  have named : sunNews.apiKeyNames .builtin = ["sky"] := rfl
  have agree : ∀ name ∈ sunNews.apiKeyNames .builtin,
      (twoKeys "calm").apiKey? name = (twoKeys "storm").apiKey? name := by
    rw [named]
    decide
  exact ⟨rfl, named, execute_unnamed_keys Action.offline rfl agree "run" {}⟩

end Document

end Newsreel
