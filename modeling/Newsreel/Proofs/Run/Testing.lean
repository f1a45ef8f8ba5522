import Newsreel.Proofs.Fetch.Snapshots
import Newsreel.Proofs.Run.Touched

/-!
Testing mode.

Whatever would be asked of a server is read from a fixture, and of the fetches nested in a fetch only
alternatives to snapshots are left. So a fetch changes nothing and a run sends nothing: what requests
say does not matter, nor what servers would answer.
-/

namespace Newsreel

/-! What is left of a fetch. -/

/-- A server is asked for the value. -/
def FetchVariant.asksServer : FetchVariant → Bool
  | .request _ | .multiple _ _ _ | .multipleCustom _ _ => true
  | .input _ | .memory _ _ _ => false

namespace FetchSpec

/-- The fetch without all that is said about its requests. -/
def bare : FetchSpec → FetchSpec
  | .mk kind name apiKeyName (.input input) => .mk kind name apiKeyName (.input input)
  | .mk kind name _ (.memory useLast timedelta none) =>
    .mk kind name none (.memory useLast timedelta none)
  | .mk kind name _ (.memory useLast timedelta (some alternative)) =>
    .mk kind name none (.memory useLast timedelta (some alternative.bare))
  | .mk kind name _ _ => .mk kind name none (.multipleCustom [] none)

/-- Induction from a snapshot's alternative to the snapshot. -/
theorem alternatives {motive : FetchSpec → Prop}
    (asks : ∀ kind name apiKeyName variant, variant.asksServer = true →
      motive (.mk kind name apiKeyName variant))
    (input : ∀ kind name apiKeyName input, motive (.mk kind name apiKeyName (.input input)))
    (alone : ∀ kind name apiKeyName useLast timedelta,
      motive (.mk kind name apiKeyName (.memory useLast timedelta none)))
    (further : ∀ kind name apiKeyName useLast timedelta alternative, motive alternative →
      motive (.mk kind name apiKeyName (.memory useLast timedelta (some alternative)))) :
    (spec : FetchSpec) → motive spec
  | .mk kind name apiKeyName (.request _) => asks kind name apiKeyName _ rfl
  | .mk kind name apiKeyName (.multiple _ _ _) => asks kind name apiKeyName _ rfl
  | .mk kind name apiKeyName (.multipleCustom _ _) => asks kind name apiKeyName _ rfl
  | .mk kind name apiKeyName (.input value) => input kind name apiKeyName value
  | .mk kind name apiKeyName (.memory useLast timedelta none) =>
    alone kind name apiKeyName useLast timedelta
  | .mk kind name apiKeyName (.memory useLast timedelta (some alternative)) =>
    further kind name apiKeyName useLast timedelta alternative
      (alternatives asks input alone further alternative)

theorem bare_of_asks {kind : FetchKind} {name : String} {apiKeyName : Option String}
    {variant : FetchVariant} (asks : variant.asksServer = true) :
    bare (.mk kind name apiKeyName variant) = .mk kind name none (.multipleCustom [] none) := by
  cases variant with
  | request request => rfl
  | multiple request stepsValue useLoopAsKey => rfl
  | multipleCustom requests keys => rfl
  | input input => cases asks
  | memory useLast timedelta alternative => cases asks

/-- A failure told by the fetches around the one that failed, the outermost one first. -/
def told (around : List FetchSpec) (error : StepError) : StepError :=
  around.foldr (fun outer inside => .fetch outer.kind outer.name inside) error

end FetchSpec

namespace Fetch

variable {surroundings : Surroundings} {context : Context} {scope : Scope} {world : World}

/-- The fetches that a fetch goes through in a world, for want of one snapshot after the other, until
it comes to the last one given. -/
inductive GivesWay (surroundings : Surroundings) (context : Context) (world : World) :
    FetchSpec → List FetchSpec → FetchSpec → Prop
  | itself (spec : FetchSpec) : GivesWay surroundings context world spec [] spec
  | further {kind : FetchKind} {name : String} {apiKeyName : Option String} {useLast : Nat}
      {timedelta : Option Float} {alternative last : FetchSpec} {around : List FetchSpec}
      {miss : StepError}
      (missed : (remembered surroundings context.config name useLast timedelta world).1 =
        .error miss)
      (isMiss : miss.isCacheMiss = true)
      (rest : GivesWay surroundings context world alternative around last) :
      GivesWay surroundings context world
        (.mk kind name apiKeyName (.memory useLast timedelta (some alternative)))
        (.mk kind name apiKeyName (.memory useLast timedelta (some alternative)) :: around) last

theorem remembered_snd (config : JobConfig) (name : String) (useLast : Nat)
    (timedelta : Option Float) :
    (remembered surroundings config name useLast timedelta world).2 = world := by
  have keeps : (remembered surroundings config name useLast timedelta).Preserves (· = world) :=
    remembered_preserves config name useLast timedelta
  exact keeps world rfl

theorem run_fst (kind : FetchKind) (name : String) (apiKeyName : Option String)
    (variant : FetchVariant) :
    (run surroundings context scope (.mk kind name apiKeyName variant) world).1 =
      (runVariant surroundings context scope name apiKeyName variant world).1.mapError
        (.fetch kind name) := by
  rw [run, Attempt.annotate_run]

/-- A snapshot that is missing: the outcome is that of the alternative, told by the fetch. -/
theorem run_fst_of_miss {kind : FetchKind} {name : String} {apiKeyName : Option String}
    {useLast : Nat} {timedelta : Option Float} {alternative : FetchSpec} {miss : StepError}
    (missed : (remembered surroundings context.config name useLast timedelta world).1 =
      .error miss) (isMiss : miss.isCacheMiss = true) :
    (run surroundings context scope
        (.mk kind name apiKeyName (.memory useLast timedelta (some alternative))) world).1 =
      (run surroundings context scope alternative world).1.mapError (.fetch kind name) := by
  have went : remembered surroundings context.config name useLast timedelta world =
      (.error miss, world) := Prod.ext missed (remembered_snd _ _ _ _)
  rw [run_fst, runVariant]
  simp only [went, isMiss, if_true, runAlternative]

/-- The outcome is that of the last fetch, and a failure tells of all before it. -/
theorem GivesWay.run_fst {spec last : FetchSpec} {around : List FetchSpec}
    (gives : GivesWay surroundings context world spec around last) :
    (run surroundings context scope spec world).1 =
      (run surroundings context scope last world).1.mapError (FetchSpec.told around) := by
  induction gives with
  | itself spec =>
    rcases (run surroundings context scope spec world).1 with error | value <;> rfl
  | further missed isMiss rest ih =>
    rw [run_fst_of_miss missed isMiss, ih]
    rcases (run surroundings context scope _ world).1 with error | value <;> rfl

section Testing

variable (testing : context.config.testing = true)

include testing

theorem runVariant_testing {variant : FetchVariant} (asks : variant.asksServer = true)
    (name : String) (apiKeyName : Option String) :
    runVariant surroundings context scope name apiKeyName variant =
      fixture context.config name := by
  cases variant with
  | request request => rw [runVariant, unlessTesting, if_pos testing]
  | multiple request stepsValue useLoopAsKey => rw [runVariant, unlessTesting, if_pos testing]
  | multipleCustom requests keys =>
    cases keys <;> rw [runVariant, unlessTesting, if_pos testing]
  | input input => cases asks
  | memory useLast timedelta alternative => cases asks

theorem run_testing {variant : FetchVariant} (asks : variant.asksServer = true) (kind : FetchKind)
    (name : String) (apiKeyName : Option String) :
    run surroundings context scope (.mk kind name apiKeyName variant) =
      Attempt.annotate (.fetch kind name) (fixture context.config name) := by
  rw [run, runVariant_testing testing asks]

/-- What is left of a fetch does what the fetch does, whatever servers would answer. -/
theorem run_bare (network : Web.Network) (spec : FetchSpec) :
    run { surroundings with network } context scope spec.bare =
      run surroundings context scope spec := by
  -- Along alternatives only: the fixture stands for all that is nested in a fetch of several requests.
  induction spec using FetchSpec.alternatives with
  | asks kind name apiKeyName variant asks =>
    rw [FetchSpec.bare_of_asks asks, run_testing testing rfl, run_testing testing asks]
  | input kind name apiKeyName input =>
    rw [FetchSpec.bare, run, run, runVariant, runVariant]
  | alone kind name apiKeyName useLast timedelta =>
    rw [FetchSpec.bare, run, run, runVariant_memory_eq, runVariant_memory_eq]
    rfl
  | further kind name apiKeyName useLast timedelta alternative ih =>
    rw [FetchSpec.bare, run, run, runVariant_memory_eq, runVariant_memory_eq]
    simp only [runAlternative, ih]
    rfl

theorem run_snd (spec : FetchSpec) : (run surroundings context scope spec world).2 = world := by
  have keeps : (run surroundings context scope spec).Preserves (· = world) := by
    induction spec using FetchSpec.alternatives with
    | asks kind name apiKeyName variant asks =>
      rw [run_testing testing asks]
      exact (readValue_preserves _).annotate _
    | input kind name apiKeyName input =>
      rw [run, runVariant]
      exact (Attempt.preserves_ofExcept _).annotate _
    | alone kind name apiKeyName useLast timedelta =>
      rw [run, runVariant_memory_eq]
      refine ((remembered_preserves _ _ _ _).recover fun error => ?_).annotate _
      rw [runAlternative, ite_self]
      exact Attempt.preserves_throw _
    | further kind name apiKeyName useLast timedelta alternative ih =>
      rw [run, runVariant_memory_eq]
      refine ((remembered_preserves _ _ _ _).recover fun error => ?_).annotate _
      split
      · rw [runAlternative]
        exact ih
      · exact Attempt.preserves_throw _
  exact keeps world rfl

end Testing

/-- In testing mode a fetch sends nothing and leaves everything as it is. What would be asked of a
server is what a fixture holds, whichever fetch asks in the end, and neither what servers would
answer nor what is said about requests makes a difference. -/
theorem run_reads_fixtures (testing : context.config.testing = true) (surroundings : Surroundings)
    (scope : Scope) (spec : FetchSpec) (world : World) :
    (run surroundings context scope spec world).2 = world ∧
      (∀ around last, GivesWay surroundings context world spec around last →
        last.variant.asksServer = true →
          (run surroundings context scope spec world).1 =
            (fixture context.config last.name world).1.mapError
              (FetchSpec.told (around ++ [last]))) ∧
      ∀ network other, other.bare = spec.bare →
        run { surroundings with network } context scope other =
          run surroundings context scope spec := by
  refine ⟨run_snd testing spec, ?_, fun network other same => ?_⟩
  · rintro around ⟨kind, name, apiKeyName, variant⟩ gives asks
    have own : variant.asksServer = true := asks
    rw [gives.run_fst, run_fst, runVariant_testing testing own, FetchSpec.name]
    rcases (fixture context.config name world).1 with error | value
    · simp only [Except.mapError, FetchSpec.told, List.foldr_append, List.foldr_cons, List.foldr_nil,
        FetchSpec.kind, FetchSpec.name]
    · rfl
  · calc run { surroundings with network } context scope other
        = run surroundings context scope other.bare :=
          (run_bare testing surroundings.network other).symm
      _ = run surroundings context scope spec.bare := by rw [same]
      _ = run surroundings context scope spec := run_bare testing surroundings.network spec

/-- The sky as it was before, and if it is not known, as a server tells it. -/
def skyOf (request : RequestSpec) : FetchSpec :=
  .mk .memory "sky" none
    (.memory 1 none (some (.mk .request "sun" (some "weather") (.request request))))

/-- A request for the sky of a place. -/
def askSky (place : String) : RequestSpec where
  urlPattern := "http://sky.example/" ++ place
  method := .string "get"
  headers := none
  body := none
  bodyType := .string "json"
  bodyEncoding := none
  params := none
  paramsArray := []
  responseFormat := .string "json"
  includeHeaders := false

/-- A context in testing mode. -/
def rehearsal : Context :=
  Context.start { JobConfig.named "news" with testing := true, fixturesPath := "examples" } "run"

/-- What is there for the rehearsal: a fixture for the sun. -/
def props : World := { files := Files.Tree.withFile {} "examples/sun.json" "\"bright\"" }

/-- Servers that answer everything. -/
def agreeable : Web.Network := fun _ _ => .ok ⟨200, [], []⟩

theorem run_reads_fixtures_sky :
    rehearsal.config.testing = true ∧
      (run Action.offline rehearsal Scope.root (skyOf (askSky "rome")) props).2 = props ∧
      (run Action.offline rehearsal Scope.root (skyOf (askSky "rome")) props).1 =
        (fixture rehearsal.config "sun" props).1.mapError
          (FetchSpec.told [skyOf (askSky "rome"),
            .mk .request "sun" (some "weather") (.request (askSky "rome"))]) ∧
      (fixture rehearsal.config "sun" props).1.toOption.map Json.compact = some "\"bright\"" ∧
      run { Action.offline with network := agreeable } rehearsal Scope.root (skyOf (askSky "oslo")) =
        run Action.offline rehearsal Scope.root (skyOf (askSky "rome")) := by
  have testing : rehearsal.config.testing = true := rfl
  obtain ⟨leaves, reads, same⟩ :=
    run_reads_fixtures testing Action.offline Scope.root (skyOf (askSky "rome")) props
  have missing : props.files.list
      (Snapshots.directory ⟨rehearsal.config.memoryPath⟩ rehearsal.config.jobName "sky") =
        .error .notFound := by
    decide +kernel
  have missed : (remembered Action.offline rehearsal.config "sky" 1 none props).1 =
      .error (.cacheMiss "news/sky") :=
    congrArg Prod.fst (Snapshots.readLast_missing missing 1)
  have read : (fixture rehearsal.config "sun" props).1.toOption.map Json.compact =
      some "\"bright\"" := by
    decide +kernel
  have bare (place : String) : (skyOf (askSky place)).bare = .mk .memory "sky" none
      (.memory 1 none (some (.mk .request "sun" none (.multipleCustom [] none)))) := by
    rw [skyOf, FetchSpec.bare, FetchSpec.bare_of_asks rfl]
  have gives : GivesWay Action.offline rehearsal props (skyOf (askSky "rome"))
      [skyOf (askSky "rome")] (.mk .request "sun" (some "weather") (.request (askSky "rome"))) :=
    .further missed rfl (.itself _)
  have found := reads _ _ gives rfl
  rw [FetchSpec.name, List.singleton_append] at found
  exact ⟨testing, leaves, found, read,
    same agreeable _ ((bare "oslo").trans (bare "rome").symm)⟩

end Fetch

/-! Whole runs. -/

/-- In testing mode a whole run sends nothing. -/
theorem Pipeline.execute_exchanges {config : JobConfig} (testing : config.testing = true)
    (surroundings : Surroundings) (pipeline : Pipeline) (world : World) :
    (pipeline.execute surroundings config world).world.exchanges = world.exchanges := by
  let silent (after : World) : Prop := after.exchanges = world.exchanges
  let invariant (state : Context × World) : Prop := state.1.config = config ∧ silent state.2
  have onFiles {α : Type} (work : Files.Work α) : (Effect.onFiles work).Preserves silent := by
    intro before holds
    rw [Effect.onFiles_snd]
    exact holds
  have sequences (context : Context) (scope : Scope) (spec : SequenceSpec) :
      (Media.assemble surroundings context scope spec).Preserves silent := by
    refine Media.assemble_holds (Effect.composes_preserves silent) ?_ scope spec
    exact {
      lays := fun _ _ => Attempt.preserves_ofExcept _
      makesTemp := onFiles _
      makesOutput := fun _ => onFiles _
      writesList := fun _ => onFiles _
      joins := fun _ holds => holds
      shows := fun _ _ _ _ _ holds => holds }
  have steps (action : Action) : (action.run surroundings Scope.root).Preserves invariant := by
    refine Action.run_preserves (fun _ => ⟨?_, fun _ holds => holds⟩) ?_ ?_ action Scope.root
    · rintro path value scope context ⟨same, holds⟩
      exact ⟨(Context.insert_frame context path value scope).1.trans same, holds⟩
    · rintro context scope spec before ⟨same, holds⟩
      have own : context.config.testing = true := (congrArg JobConfig.testing same).trans testing
      exact ⟨same, (congrArg World.exchanges (Fetch.run_snd own spec)).trans holds⟩
    · rintro context scope spec before ⟨same, holds⟩
      exact ⟨same, sequences context scope spec before holds⟩
  have stores (context : Context) (entry : Storing) :
      (entry.store surroundings context).Preserves fun after => invariant (context, after) :=
    fun before ⟨same, holds⟩ =>
      ⟨same, Storing.store_preserves (onFiles _) (fun _ => onFiles _) before holds⟩
  have start : invariant (pipeline.beginning surroundings config world) := ⟨rfl, rfl⟩
  obtain ⟨state, ⟨-, holds⟩, left⟩ :=
    execute_left steps (fun context entry _ => stores context entry) start
  rw [left]
  exact onFiles _ state.2 holds

end Newsreel
