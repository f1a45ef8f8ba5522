import Newsreel.Proofs.Document.Types
import Newsreel.Proofs.Run.Ending
import Newsreel.Proofs.Run.Failures
import Newsreel.Proofs.Transform.Layers

/-!
What stops a run that has begun.

Files, servers, values and the encoder stop runs; an unknown type or parameters of the wrong shape
do not, whatever the steps are. The encoder is a parameter of a run, and what is said about a run
depends on what the encoder reports itself.
-/

namespace Newsreel

open Outcome

namespace Attempt

variable {σ α β : Type} {work : Attempt σ α} {next : α → Attempt σ β}

/-- What stops the work, if anything does, is no fault of the document. -/
def AtRuntime (work : Attempt σ α) : Prop := ∀ state, Outcome.AtRuntime (work state).1

theorem atRuntime_ofExcept {outcome : Except StepError α} (cause : Outcome.AtRuntime outcome) :
    AtRuntime (ofExcept outcome : Attempt σ α) := fun _ => cause

theorem atRuntime_pure (a : α) : AtRuntime (pure a : Attempt σ α) := fun _ => atRuntime_ok a

theorem atRuntime_throw {error : StepError} (cause : error.isOfDocument = false) :
    AtRuntime (throw error : Attempt σ α) := fun _ => atRuntime_error cause

theorem AtRuntime.bind (first : work.AtRuntime) (later : ∀ a, (next a).AtRuntime) :
    (work >>= next).AtRuntime := FailsAs.bind first later

theorem AtRuntime.annotate (inside : work.AtRuntime) {layer : StepError → StepError}
    (outermost : ∀ error, (layer error).root = error.root) : (annotate layer work).AtRuntime := by
  intro state error failed
  obtain ⟨source, stopped, rfl⟩ := annotate_error_iff.mp (Prod.ext failed rfl)
  rw [StepError.isOfDocument_congr (outermost source)]
  exact inside state source (congrArg Prod.fst stopped)

theorem AtRuntime.within {τ : Type} (inside : work.AtRuntime) (get : τ → σ) (put : τ → σ → τ) :
    (within get put work).AtRuntime := FailsAs.within inside get put

theorem AtRuntime.recover {next : StepError → Attempt σ α} (first : work.AtRuntime)
    (later : ∀ error, error.isOfDocument = false → (next error).AtRuntime) :
    (tryCatch work next).AtRuntime := by
  intro state
  have cause := first state
  rcases ran : work state with ⟨error | a, after⟩
  · rw [ran] at cause
    rw [tryCatch_run_error ran]
    exact later error (cause error rfl) after
  · rw [tryCatch_run_ok ran]
    exact atRuntime_ok a

end Attempt

open Attempt

/-! Transforms. -/

namespace Transform

variable (chance : Chance) (scope : Scope)

theorem write_atRuntime (path : String) (value : Value) : (Edit.write path value scope).AtRuntime :=
  fun context => (write_bare path value scope context).atRuntime

/-- No transform fails for a fault of the document. -/
theorem apply_atRuntime (spec : TransformSpec) : (apply chance scope spec).AtRuntime := by
  intro context error failed
  obtain ⟨chain, cause, fails, rfl⟩ := fails_of_error (Prod.ext failed rfl)
  rw [StepError.isOfDocument_congr (Link.root_told chain cause)]
  exact StepError.isOfDocument_of_isBare fails.isBare

theorem applyAll_atRuntime (specs : List TransformSpec) :
    (applyAll chance scope specs).AtRuntime := by
  induction specs with
  | nil =>
    rw [applyAll]
    exact atRuntime_pure ()
  | cons spec rest ih =>
    rw [applyAll]
    exact (apply_atRuntime chance scope spec).bind fun _ => ih

end Transform

/-! Fetches. -/

theorem Effect.composes_atRuntime : Composes fun work => work.AtRuntime where
  ofExcept bare := atRuntime_ofExcept bare.atRuntime
  bind := AtRuntime.bind
  annotate outermost inside := inside.annotate outermost
  recover first later := first.recover fun error cause => later error (atRuntime_throw cause)

theorem Effect.onFiles_atRuntime {α : Type} (work : Files.Work α) : (onFiles work).AtRuntime :=
  onFiles_failsAs (fun _ => StepError.isOfDocument_of_isBare) work

/-- No fetch fails for a fault of the document. -/
theorem Fetch.run_atRuntime (surroundings : Surroundings) (context : Context) (scope : Scope)
    (spec : FetchSpec) : (run surroundings context scope spec).AtRuntime :=
  run_holds Effect.composes_atRuntime
    (pieces_failsAs (fun _ => StepError.isOfDocument_of_isBare) surroundings context.config _) spec
    (List.Subset.refl _)

/-! Sequences. -/

/-- What an encoder reports is never a fault of the document that is run. -/
structure Encoder.ReportsNoDocument (encoder : Encoder) : Prop where
  measuring : ∀ path, Outcome.AtRuntime (encoder.audioDuration path)
  running : ∀ before call, Outcome.AtRuntime (encoder.run before call)

theorem Programs.encoder_reportsNoDocument (programs : Programs) :
    programs.encoder.ReportsNoDocument where
  measuring := programs.audioDuration_failsAs fun _ => StepError.isOfDocument_of_isBare
  running := programs.encode_failsAs fun _ => StepError.isOfDocument_of_isBare

section Encoder

variable {surroundings : Surroundings} (reports : surroundings.encoder.ReportsNoDocument)

include reports

/-- No sequence fails for a fault of the document. -/
theorem Media.assemble_atRuntime (context : Context) (scope : Scope) (spec : SequenceSpec) :
    (assemble surroundings context scope spec).AtRuntime :=
  assemble_holds Effect.composes_atRuntime
    (pieces_failsAs (fun _ => StepError.isOfDocument_of_isBare) reports.measuring reports.running
      context) scope spec

/-! Steps and runs. -/

namespace Action

omit reports in
theorem onContext_atRuntime {α : Type} {edit : Edit α} (cause : edit.AtRuntime) :
    (onContext edit).AtRuntime := cause.within _ _

omit reports in
theorem onWorld_atRuntime {α : Type} {work : Context → Effect α}
    (cause : ∀ context, (work context).AtRuntime) : (onWorld work).AtRuntime :=
  fun state => cause state.1 state.2

theorem run_atRuntime (scope : Scope) (action : Action) :
    (action.run surroundings scope).AtRuntime := by
  have writes (path : String) (value : Value) :
      (onContext (Edit.write path value scope)).AtRuntime :=
    onContext_atRuntime (Transform.write_atRuntime scope path value)
  have fetchLayer (kind : FetchKind) (name : String) (error : StepError) :
      (StepError.fetch kind name error).root = error.root := rfl
  have sequenceLayer (kind : SequenceKind) (error : StepError) :
      (StepError.sequence kind error).root = error.root := rfl
  cases action with
  | fetch key spec =>
    rw [run]
    exact (onWorld_atRuntime fun context =>
      Fetch.run_atRuntime surroundings context scope spec).bind fun value =>
        ((writes key value).annotate (fetchLayer _ _)).bind fun _ => atRuntime_pure _
  | transform spec =>
    rw [run]
    exact (onContext_atRuntime (Transform.apply_atRuntime _ scope spec)).bind
      fun _ => atRuntime_pure _
  | transforms specs =>
    rw [run]
    exact (onContext_atRuntime (Transform.applyAll_atRuntime _ scope specs)).bind
      fun _ => atRuntime_pure _
  | sequence spec =>
    rw [run]
    exact (onWorld_atRuntime fun context =>
      Media.assemble_atRuntime reports context scope spec).bind fun output =>
        ((writes spec.key _).annotate (sequenceLayer _)).bind fun _ => atRuntime_pure _

end Action

theorem runStages_atRuntime (stages : List Stage) (index : Nat) (artifact : Option String)
    (context : Context) (world : World) :
    Outcome.AtRuntime (runStages surroundings index artifact context world stages).result := by
  induction stages generalizing index artifact context world with
  | nil => exact atRuntime_ok artifact
  | cons stage rest ih =>
    have cause := Action.run_atRuntime reports Scope.root stage.step.action (context, world)
    rcases ran : stage.step.action.run surroundings Scope.root (context, world) with
      ⟨error | path, later, left⟩
    · rw [ran] at cause
      simp only [runStages, ran]
      exact cause
    · simp only [runStages, ran]
      exact ih _ _ _ _

omit reports in
variable (surroundings) in
theorem storeAll_atRuntime (context : Context) (storing : List Storing) :
    (storeAll surroundings context storing).AtRuntime := by
  induction storing with
  | nil => exact atRuntime_pure []
  | cons entry rest ih =>
    refine (atRuntime_ofExcept (context.get_bare _ _).atRuntime).bind fun value => ?_
    have stores : (Snapshots.store ⟨context.config.memoryPath⟩ context.config.jobName entry.name
        value surroundings.now).AtRuntime :=
      (Effect.onFiles_atRuntime _).bind fun _ =>
        (Effect.onFiles_atRuntime _).bind fun _ => atRuntime_pure _
    exact stores.bind fun _ => ih.bind fun _ => atRuntime_pure _

/-- A run that has begun never ends for a fault of its document. -/
theorem Pipeline.execute_atRuntime (config : JobConfig) (pipeline : Pipeline) (world : World) :
    Outcome.AtRuntime (pipeline.execute surroundings config world).result := by
  let ran := runStages surroundings 0 none (pipeline.beginning surroundings config world).1 world
    (pipeline.begun surroundings).stages
  have steps : Outcome.AtRuntime ran.result := runStages_atRuntime reports _ _ _ _ _
  have ending : Outcome.AtRuntime (conclude surroundings pipeline.storing ran).1 := by
    have stores := storeAll_atRuntime surroundings ran.context pipeline.storing ran.world
    rw [conclude]
    split
    · next error stopped => exact atRuntime_error (steps error stopped)
    · split
      · exact atRuntime_ok _
      · next error after failed => exact atRuntime_error (stores error (congrArg Prod.fst failed))
  rcases ended : conclude surroundings pipeline.storing ran with ⟨error | stored, after⟩
  · rw [(execute_error rfl ended).1]
    rw [ended] at ending
    exact atRuntime_error (ending error rfl)
  · obtain ⟨⟨report, completed, -⟩, -⟩ := execute_ok rfl ended
    rw [completed]
    exact atRuntime_ok report

end Encoder

namespace Pipeline

/-- A document that is compiled states only types that are known where they stand, at any depth.
After that no run of it, nor any step, fetch, transform or sequence on its own, fails for an unknown
type or for parameters of the wrong shape, unless the encoder says so itself. The programs of a
machine never do. -/
theorem compile_finds_types {table : DispatchTable} {runId : String} {document : Document}
    {pipeline : Pipeline} (compiled : compile table runId document = .ok pipeline) :
    (∀ registry value, document.Writes table registry value →
      ∃ name, value.statedType? registry = some name ∧ table.Registers name registry) ∧
    (∀ surroundings : Surroundings, surroundings.encoder.ReportsNoDocument →
      (∀ config world, Outcome.AtRuntime (pipeline.execute surroundings config world).result) ∧
      (∀ step ∈ pipeline.steps, ∀ scope, (step.action.run surroundings scope).AtRuntime) ∧
      (∀ context scope spec, (Fetch.run surroundings context scope spec).AtRuntime) ∧
      (∀ scope spec, (Transform.apply surroundings.chance scope spec).AtRuntime) ∧
      ∀ context scope spec, (Media.assemble surroundings context scope spec).AtRuntime) ∧
    ∀ programs : Programs, programs.encoder.ReportsNoDocument := by
  refine ⟨fun registry value written => (written.compiles compiled).registers, ?_,
    Programs.encoder_reportsNoDocument⟩
  intro surroundings reports
  exact ⟨fun config world => pipeline.execute_atRuntime reports config world,
    fun step _ scope => Action.run_atRuntime reports scope step.action,
    Fetch.run_atRuntime surroundings,
    Transform.apply_atRuntime surroundings.chance,
    Media.assemble_atRuntime reports⟩

/-- A transform two lists deep. -/
def innerSymbol : Value :=
  .object [("type", .string "add_symbol"), ("key", .string "_loop"), ("pattern", .string "sun")]

/-- A loop over a transform. -/
def loopOver (inner : Value) : Value :=
  .object [("type", .string "loop"), ("values", .string "days"), ("transformation", .array [inner])]

def innerInput : Value := .object [("type", .string "input"), ("input", .string "rain")]

/-- A group with a loop over a transform in it, and a snapshot with an alternative. -/
def nestedNews (inner : Value) : Document where
  name := "news"
  description := none
  steps := [⟨"transform", [("transformation", .array [loopOver inner])]⟩,
    ⟨"request_memory", [("alternative", innerInput)]⟩]
  storing := []

/-- The transform in the loop and the alternative are found, and the run reports no type. -/
theorem compile_finds_types_nested :
    ∃ pipeline, compile .builtin "" (nestedNews innerSymbol) = .ok pipeline ∧
      DispatchTable.builtin.Registers "add_symbol" .transform ∧
      DispatchTable.builtin.Registers "input" .fetch ∧
      Outcome.AtRuntime
        (pipeline.execute Action.offline (JobConfig.named "news") {}).result := by
  obtain ⟨pipeline, compiled⟩ :
      ∃ pipeline, compile .builtin "" (nestedNews innerSymbol) = .ok pipeline := ⟨_, rfl⟩
  obtain ⟨states, runs, -⟩ := compile_finds_types compiled
  have group : (nestedNews innerSymbol).Writes .builtin .step _ := .step List.mem_cons_self
  have looped : (nestedNews innerSymbol).Writes .builtin .transform (loopOver innerSymbol) :=
    group.grouped rfl (by decide) List.mem_cons_self
  have symbol : (nestedNews innerSymbol).Writes .builtin .transform innerSymbol :=
    looped.looped rfl (by decide) (.inr rfl) List.mem_cons_self
  have remembers : DispatchTable.builtin.steps.find? "request_memory" = some (.fetch .memory) := by
    decide
  have given : innerInput ≠ .null := by
    intro same
    cases same
  have memory : (nestedNews innerSymbol).Writes .builtin .step _ :=
    .step (List.mem_cons_of_mem _ List.mem_cons_self)
  have input : (nestedNews innerSymbol).Writes .builtin .fetch innerInput :=
    (memory.fetch rfl remembers).alternative rfl (by decide) rfl given
  refine ⟨pipeline, compiled, ?_, ?_, (runs Action.offline ⟨?_, ?_⟩).1 _ _⟩
  · obtain ⟨name, stated, known⟩ := states _ _ symbol
    cases stated
    exact known
  · obtain ⟨name, stated, known⟩ := states _ _ input
    cases stated
    exact known
  · exact fun _ => atRuntime_ok _
  · exact fun _ _ => atRuntime_ok _

example : compile .builtin "" (nestedNews (.object [("type", .string "glow")])) =
    .error (.unknownType .transform "glow") := rfl

end Pipeline

end Newsreel
