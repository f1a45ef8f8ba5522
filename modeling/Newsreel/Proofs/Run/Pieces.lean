import Newsreel.Media.Assemble
import Newsreel.Proofs.Fault
import Newsreel.Proofs.Fetch.Credentials

/-!
What work on the world is put together of.

A property that is kept when pieces of work are joined, named in a layer or tried one after the
other holds of a whole fetch or of a whole sequence as soon as it holds of the pieces that touch the
world: requests, fixtures, snapshots, directories, the list of audio files, starts of the encoder.
-/

namespace Newsreel

open Outcome

/-- A property of work on the world that pieces of work one after the other keep. -/
structure Effect.Joins (property : {α : Type} → Effect α → Prop) : Prop where
  ofExcept : ∀ {α : Type} {outcome : Except StepError α}, Bare outcome →
    property (Attempt.ofExcept outcome)
  bind : ∀ {α β : Type} {work : Effect α} {next : α → Effect β}, property work →
    (∀ a, property (next a)) → property (work >>= next)

/-- A property of work on the world that all the ways of putting work together keep. -/
structure Effect.Composes (property : {α : Type} → Effect α → Prop) : Prop
    extends Effect.Joins property where
  annotate : ∀ {α : Type} {work : Effect α} {layer : StepError → StepError},
    (∀ error, (layer error).root = error.root) → property work →
    property (Attempt.annotate layer work)
  /-- Work that goes on from a failure with which work of the property may stop. -/
  recover : ∀ {α : Type} {work : Effect α} {next : StepError → Effect α}, property work →
    (∀ error, (∀ {β : Type}, property (throw error : Effect β)) → property (next error)) →
    property (tryCatch work next)

theorem Effect.Joins.pure {property : {α : Type} → Effect α → Prop} {α : Type}
    (joins : Joins property) (a : α) : property (Pure.pure a : Effect α) :=
  joins.ofExcept (bare_ok a)

namespace Fetch

/-- A snapshot that is missing is the one failure from which a fetch goes on. -/
theorem runVariant_memory_eq (surroundings : Surroundings) (context : Context) (scope : Scope)
    (name : String) (apiKeyName : Option String) (useLast : Nat) (timedelta : Option Float)
    (alternative : Option FetchSpec) :
    runVariant surroundings context scope name apiKeyName (.memory useLast timedelta alternative) =
      tryCatch (remembered surroundings context.config name useLast timedelta) fun error =>
        if error.isCacheMiss then runAlternative surroundings context scope error alternative
        else throw error := by
  funext world
  rw [runVariant]
  simp only [tryCatch, tryCatchThe, MonadExceptOf.tryCatch, ExceptT.tryCatch, ExceptT.mk, bind,
    StateT.bind]
  rcases remembered surroundings context.config name useLast timedelta world with
    ⟨error | value, after⟩
  · dsimp only
    split <;> rfl
  · rfl

theorem runKeyed_no_keys (surroundings : Surroundings) (context : Context) (scope : Scope)
    (gathered : Fields) (specs : List FetchSpec) :
    runKeyed surroundings context scope gathered [] specs = pure gathered := by
  cases specs <;> rfl

theorem runKeyed_no_specs (surroundings : Surroundings) (context : Context) (scope : Scope)
    (gathered : Fields) (keys : List Value) :
    runKeyed surroundings context scope gathered keys [] = pure gathered := by
  cases keys <;> rfl

/-- The pieces of fetches hold a property: every request that is sent, and what is read for fetches
of certain names. -/
structure Pieces (property : {α : Type} → Effect α → Prop) (surroundings : Surroundings)
    (config : JobConfig) (names : List String) : Prop where
  send : ∀ request, property (Effect.send surroundings request)
  fixture : ∀ name ∈ names, property (fixture config name)
  remembered : ∀ name ∈ names, ∀ useLast timedelta,
    property (remembered surroundings config name useLast timedelta)

/-- The names under which some fetches read fixtures and snapshots. -/
def names (specs : List FetchSpec) : List String := specs.map (·.name)

section Pieces

variable {property : {α : Type} → Effect α → Prop} {surroundings : Surroundings}
  {context : Context} {scope : Scope}

theorem Pieces.mono {config : JobConfig} {names fewer : List String}
    (pieces : Pieces property surroundings config names) (among : fewer ⊆ names) :
    Pieces property surroundings config fewer where
  send := pieces.send
  fixture name listed := pieces.fixture name (among listed)
  remembered name listed := pieces.remembered name (among listed)

variable (joins : Effect.Joins property)

include joins

theorem sendRequest_holds (send : ∀ request, property (Effect.send surroundings request))
    (apiKeyName : Option String) (spec : RequestSpec) :
    property (sendRequest surroundings context apiKeyName scope spec) :=
  joins.bind (joins.ofExcept (RequestSpec.build_bare context apiKeyName scope spec)) send

theorem sendKeyed_holds (send : ∀ request, property (Effect.send surroundings request))
    (apiKeyName : Option String) (spec : RequestSpec) (gathered : Fields)
    (iterations : List Iteration) :
    property (sendKeyed surroundings context apiKeyName spec gathered iterations) := by
  induction iterations generalizing gathered with
  | nil => exact joins.pure _
  | cons iteration rest ih =>
    exact joins.bind (sendRequest_holds joins send apiKeyName spec) fun _ => ih _

theorem sendMultiple_holds (send : ∀ request, property (Effect.send surroundings request))
    (apiKeyName : Option String) (spec : RequestSpec) (stepsValue useLoopAsKey : Value) :
    property (sendMultiple surroundings context apiKeyName scope spec stepsValue useLoopAsKey) := by
  refine joins.bind (joins.ofExcept (context.iterations_bare scope stepsValue _))
    fun iterations => joins.bind
      (joins.ofExcept (context.format_bare scope useLoopAsKey)) fun keyed => ?_
  split
  · exact joins.bind (sendKeyed_holds joins send apiKeyName spec [] iterations)
      fun _ => joins.pure _
  · cases iterations with
    | nil => exact joins.pure _
    | cons iteration rest =>
      exact joins.bind (sendRequest_holds joins send apiKeyName spec)
        fun _ => joins.pure _

omit joins in
theorem unlessTesting_holds {name : String} {work : Effect Value}
    (read : property (fixture context.config name)) (holds : property work) :
    property (unlessTesting context name work) := by
  rw [unlessTesting]
  split
  · exact read
  · exact holds

end Pieces

section Runs

variable {property : {α : Type} → Effect α → Prop} {surroundings : Surroundings}
  {context : Context} {scope : Scope} {names : List String}

mutual
/-- A fetch has a property that its pieces have. -/
theorem run_holds (composes : Effect.Composes property)
    (pieces : Pieces property surroundings context.config names) :
    (spec : FetchSpec) → Fetch.names spec.family ⊆ names →
    property (run surroundings context scope spec)
  | .mk kind name apiKeyName variant, listed => by
    rw [run]
    have own : name ∈ names := listed (by simp [Fetch.names, FetchSpec.family, FetchSpec.name])
    have nested : Fetch.names variant.nested ⊆ names := fun other member =>
      listed (by
        rw [Fetch.names, FetchSpec.family, List.map_cons]
        exact List.mem_cons_of_mem _ member)
    exact composes.annotate (fun _ => rfl)
      (runVariant_holds composes pieces name apiKeyName variant own nested)

theorem runVariant_holds (composes : Effect.Composes property)
    (pieces : Pieces property surroundings context.config names) (name : String)
    (apiKeyName : Option String) :
    (variant : FetchVariant) → name ∈ names → Fetch.names variant.nested ⊆ names →
      property (runVariant surroundings context scope name apiKeyName variant)
  | .request request, own, _ => by
    rw [runVariant]
    exact unlessTesting_holds (pieces.fixture name own)
      (sendRequest_holds composes.toJoins pieces.send apiKeyName request)
  | .input input, _, _ => by
    rw [runVariant]
    exact composes.ofExcept (context.deepFormat_bare scope apiKeyName input)
  | .memory useLast timedelta alternative, own, nested => by
    rw [runVariant_memory_eq]
    refine composes.recover (pieces.remembered name own useLast timedelta) fun error cause => ?_
    split
    · exact runAlternative_holds composes pieces error cause alternative nested
    · exact cause
  | .multiple request stepsValue useLoopAsKey, own, _ => by
    rw [runVariant]
    exact unlessTesting_holds (pieces.fixture name own)
      (sendMultiple_holds composes.toJoins pieces.send apiKeyName request stepsValue useLoopAsKey)
  | .multipleCustom requests (some keys), own, nested => by
    rw [runVariant]
    exact unlessTesting_holds (pieces.fixture name own)
      (composes.bind (runKeyed_holds composes pieces [] keys requests nested)
        fun _ => composes.pure _)
  | .multipleCustom requests none, own, nested => by
    rw [runVariant]
    exact unlessTesting_holds (pieces.fixture name own)
      (composes.bind (runAll_holds composes pieces requests nested) fun _ => composes.pure _)

theorem runAlternative_holds (composes : Effect.Composes property)
    (pieces : Pieces property surroundings context.config names) (miss : StepError)
    (cause : ∀ {β : Type}, property (throw miss : Effect β)) :
    (alternative : Option FetchSpec) → Fetch.names (FetchSpec.familyOf? alternative) ⊆ names →
      property (runAlternative surroundings context scope miss alternative)
  | none, _ => by
    rw [runAlternative]
    exact cause
  | some alternative, listed => by
    rw [runAlternative]
    exact run_holds composes pieces alternative listed

theorem runAll_holds (composes : Effect.Composes property)
    (pieces : Pieces property surroundings context.config names) :
    (specs : List FetchSpec) → Fetch.names (FetchSpec.familyOf specs) ⊆ names →
    property (runAll surroundings context scope specs)
  | [], _ => by
    rw [runAll]
    exact composes.pure _
  | spec :: rest, listed => by
    rw [Fetch.names, FetchSpec.familyOf, List.map_append, List.append_subset] at listed
    rw [runAll]
    exact composes.bind (run_holds composes pieces spec listed.1) fun _ =>
      composes.bind (runAll_holds composes pieces rest listed.2) fun _ => composes.pure _

theorem runKeyed_holds (composes : Effect.Composes property)
    (pieces : Pieces property surroundings context.config names) (gathered : Fields) :
    (keys : List Value) → (specs : List FetchSpec) →
    Fetch.names (FetchSpec.familyOf specs) ⊆ names →
      property (runKeyed surroundings context scope gathered keys specs)
  | key :: keys, spec :: specs, listed => by
    rw [Fetch.names, FetchSpec.familyOf, List.map_append, List.append_subset] at listed
    rw [runKeyed]
    exact composes.bind (composes.ofExcept (context.formatText_bare scope key)) fun _ =>
      composes.bind (run_holds composes pieces spec listed.1) fun _ =>
        runKeyed_holds composes pieces _ keys specs listed.2
  | [], _, _ => by
    rw [runKeyed_no_keys]
    exact composes.pure _
  | _ :: _, [], _ => by
    rw [runKeyed_no_specs]
    exact composes.pure _
end

end Runs

end Fetch

namespace Media

/-- The list of audio files in the directory of a run. -/
def listPath (context : Context) : String := Files.join (tempDirectory context) "input.txt"

/-- The start of the encoder that joins the audio files of a run. -/
def joining (context : Context) : Invocation where
  args := Encoder.concatArgs (listPath context) (Files.join (tempDirectory context) "audio.mp3")
  env := Encoder.environment context.config.nvenc

/-- The start of the encoder that makes a video. -/
def showing (context : Context) (spec : SequenceSpec) (clips : List (Clip Float))
    (audio : Option String) (output : String) : Invocation where
  args := Encoder.videoArgs binary64 secondsText clips audio (secondsText spec.transitions)
    context.config.nvenc output
  env := Encoder.environment context.config.nvenc

/-- The pieces of a sequence hold a property. -/
structure Pieces (property : {α : Type} → Effect α → Prop) (surroundings : Surroundings)
    (context : Context) : Prop where
  lays : ∀ scope spec, property (Attempt.ofExcept (timeline surroundings context scope spec))
  makesTemp : property (Effect.onFiles (Files.Work.makeDirectories (tempDirectory context)))
  makesOutput : ∀ time, property
    (Effect.onFiles (Files.Work.makeDirectories (Files.parent (outputPath context.config time))))
  writesList : ∀ text, property (Effect.onFiles (Files.Work.write (listPath context) text))
  joins : property (Effect.encode surroundings (joining context))
  shows : ∀ spec clips audio output,
    property (Effect.encode surroundings (showing context spec clips audio output))

section Sequences

variable {property : {α : Type} → Effect α → Prop} {surroundings : Surroundings}
  {context : Context}

/-- What makes a sequence up, but for the layer around it, has a property that its pieces have. -/
theorem body_holds (joins : Effect.Joins property) (pieces : Pieces property surroundings context)
    (scope : Scope) (spec : SequenceSpec) :
    property (do
      let timeline ← Attempt.ofExcept (timeline surroundings context scope spec)
      render surroundings context spec timeline) := by
  refine joins.bind (pieces.lays scope spec) fun timeline => ?_
  have joined : property (joinAudio surroundings context.config (tempDirectory context)
      timeline.audios) := by
    rw [joinAudio]
    split
    · exact joins.pure _
    · exact joins.bind (pieces.writesList _) fun _ =>
        joins.bind pieces.joins fun _ => joins.pure _
  exact joins.bind pieces.makesTemp fun _ => joins.bind joined fun audio =>
    joins.bind (pieces.makesOutput _) fun _ =>
      joins.bind (pieces.shows spec timeline.clips audio _) fun _ => joins.pure _

/-- A sequence has a property that its pieces have. -/
theorem assemble_holds (composes : Effect.Composes property)
    (pieces : Pieces property surroundings context) (scope : Scope) (spec : SequenceSpec) :
    property (assemble surroundings context scope spec) :=
  composes.annotate (fun _ => rfl) (body_holds composes.toJoins pieces scope spec)

end Sequences

end Media

end Newsreel
