import Mathlib.Data.List.Nodup
import Newsreel.Proofs.Calendar.Stamp
import Newsreel.Proofs.Run.Remembered

/-!
What the encoder is told to write in a run.

Only sequences start the encoder: for the joined sound, if there is any, and then for the video. The
sound and the videos with and without a time in their names lie in different places, whatever the
names of the job and its directories. So what replaces an output of the same run is the same kind of
output of a later step.
-/

namespace Newsreel

open Files (Place)

/-! Where the outputs lie. -/

namespace Files

/-- A path without slashes, or one with a last part behind a slash. -/
theorem eq_last_part (path : String) : '/' ∉ path.toList ∨
    ∃ front last : String, path = front ++ "/" ++ last ∧ '/' ∉ last.toList := by
  by_cases slash : '/' ∈ path.toList
  · obtain ⟨last, front, chars, plain⟩ := List.eq_append_cons_of_mem (List.mem_reverse.mpr slash)
    refine Or.inr ⟨String.ofList front.reverse, String.ofList last.reverse, ?_, by simpa using plain⟩
    rw [List.reverse_eq_iff] at chars
    rw [← String.toList_inj, chars]
    simp
  · exact Or.inl slash

/-- The last part of a path takes up what is appended to it. -/
theorem Place.exists_ofPath_append (path : String) : ∃ (above : Place) (last : String),
    ∀ suffix : String, '/' ∉ suffix.toList → 2 < suffix.length →
      Place.ofPath (path ++ suffix) = above ++ [last ++ suffix] := by
  have next (above : Place) (last : String) {suffix : String} (long : 2 < suffix.length) :
      above.next (last ++ suffix) = above ++ [last ++ suffix] := by
    have apart {text : String} (short : text.length ≤ 2) : last ++ suffix ≠ text := by
      rintro rfl
      rw [String.length_append] at short
      omega
    rw [Place.next, if_neg (not_or.mpr ⟨apart (by decide), apart (by decide)⟩),
      if_neg (apart (by decide))]
  rcases eq_last_part path with whole | ⟨front, last, rfl, cut⟩
  · refine ⟨[], path, fun suffix plain long => ?_⟩
    have noSlash : '/' ∉ (path ++ suffix).toList := by simp [whole, plain]
    have relative : isAbsolute (path ++ suffix) = false :=
      decide_eq_false fun first => noSlash (List.mem_of_mem_head? first)
    rw [Place.ofPath, parts_of_plain noSlash, startOf, relative, if_neg Bool.false_ne_true]
    exact next [] path long
  · refine ⟨Place.ofPath (front ++ "/"), last, fun suffix plain long => ?_⟩
    have noSlash : '/' ∉ (last ++ suffix).toList := by simp [cut, plain]
    rw [String.append_assoc, ofPath_slash_append front noSlash]
    exact next _ last long

theorem join_append (base path : String) {suffix : String} (plain : '/' ∉ suffix.toList) :
    join base (path ++ suffix) = join base path ++ suffix := by
  have start : isAbsolute (path ++ suffix) = isAbsolute path := by
    cases chars : path.toList with
    | nil =>
      have relative : suffix.toList.head? ≠ some '/' := fun first =>
        plain (List.mem_of_mem_head? first)
      simp [isAbsolute, chars, relative]
    | cons c rest => simp [isAbsolute, chars]
  rw [join, join, start]
  simp only [apply_ite (· ++ suffix), String.append_assoc]

end Files

/-- What a sequence has the encoder make: the joined sound, or a video with or without the time in
its name. -/
inductive Product where
  | audio
  | video (timed : Bool)
  deriving DecidableEq, Repr

namespace Product

variable {config : JobConfig} {runId : String} {now : Calendar.DateTime}

/-- Where a product of a run goes. -/
def path (config : JobConfig) (runId : String) (now : Calendar.DateTime) : Product → String
  | .audio => Files.join (Files.join config.tempPath runId) "audio.mp3"
  | .video timed => Media.outputPath config (if timed then some now else none)

/-- What the name of a video ends in. -/
def ending (now : Calendar.DateTime) (timed : Bool) : String :=
  (if timed then "_" ++ now.stamp else "") ++ ".mp4"

theorem noSlash_ending (now : Calendar.DateTime) (timed : Bool) :
    '/' ∉ (ending now timed).toList := by
  cases timed <;> simp [ending, now.noSlash_stamp]

theorem length_ending (now : Calendar.DateTime) (timed : Bool) : 2 < (ending now timed).length := by
  have kind : ".mp4".length = 4 := rfl
  rw [ending, String.length_append, kind]
  omega

theorem path_video (timed : Bool) : path config runId now (.video timed) =
    Files.join config.outputPath config.jobName ++ ending now timed := by
  rw [← Files.join_append _ _ (noSlash_ending now timed)]
  cases timed with
  | false => rfl
  | true => simp [path, Media.outputPath, ending, String.append_assoc]

theorem ending_injective {timed also : Bool} {last : String}
    (same : last ++ ending now timed = last ++ ending now also) : timed = also := by
  have lengths := congrArg String.length same
  cases timed <;> cases also <;> simp [ending] at lengths ⊢

/-- Different products lie in different places. -/
theorem place_injective (config : JobConfig) (runId : String) (now : Calendar.DateTime) :
    Function.Injective fun product : Product => Place.ofPath (product.path config runId now) := by
  obtain ⟨above, last, video⟩ :=
    Place.exists_ofPath_append (Files.join config.outputPath config.jobName)
  have placeOf (timed : Bool) : Place.ofPath (path config runId now (.video timed)) =
      above ++ [last ++ ending now timed] := by
    rw [path_video, video _ (noSlash_ending now timed) (length_ending now timed)]
  have audioPlace : Place.ofPath (path config runId now .audio) =
      Place.ofPath (Files.join config.tempPath runId) ++ ["audio.mp3"] :=
    Place.ofPath_join _ (by decide)
  have apart (timed : Bool) : Place.ofPath (path config runId now .audio) ≠
      Place.ofPath (path config runId now (.video timed)) := by
    intro same
    rw [audioPlace, placeOf] at same
    have name := (List.append_inj_right' same rfl : ["audio.mp3"] = _)
    rw [List.cons.injEq] at name
    have behind := congrArg (·.toList.reverse.head?) name.1
    simp [ending] at behind
  intro product other same
  cases product with
  | audio =>
    cases other with
    | audio => rfl
    | video timed => exact absurd same (apart timed)
  | video timed =>
    cases other with
    | audio => exact absurd same.symm (apart timed)
    | video also =>
      simp only [placeOf, List.append_cancel_left_eq, List.cons.injEq, and_true] at same
      rw [ending_injective same]

end Product

/-! Work that starts the encoder. -/

/-- The output that the encoder is told: its last argument. -/
def EncoderCall.output? (call : EncoderCall) : Option String := call.invocation.args.getLast?

namespace Attempt

variable {σ α β : Type}

/-- From a state on, work starts the encoder for outputs that are among the given ones, in their
order. `calls` says where the calls are kept. -/
def Starts (calls : σ → List EncoderCall) (outputs : List String) (work : Attempt σ α)
    (state : σ) : Prop :=
  ∃ made, calls (work state).2 = calls state ++ made ∧
    (made.map EncoderCall.output?).Sublist (outputs.map some)

variable {calls : σ → List EncoderCall} {outputs more front back : List String}
  {work : Attempt σ α} {next : α → Attempt σ β} {state : σ}

theorem starts_nothing (keeps : calls (work state).2 = calls state) :
    Starts calls [] work state :=
  ⟨[], by rw [keeps, List.append_nil], .slnil⟩

theorem starts_pure (a : α) (state : σ) : Starts calls [] (pure a) state := starts_nothing rfl

theorem Preserves.starts_nothing (calls : σ → List EncoderCall)
    (keeps : ∀ made, Preserves (fun state => calls state = made) work)
    (state : σ) : Starts calls [] work state :=
  Attempt.starts_nothing (keeps (calls state) state rfl)

theorem Starts.mono (starts : Starts calls outputs work state) (among : outputs.Sublist more) :
    Starts calls more work state := by
  obtain ⟨made, grown, written⟩ := starts
  exact ⟨made, grown, written.trans (among.map some)⟩

theorem Starts.bind (first : Starts calls front work state)
    (later : ∀ a between, (work state) = (.ok a, between) → Starts calls back (next a) between) :
    Starts calls (front ++ back) (work >>= next) state := by
  obtain ⟨made, grown, written⟩ := first
  rcases run : work state with ⟨error | a, between⟩
  · rw [run] at grown
    refine ⟨made, ?_, ?_⟩
    · rw [bind_run_error run, grown]
    · rw [List.map_append]
      exact written.trans (List.sublist_append_left _ _)
  · rw [run] at grown
    obtain ⟨madeLater, grownLater, writtenLater⟩ := later a between run
    refine ⟨made ++ madeLater, ?_, ?_⟩
    · rw [bind_run_ok run, grownLater, grown, List.append_assoc]
    · rw [List.map_append, List.map_append]
      exact written.append writtenLater

theorem Starts.annotate (starts : Starts calls outputs work state) (layer : StepError → StepError) :
    Starts calls outputs (annotate layer work) state := by
  rw [Starts, annotate_snd]
  exact starts

end Attempt

theorem Encoder.getLast?_videoArgs {τ : Type} (reckoning : Reckoning τ) (durationText : τ → String)
    (clips : List (Clip τ)) (audio : Option String) (transition : String) (nvenc : Bool)
    (output : String) :
    (videoArgs reckoning durationText clips audio transition nvenc output).getLast? =
      some output := by
  unfold videoArgs
  rw [List.getLast?_append]
  rfl

namespace Media

variable {surroundings : Surroundings}

theorem encode_starts {invocation : Invocation} {output : String}
    (told : invocation.args.getLast? = some output) (world : World) :
    (Effect.encode surroundings invocation).Starts World.calls [output] world :=
  ⟨[⟨invocation, world.files⟩], rfl, by rw [List.map_singleton, EncoderCall.output?, told]; exact .refl _⟩

theorem onFiles_calls {α : Type} (work : Files.Work α) (world : World) :
    (Effect.onFiles work world).2.calls = world.calls := by
  rw [Effect.onFiles_snd]

theorem onFiles_starts {α : Type} (work : Files.Work α) (world : World) :
    (Effect.onFiles work).Starts World.calls [] world :=
  Attempt.starts_nothing (onFiles_calls work world)

theorem joinAudio_starts (config : JobConfig) (directory : String) (audios : List String)
    (world : World) : (joinAudio surroundings config directory audios).Starts World.calls
      [Files.join directory "audio.mp3"] world := by
  rw [joinAudio]
  split
  · exact (Attempt.starts_nothing rfl).mono (List.nil_sublist _)
  · exact (onFiles_starts _ world).bind fun _ between _ =>
      (encode_starts rfl between).bind fun _ state _ => Attempt.starts_pure _ state

/-- What a sequence has the encoder make. -/
def products (config : JobConfig) (spec : SequenceSpec) : List Product :=
  [.audio, .video (spec.outTime.getD config.outTime)]

theorem assemble_starts (surroundings : Surroundings) (context : Context) (scope : Scope)
    (spec : SequenceSpec) (world : World) :
    (assemble surroundings context scope spec).Starts World.calls
      ((products context.config spec).map
        (Product.path context.config context.runId surroundings.now)) world := by
  refine Attempt.Starts.annotate ?_ _
  refine (Attempt.starts_nothing rfl).bind fun timeline world _ => ?_
  refine (onFiles_starts _ world).bind fun _ world _ => ?_
  refine (joinAudio_starts _ _ _ world).bind fun audio world _ => ?_
  refine (onFiles_starts _ world).bind fun _ world _ => ?_
  exact (encode_starts (Encoder.getLast?_videoArgs _ _ _ _ _ _ _) world).bind
    fun _ state _ => Attempt.starts_pure _ state

end Media

namespace Action

/-- What a step has the encoder make. -/
def products (config : JobConfig) : Action → List Product
  | .sequence spec => Media.products config spec
  | _ => []

theorem onWorld_starts {α : Type} (work : Context → Effect α) {outputs : List String}
    {context : Context} {world : World}
    (starts : (work context).Starts World.calls outputs world) :
    (onWorld work).Starts (fun state => state.2.calls) outputs (context, world) :=
  starts

theorem onContext_starts {α : Type} (edit : Edit α) (state : Context × World) :
    (onContext edit).Starts (fun state => state.2.calls) [] state :=
  Attempt.starts_nothing rfl

theorem run_starts (action : Action) (surroundings : Surroundings) (scope : Scope)
    (context : Context) (world : World) :
    (action.run surroundings scope).Starts (fun state => state.2.calls)
      ((action.products context.config).map
        (Product.path context.config context.runId surroundings.now)) (context, world) := by
  cases action with
  | fetch key spec =>
    have sends (request : Request) (made : List EncoderCall) :
        (Effect.send surroundings request).Preserves fun world => world.calls = made :=
      fun _ holds => holds
    have quiet := Attempt.Preserves.starts_nothing World.calls (fun made =>
      Fetch.run_preserves (fun request => sends request made) context scope spec) world
    exact (onWorld_starts (Fetch.run surroundings · scope spec) quiet).bind fun value state _ =>
      ((onContext_starts _ state).annotate _).bind fun _ state _ => Attempt.starts_pure _ state
  | transform spec =>
    exact (onContext_starts _ _).bind fun _ state _ => Attempt.starts_pure _ state
  | transforms specs =>
    exact (onContext_starts _ _).bind fun _ state _ => Attempt.starts_pure _ state
  | sequence spec =>
    have starts := Media.assemble_starts surroundings context scope spec world
    exact (onWorld_starts (Media.assemble surroundings · scope spec) starts).bind fun output state _ =>
      ((onContext_starts _ state).annotate _).bind fun _ state _ => Attempt.starts_pure _ state

/-- Steps change neither the configuration nor the id of their run. -/
theorem run_frame (action : Action) (surroundings : Surroundings) (scope : Scope)
    (config : JobConfig) (runId : String) :
    (action.run surroundings scope).Preserves
      fun state => state.1.config = config ∧ state.1.runId = runId := by
  refine run_preserves (fun _ => ⟨?_, fun _ frame => frame⟩) (fun _ _ _ _ frame => frame)
    (fun _ _ _ _ frame => frame) action scope
  intro path value scope context frame
  obtain ⟨sameConfig, sameId⟩ := Context.insert_frame context path value scope
  dsimp only [Edit.write]
  exact ⟨sameConfig.trans frame.1, sameId.trans frame.2⟩

end Action

/-! Runs. -/

/-- Something that a step of a pipeline has the encoder make. -/
structure Output where
  /-- The place of the step. -/
  step : Nat
  product : Product
  deriving DecidableEq, Repr

/-- What steps from an index on have the encoder make. -/
def outputsFrom (config : JobConfig) : (index : Nat) → List Step → List Output
  | _, [] => []
  | index, step :: rest =>
    (step.action.products config).map (Output.mk index) ++ outputsFrom config (index + 1) rest

theorem le_of_mem_outputsFrom {config : JobConfig} {index : Nat} {steps : List Step}
    {output : Output} (member : output ∈ outputsFrom config index steps) : index ≤ output.step := by
  induction steps generalizing index with
  | nil => cases member
  | cons step rest ih =>
    rw [outputsFrom, List.mem_append] at member
    rcases member with here | later
    · obtain ⟨product, -, rfl⟩ := List.mem_map.mp here
      exact Nat.le_refl _
    · exact Nat.le_of_succ_le (ih later)

/-- What is made twice is made by a later step. -/
theorem pairwise_outputsFrom (config : JobConfig) (index : Nat) (steps : List Step) :
    (outputsFrom config index steps).Pairwise fun first second =>
      first.product = second.product → first.step < second.step := by
  induction steps generalizing index with
  | nil => exact .nil
  | cons step rest ih =>
    rw [outputsFrom, List.pairwise_append]
    refine ⟨?_, ih (index + 1), fun first here second later _ => ?_⟩
    · cases step.action with
      | sequence spec => simp [Action.products, Media.products]
      | _ => exact .nil
    · obtain ⟨product, -, rfl⟩ := List.mem_map.mp here
      exact Nat.lt_of_succ_le (le_of_mem_outputsFrom later)

theorem products_of_no_sequence (config : JobConfig) {step : Step}
    (no : ¬step.isSequence = true) : step.action.products config = [] := by
  obtain ⟨index, type, name, action⟩ := step
  cases action with
  | sequence spec => exact absurd rfl no
  | _ => rfl

/-- Steps without a sequence have nothing made. -/
theorem outputsFrom_of_no_sequence (config : JobConfig) (index : Nat) {steps : List Step}
    (none : steps.countP Step.isSequence = 0) : outputsFrom config index steps = [] := by
  induction steps generalizing index with
  | nil => rfl
  | cons step rest ih =>
    rw [List.countP_eq_zero, List.forall_mem_cons, ← List.countP_eq_zero] at none
    rw [outputsFrom, products_of_no_sequence config none.1, ih _ none.2, List.map_nil, List.append_nil]

/-- A single sequence has nothing made twice. -/
theorem nodup_products (config : JobConfig) (index : Nat) {steps : List Step}
    (single : steps.countP Step.isSequence ≤ 1) :
    ((outputsFrom config index steps).map Output.product).Nodup := by
  induction steps generalizing index with
  | nil => exact .nil
  | cons step rest ih =>
    rw [outputsFrom, List.map_append, List.map_map]
    by_cases sequence : step.isSequence = true
    · have none : rest.countP Step.isSequence = 0 := by
        rw [List.countP_cons_of_pos sequence] at single
        omega
      rw [outputsFrom_of_no_sequence config _ none, List.map_nil, List.append_nil]
      obtain ⟨place, type, name, action⟩ := step
      cases action with
      | sequence spec => simp [Action.products, Media.products]
      | _ => exact .nil
    · rw [List.countP_cons_of_neg sequence] at single
      rw [products_of_no_sequence config sequence]
      exact ih _ single

/-- The calls of steps, run one after the other, are for what they have made, as far as the run
comes. -/
theorem runStages_starts (surroundings : Surroundings) (index : Nat) (artifact : Option String)
    (context : Context) (world : World) (stages : List Stage) :
    ∃ made, (runStages surroundings index artifact context world stages).world.calls =
        world.calls ++ made ∧
      (made.map EncoderCall.output?).Sublist
        ((outputsFrom context.config index (stages.map (·.step))).map fun output =>
          some (output.product.path context.config context.runId surroundings.now)) := by
  induction stages generalizing index artifact context world with
  | nil => exact ⟨[], (List.append_nil _).symm, .slnil⟩
  | cons stage rest ih =>
    obtain ⟨made, grown, written⟩ :=
      stage.step.action.run_starts surroundings Scope.root context world
    have frame := stage.step.action.run_frame surroundings Scope.root context.config context.runId
      (context, world) ⟨rfl, rfl⟩
    rw [List.map_cons, outputsFrom, List.map_append, List.map_map]
    rw [List.map_map] at written
    rcases ran : stage.step.action.run surroundings Scope.root (context, world) with
      ⟨error | path, between, behind⟩
    · rw [ran] at grown
      simp only [runStages, ran]
      exact ⟨made, grown, written.trans (List.sublist_append_left _ _)⟩
    · rw [ran] at grown frame
      have here : behind.calls = world.calls ++ made := grown
      obtain ⟨later, grownLater, writtenLater⟩ :=
        ih (index + 1) (path.or artifact) between behind
      rw [frame.1, frame.2] at writtenLater
      simp only [runStages, ran]
      refine ⟨made ++ later, ?_, ?_⟩
      · rw [grownLater, here, List.append_assoc]
      · rw [List.map_append]
        exact written.append writtenLater

/-! What comes behind the steps starts nothing. -/

theorem conclude_calls (surroundings : Surroundings) (storing : List Storing) (steps : StagesRun) :
    (conclude surroundings storing steps).2.calls = steps.world.calls := by
  have onFiles (work : Files.Work Unit) :
      (Effect.onFiles work).Preserves fun world => world.calls = steps.world.calls :=
    fun world same => (Media.onFiles_calls work world).trans same
  have stores (entry : Storing) : (entry.store surroundings steps.context).Preserves
      fun world => world.calls = steps.world.calls :=
    Storing.store_preserves (onFiles _) fun _ => onFiles _
  let invariant (state : Context × World) : Prop := state.2.calls = steps.world.calls
  have start : invariant (steps.context, steps.world) := rfl
  obtain ⟨left, kept, ended⟩ := conclude_preserves (fun entry _ => stores entry) start
  rw [ended]
  exact (Media.onFiles_calls _ left).trans kept

namespace Pipeline

/-- The world that a run leaves. -/
theorem execute_world (surroundings : Surroundings) (config : JobConfig) (pipeline : Pipeline)
    (world : World) : (pipeline.execute surroundings config world).world =
      (conclude surroundings pipeline.storing
        (runStages surroundings 0 none (pipeline.beginning surroundings config world).1 world
          (pipeline.begun surroundings).stages)).2 := by
  rw [← pipeline.storing_begun surroundings, execute]
  simp only [beginning, begun]
  split <;> rename_i ended <;> rw [ended]

theorem execute_calls (surroundings : Surroundings) (config : JobConfig) (pipeline : Pipeline)
    (world : World) : (pipeline.execute surroundings config world).world.calls =
      (runStages surroundings 0 none (pipeline.beginning surroundings config world).1 world
        (pipeline.begun surroundings).stages).world.calls := by
  rw [execute_world, conclude_calls]

/-- Where an output of a run goes. -/
def outputPath (surroundings : Surroundings) (config : JobConfig) (pipeline : Pipeline)
    (output : Output) : String :=
  output.product.path config (pipeline.begun surroundings).run.runId surroundings.now

/-- The encoder is started for what sequences make, and an output lies where an earlier one of the
run lies only if a later step makes the same product again. A run of a single sequence has no two
outputs in one place. -/
theorem execute_outputs (surroundings : Surroundings) (config : JobConfig) (pipeline : Pipeline)
    (world : World) : ∃ (made : List EncoderCall) (outputs : List Output),
      (pipeline.execute surroundings config world).world.calls = world.calls ++ made ∧
      made.map EncoderCall.output? =
        outputs.map (fun output => some (pipeline.outputPath surroundings config output)) ∧
      outputs.Sublist (outputsFrom config 0 pipeline.steps) ∧
      outputs.Pairwise (fun first second =>
        Place.ofPath (pipeline.outputPath surroundings config first) =
            Place.ofPath (pipeline.outputPath surroundings config second) →
          first.product = second.product ∧ first.step < second.step) ∧
      (pipeline.steps.countP Step.isSequence ≤ 1 → (outputs.map fun output =>
        Place.ofPath (pipeline.outputPath surroundings config output)).Nodup) := by
  obtain ⟨made, grown, written⟩ := runStages_starts surroundings 0 none
    (pipeline.beginning surroundings config world).1 world (pipeline.begun surroundings).stages
  rw [← execute_calls] at grown
  rw [steps_begun] at written
  obtain ⟨outputs, among, told⟩ := List.sublist_map_iff.mp written
  have injective := Product.place_injective config (pipeline.begun surroundings).run.runId
    surroundings.now
  refine ⟨made, outputs, grown, told, among, ?_, fun single => ?_⟩
  · refine ((pairwise_outputsFrom config 0 pipeline.steps).sublist among).imp ?_
    intro first second later same
    have product := injective same
    exact ⟨product, later product⟩
  · have products := (nodup_products config 0 single).sublist (among.map Output.product)
    have places := List.Nodup.map injective products
    rwa [List.map_map] at places

/-- A step that shows an image while a sound is heard. -/
def showStep (image sound : String) : StepConfig where
  type := "sequence"
  params := [
    ("images", .object [("one", .string image)]),
    ("audio", .object [("audios", .object [("one", .string sound)])]),
    ("sequence", .object [("type", .string "successively")])]

/-- The sequence of such a step. -/
def showSpec (image sound : String) : SequenceSpec where
  kind := .successively
  images := [("one", .string image)]
  audios := [("one", .string sound)]
  pattern := []
  transitions := defaultTransition
  outTime := none
  key := defaultSequenceKey

def doubleNews : Document where
  name := "news"
  description := none
  steps := [showStep "sun.png" "sun.mp3", showStep "rain.png" "rain.mp3"]
  storing := []

/-- Two videos in one run. -/
def double : Pipeline where
  name := "news"
  description := none
  stages := [⟨⟨0, "sequence", none, .sequence (showSpec "sun.png" "sun.mp3")⟩, .pending⟩,
    ⟨⟨1, "sequence", none, .sequence (showSpec "rain.png" "rain.mp3")⟩, .pending⟩]
  storing := []
  run := { runId := "11111111-2222-4333-8444-555555555555" }

/-- The first of them alone. -/
def single : Pipeline := { double with stages := double.stages.take 1 }

/-- Videos and intermediate files lie below the working directory. -/
def desk : JobConfig := { JobConfig.named "news" with outputPath := "out", tempPath := "temp" }

/-- Where the joined sound of the runs goes. -/
def joinedSound : String := "temp/11111111-2222-4333-8444-555555555555/audio.mp3"

theorem execute_outputs_single :
    single.steps.countP Step.isSequence ≤ 1 ∧
      ∃ (made : List EncoderCall) (outputs : List Output),
        (single.execute Action.offline desk {}).world.calls = made ∧
        made.map EncoderCall.output? =
          outputs.map (fun output => some (single.outputPath Action.offline desk output)) ∧
        made.map EncoderCall.output? = [some joinedSound, some "out/news.mp4"] ∧
        (outputs.map fun output =>
          Place.ofPath (single.outputPath Action.offline desk output)).Nodup := by
  have one : single.steps.countP Step.isSequence ≤ 1 := by decide +kernel
  have written : (single.execute Action.offline desk {}).world.calls.map EncoderCall.output? =
      [some joinedSound, some "out/news.mp4"] := by
    decide +kernel
  obtain ⟨made, outputs, grown, told, -, -, apart⟩ :=
    execute_outputs Action.offline desk single {}
  have grown : (single.execute Action.offline desk {}).world.calls = made :=
    grown.trans (List.nil_append made)
  rw [grown] at written
  exact ⟨one, made, outputs, grown, told, written, apart one⟩

/-- The second sequence of a run writes the files of the first one again. -/
theorem double_writes_again :
    doubleNews.fault? = none ∧ compile .builtin double.run.runId doubleNews = .ok double ∧
      (double.execute Action.offline desk {}).result.isOk = true ∧
      (double.execute Action.offline desk {}).world.calls.map EncoderCall.output? =
        [some joinedSound, some "out/news.mp4", some joinedSound, some "out/news.mp4"] ∧
      ¬((double.execute Action.offline desk {}).world.calls.map EncoderCall.output?).Nodup := by
  have ran : ((double.execute Action.offline desk {}).result.isOk,
      (double.execute Action.offline desk {}).world.calls.map EncoderCall.output?) =
        (true, [some joinedSound, some "out/news.mp4", some joinedSound, some "out/news.mp4"]) := by
    decide +kernel
  obtain ⟨succeeded, written⟩ := Prod.mk.inj ran
  refine ⟨rfl, rfl, succeeded, written, ?_⟩
  rw [written]
  decide

end Pipeline

end Newsreel
