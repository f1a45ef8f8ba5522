import Newsreel.Proofs.Fetch.Isolation
import Newsreel.Proofs.Files.Grounds
import Newsreel.Proofs.Run.Course
import Newsreel.Proofs.Run.ErrorTexts
import Newsreel.Proofs.Run.Outputs

/-!
The actions of a run beside those of another one.

Two runs write below the same directories, under names of their own. What one of them does comes out
as if the other one were not there, and what the other one does makes no difference to it.
-/

namespace Newsreel

open Files (IsName IsPart Place Tree)

/-! Answers that do not depend on what others ask. -/

/-- What servers answer depends on the request alone. -/
def Web.Network.IsMemoryless (network : Web.Network) : Prop :=
  ∀ before other request, network before request = network other request

namespace EncoderCall

/-- The list of audio files with which the encoder is started, if it is given one. -/
def list? (call : EncoderCall) : Option String :=
  if call.invocation.args[2]? = some "-f" then call.invocation.args[7]? else none

/-- What the encoder is asked: how it is started, and what stands in the list that it is given. -/
def question (call : EncoderCall) : Invocation × Option (Except FileFault String) :=
  (call.invocation, call.list?.map call.files.read)

end EncoderCall

/-- What the encoder answers depends on what it is asked alone. -/
def Encoder.IsMemoryless (encoder : Encoder) : Prop :=
  ∀ before other call also, call.question = also.question →
    encoder.run before call = encoder.run other also

theorem Media.list?_joining (context : Context) (files : Tree) :
    EncoderCall.list? ⟨joining context, files⟩ = some (listPath context) := by
  have third : (joining context).args[2]? = some "-f" := rfl
  rw [EncoderCall.list?, third, if_pos rfl]
  rfl

theorem Media.list?_showing (context : Context) (spec : SequenceSpec) (clips : List (Clip Float))
    (audio : Option String) (output : String) (files : Tree) :
    EncoderCall.list? ⟨showing context spec clips audio output, files⟩ = none := by
  have third : (showing context spec clips audio output).args[2]? = some "-y" := by
    simp [showing, Encoder.videoArgs]
  rw [EncoderCall.list?, third, if_neg (by decide)]

/-! Runs that share their directories. -/

/-- The directories that runs write below. -/
inductive Area where
  | temp
  | memory
  | output
  deriving DecidableEq

instance decidableForallArea {p : Area → Prop} [∀ area, Decidable (p area)] :
    Decidable (∀ area, p area) :=
  decidable_of_iff (p .temp ∧ p .memory ∧ p .output)
    ⟨fun ⟨temp, memory, output⟩ area => match area with
      | .temp => temp
      | .memory => memory
      | .output => output,
      fun all => ⟨all .temp, all .memory, all .output⟩⟩

/-- A run, by its configuration and its id. -/
structure Party where
  config : JobConfig
  runId : String

namespace Party

def directory (party : Party) : Area → String
  | .temp => party.config.tempPath
  | .memory => party.config.memoryPath
  | .output => party.config.outputPath

def place (party : Party) (area : Area) : Place := Place.ofPath (party.directory area)

/-- What a run goes by in a directory that it writes below. -/
def name (party : Party) : Area → String
  | .temp => party.runId
  | .memory | .output => party.config.jobName

/-- What belongs to a run below a directory. -/
def own (party : Party) (area : Area) : Place := party.place area ++ [party.name area]

/-- The context is one of the run. -/
structure Has (party : Party) (context : Context) : Prop where
  config : context.config = party.config
  runId : context.runId = party.runId

/-- Directories that stay, from which the directories of a run are reached. What the run goes by in
them is short enough for the name of a file. -/
structure Stands (party : Party) (kept : Tree) : Prop where
  short : ∀ area, (party.name area).utf8ByteSize ≤ Place.nameLimit
  reaches : ∀ area, kept.Reaches (party.directory area)
  fixtures : kept.Reaches party.config.fixturesPath
  outside : ∀ place, kept.entry? place = some .directory → ¬party.own .temp <+: place

end Party

/-- Two runs with the same directories, none in another one, in which they go by different names. -/
structure Neighbours (mine theirs : Party) : Prop where
  directories : ∀ area, theirs.directory area = mine.directory area
  fixtures : theirs.config.fixturesPath = mine.config.fixturesPath
  apart : ∀ area other, mine.place area <+: mine.place other → area = other
  fixturesApart : ∀ area, ¬mine.place area <+: Place.ofPath mine.config.fixturesPath ∧
    ¬Place.ofPath mine.config.fixturesPath <+: mine.place area
  isPart : ∀ area, IsPart (mine.name area) ∧ IsPart (theirs.name area)
  distinct : ∀ area, mine.name area ≠ theirs.name area

namespace Neighbours

variable {mine theirs : Party}

instance (mine theirs : Party) : Decidable (Neighbours mine theirs) :=
  decidable_of_iff ((∀ area, theirs.directory area = mine.directory area) ∧
      theirs.config.fixturesPath = mine.config.fixturesPath ∧
      (∀ area other, mine.place area <+: mine.place other → area = other) ∧
      (∀ area, ¬mine.place area <+: Place.ofPath mine.config.fixturesPath ∧
        ¬Place.ofPath mine.config.fixturesPath <+: mine.place area) ∧
      (∀ area, IsPart (mine.name area) ∧ IsPart (theirs.name area)) ∧
      ∀ area, mine.name area ≠ theirs.name area)
    ⟨fun ⟨directories, fixtures, apart, fixturesApart, isPart, distinct⟩ =>
        ⟨directories, fixtures, apart, fixturesApart, isPart, distinct⟩,
      fun ⟨directories, fixtures, apart, fixturesApart, isPart, distinct⟩ =>
        ⟨directories, fixtures, apart, fixturesApart, isPart, distinct⟩⟩

theorem places (near : Neighbours mine theirs) (area : Area) : theirs.place area = mine.place area := by
  rw [Party.place, near.directories area]
  rfl

theorem symm (near : Neighbours mine theirs) : Neighbours theirs mine where
  directories area := (near.directories area).symm
  fixtures := near.fixtures.symm
  apart area other := by
    rw [near.places, near.places]
    exact near.apart area other
  fixturesApart area := by
    rw [near.places, near.fixtures]
    exact near.fixturesApart area
  isPart area := (near.isPart area).symm
  distinct area := (near.distinct area).symm

/-- What is whose below the shared directories. -/
def grounds (near : Neighbours mine theirs) : Files.Grounds Area where
  shared := mine.place
  mine := mine.name
  theirs := theirs.name
  distinct := near.distinct
  apart := near.apart

theorem mine_own (near : Neighbours mine theirs) (area : Area) :
    near.grounds.Mine (mine.own area) := ⟨area, List.prefix_rfl⟩

theorem theirs_own (near : Neighbours mine theirs) (area : Area) :
    near.grounds.Theirs (theirs.own area) := by
  refine ⟨area, ?_⟩
  rw [Party.own, near.places]
  exact List.prefix_rfl

theorem clear_fixtures (near : Neighbours mine theirs) :
    near.grounds.Clear (Place.ofPath mine.config.fixturesPath) :=
  Files.Grounds.clear_of_apart near.fixturesApart List.prefix_rfl

end Neighbours

/-! Places of a run. -/

namespace Party

variable {party : Party} {context : Context} {kept : Tree} {name : String}

theorem Has.tempDirectory (has : party.Has context) :
    Media.tempDirectory context = Files.join (party.directory .temp) party.runId := by
  rw [Media.tempDirectory, has.config, has.runId]
  rfl

theorem Has.temp (has : party.Has context) (isId : IsPart party.runId) :
    Place.ofPath (Media.tempDirectory context) = party.own .temp := by
  rw [has.tempDirectory, isId.ofPath_join]
  rfl

theorem Has.outputPath (has : party.Has context) (isJob : IsPart party.config.jobName)
    (time : Option Calendar.DateTime) : ∃ name, '/' ∉ name.toList ∧
      Media.outputPath context.config time = Files.join (party.directory .output) name := by
  rw [has.config]
  cases time with
  | none => exact ⟨party.config.jobName ++ ".mp4", by simp [isJob.noSlash], rfl⟩
  | some time =>
    exact ⟨party.config.jobName ++ "_" ++ time.stamp ++ ".mp4",
      by simp [isJob.noSlash, time.noSlash_stamp], rfl⟩

theorem Has.snapshots (has : party.Has context) (isJob : IsPart party.config.jobName)
    (isPart : IsPart name) :
    party.own .memory <+:
      Place.ofPath (Snapshots.directory ⟨context.config.memoryPath⟩ context.config.jobName name) := by
  rw [has.config, Snapshots.directory, isPart.ofPath_join, isJob.ofPath_join]
  exact List.prefix_append _ _

end Party

/-! What a run does comes out as if it were alone. -/

/-- The files are alike, and since some calls before the encoder has been asked the same. -/
structure World.Alike (grounds : Files.Grounds Area) (kept : Tree)
    (before beforeAlone : List EncoderCall) (shared alone : World) : Prop where
  files : Tree.Alike grounds kept shared.files alone.files
  asked : ∃ made madeAlone, shared.calls = before ++ made ∧ alone.calls = beforeAlone ++ madeAlone ∧
    made.map EncoderCall.question = madeAlone.map EncoderCall.question

namespace Effect

variable {α : Type} {grounds : Files.Grounds Area} {kept : Tree}
  {before beforeAlone : List EncoderCall} {surroundings : Surroundings}

theorem composes_relates (related : World → World → Prop) :
    Composes fun work => work.Relates related where
  ofExcept _ := Attempt.relates_ofExcept _
  bind := Attempt.Relates.bind
  annotate _ inside := inside.annotate _
  recover first later := first.recover fun error => later error (Attempt.relates_ofExcept _)

theorem onFiles_relates {work : Files.Work α}
    (alike : ∀ shared alone, Tree.Alike grounds kept shared alone →
      (work shared).1 = (work alone).1 ∧ Tree.Alike grounds kept (work shared).2 (work alone).2) :
    (onFiles work).Relates (World.Alike grounds kept before beforeAlone) := by
  intro shared alone holds
  obtain ⟨same, files⟩ := alike _ _ holds.files
  rcases ran : work shared.files with ⟨outcome, left⟩
  rcases also : work alone.files with ⟨outcomeToo, leftToo⟩
  rw [ran, also] at same files
  obtain rfl := same
  simp only [onFiles, ran, also]
  cases outcome with
  | error fault => exact ⟨rfl, files, holds.asked⟩
  | ok a => exact ⟨rfl, files, holds.asked⟩

theorem reads_relates {work : Effect α} (reads : Reads work)
    (alike : ∀ shared alone : World, Tree.Alike grounds kept shared.files alone.files →
      (work shared).1 = (work alone).1) :
    work.Relates (World.Alike grounds kept before beforeAlone) := by
  intro shared alone holds
  refine ⟨alike shared alone holds.files, ?_⟩
  obtain ⟨outcome, ran⟩ := reads
  rw [ran, ran]
  exact holds

theorem send_relates (memoryless : surroundings.network.IsMemoryless) (request : Request) :
    (send surroundings request).Relates (World.Alike grounds kept before beforeAlone) := by
  intro shared alone holds
  have same := memoryless (shared.exchanges.map (·.request)) (alone.exchanges.map (·.request)) request
  by_cases sendable : Web.isSendable request = true
  · simp only [send, Attempt.within, Web.send, if_pos sendable, same]
    exact ⟨trivial, holds.files, holds.asked⟩
  · simp only [send, Attempt.within, Web.send, if_neg sendable]
    exact ⟨trivial, holds.files, holds.asked⟩

theorem encode_relates (memoryless : surroundings.encoder.IsMemoryless) {invocation : Invocation}
    (alike : ∀ shared alone, Tree.Alike grounds kept shared alone →
      EncoderCall.question ⟨invocation, shared⟩ = EncoderCall.question ⟨invocation, alone⟩) :
    (encode surroundings invocation).Relates (World.Alike grounds kept before beforeAlone) := by
  intro shared alone holds
  have same := alike _ _ holds.files
  obtain ⟨made, madeAlone, calls, callsAlone, asked⟩ := holds.asked
  refine ⟨memoryless _ _ _ _ same, holds.files, made ++ [⟨invocation, shared.files⟩],
    madeAlone ++ [⟨invocation, alone.files⟩], ?_, ?_, ?_⟩
  · simp only [encode, calls, List.append_assoc]
  · simp only [encode, callsAlone, List.append_assoc]
  · simp only [List.map_append, asked, List.map_cons, List.map_nil, same]

end Effect

section Own

variable {mine theirs : Party} (near : Neighbours mine theirs) {kept : Tree}
  (stands : mine.Stands kept) {before beforeAlone : List EncoderCall} {surroundings : Surroundings}
  {context : Context} (has : mine.Has context)

include near stands has

/-! Fetches. -/

theorem Fetch.fixture_relates {name : String} (isPart : IsPart name) :
    (fixture context.config name).Relates
      (World.Alike near.grounds kept before beforeAlone) := by
  refine Effect.reads_relates (Effect.readValue_reads _) fun shared alone alike => ?_
  refine Snapshots.readValue_congr ?_
  rw [has.config]
  exact alike.read_join (alike.lookup_eq stands.fixtures near.clear_fixtures) near.clear_fixtures
    (Snapshots.isPart_json isPart.noSlash isPart.noNul)

omit has in
/-- The path to snapshots of the run leads to the same. -/
theorem Files.Tree.Alike.lookup_snapshots {name : String} {shared alone : Tree}
    (alike : Tree.Alike near.grounds kept shared alone) (isPart : IsPart name) :
    shared.lookup (Snapshots.directory ⟨mine.config.memoryPath⟩ mine.config.jobName name) =
      alone.lookup (Snapshots.directory ⟨mine.config.memoryPath⟩ mine.config.jobName name) := by
  have isJob : IsName mine.config.jobName := (near.isPart .memory).1.isName (stands.short .memory)
  have clear : near.grounds.Clear
      (Place.ofPath (Files.join mine.config.memoryPath mine.config.jobName)) := by
    rw [isJob.ofPath_join]
    exact (near.mine_own .memory).clear
  exact alike.lookup_join (alike.lookup_eq ((stands.reaches .memory).join isJob) clear) clear isPart

theorem Fetch.remembered_relates {name : String} (isPart : IsPart name) (useLast : Nat)
    (timedelta : Option Float) :
    (remembered surroundings context.config name useLast timedelta).Relates
      (World.Alike near.grounds kept before beforeAlone) := by
  refine Effect.reads_relates (Effect.remembered_reads _ _ _ _ _) fun shared alone alike => ?_
  have mineToo := (near.mine_own .memory).below (has.snapshots (near.isPart .memory).1 isPart)
  rw [has.config] at mineToo ⊢
  have leads := alike.lookup_snapshots near stands isPart
  have same : Snapshots.SameAnswers ⟨mine.config.memoryPath⟩ mine.config.jobName name alone shared := by
    refine Snapshots.sameAnswers_of_files (alike.list_eq leads mineToo) fun names file listed member => ?_
    obtain ⟨-, -, rfl⟩ := Tree.list_ok_iff.mp listed
    have isFile : IsName file := alike.soundAlone.isName member
    exact alike.read_join leads mineToo.clear isFile.isPart
  cases timedelta with
  | none => exact same.readLast useLast
  | some days => exact same.readClosest days surroundings.now

theorem Fetch.run_relates (memoryless : surroundings.network.IsMemoryless) (scope : Scope)
    (spec : FetchSpec) (named : ∀ name ∈ names spec.family, IsPart name) :
    (run surroundings context scope spec).Relates
      (World.Alike near.grounds kept before beforeAlone) := by
  have pieces : Pieces (fun work => work.Relates (World.Alike near.grounds kept before beforeAlone))
      surroundings context.config (names spec.family) := {
    send := Effect.send_relates memoryless
    fixture := fun name listed => fixture_relates near stands has (named name listed)
    remembered := fun name listed =>
      remembered_relates near stands has (named name listed) }
  exact run_holds (Effect.composes_relates _) pieces spec (List.Subset.refl _)

/-! Sequences. -/

theorem Media.makesOutput_relates (time : Option Calendar.DateTime) :
    (Effect.onFiles (Files.Work.makeDirectories
      (Files.parent (outputPath context.config time)))).Relates
        (World.Alike near.grounds kept before beforeAlone) := by
  obtain ⟨name, plain, path⟩ := has.outputPath (near.isPart .memory).1 time
  obtain ⟨reaches, place⟩ := (stands.reaches .output).parent_join plain
  have notTheirs : ¬near.grounds.Theirs
      (Place.ofPath (Files.parent (Files.join (mine.directory .output) name))) := by
    rw [place]
    exact Files.Grounds.not_theirs_of_above ⟨.output, List.prefix_rfl⟩
  rw [path]
  exact Effect.onFiles_relates fun shared alone alike => alike.makeDirectories reaches.heads notTheirs

theorem Media.assemble_relates (memoryless : surroundings.encoder.IsMemoryless) (scope : Scope)
    (spec : SequenceSpec) : (assemble surroundings context scope spec).Relates
      (World.Alike near.grounds kept before beforeAlone) := by
  have isId : IsName mine.runId := (near.isPart .temp).1.isName (stands.short .temp)
  have reachesTemp : kept.Reaches (tempDirectory context) := by
    rw [has.tempDirectory]
    exact (stands.reaches .temp).join isId
  have clearTemp : near.grounds.Clear (Place.ofPath (tempDirectory context)) := by
    rw [has.temp isId.isPart]
    exact (near.mine_own .temp).clear
  have isList : IsName "input.txt" := by decide
  refine assemble_holds (Effect.composes_relates _) ?_ scope spec
  exact {
    lays := fun scope spec => Attempt.relates_ofExcept _
    makesTemp := Effect.onFiles_relates fun shared alone alike =>
      alike.makeDirectories reachesTemp.heads clearTemp.notTheirs
    makesOutput := makesOutput_relates near stands has
    writesList := fun text => Effect.onFiles_relates fun shared alone alike =>
      alike.write_join (alike.lookup_eq reachesTemp clearTemp) clearTemp isList.isPart text
    joins := Effect.encode_relates memoryless fun shared alone alike => by
      have read : shared.read (listPath context) = alone.read (listPath context) :=
        alike.read_join (alike.lookup_eq reachesTemp clearTemp) clearTemp isList.isPart
      rw [EncoderCall.question, EncoderCall.question, list?_joining, list?_joining]
      exact congrArg (fun text => (joining context, some text)) read
    shows := fun spec clips audio output =>
      Effect.encode_relates memoryless fun shared alone alike => by
        rw [EncoderCall.question, EncoderCall.question, list?_showing, list?_showing]
        rfl }

end Own

/-! Steps. -/

namespace Action

/-- The names under which a step reads fixtures and snapshots. -/
def fetchNames : Action → List String
  | .fetch _ spec => Fetch.names spec.family
  | .transform _ | .transforms _ | .sequence _ => []

/-- A context of a run, with worlds that are alike. -/
def AlikeFor (party : Party) (alike : World → World → Prop) (shared alone : Context × World) : Prop :=
  shared.1 = alone.1 ∧ party.Has shared.1 ∧ alike shared.2 alone.2

variable {α : Type} {party : Party} {alike : World → World → Prop}

theorem has_stable (party : Party) : Edit.Stable party.Has where
  writes path value scope context has := by
    obtain ⟨config, runId⟩ := context.insert_frame path value scope
    exact ⟨config.trans has.config, runId.trans has.runId⟩
  draws _ has := ⟨has.config, has.runId⟩

theorem onContext_relates {edit : Edit α} (keeps : edit.Preserves party.Has) :
    (onContext edit).Relates (AlikeFor party alike) := by
  rintro ⟨context, shared⟩ ⟨_, alone⟩ ⟨rfl, has, worlds⟩
  exact ⟨rfl, rfl, keeps context has, worlds⟩

theorem onWorld_relates {work : Context → Effect α}
    (relates : ∀ context, party.Has context → (work context).Relates alike) :
    (onWorld work).Relates (AlikeFor party alike) := by
  rintro ⟨context, shared⟩ ⟨_, alone⟩ ⟨rfl, has, worlds⟩
  obtain ⟨same, left⟩ := relates context has shared alone worlds
  exact ⟨same, rfl, has, left⟩

end Action

section Own

variable {mine theirs : Party} (near : Neighbours mine theirs) {kept : Tree}
  (stands : mine.Stands kept) {before beforeAlone : List EncoderCall} {surroundings : Surroundings}
  (network : surroundings.network.IsMemoryless) (encoder : surroundings.encoder.IsMemoryless)

include near stands network encoder

/-- A step comes out as if it were alone. -/
theorem Action.run_relates (action : Action) (scope : Scope)
    (named : ∀ name ∈ action.fetchNames, IsPart name) : (action.run surroundings scope).Relates
      (AlikeFor mine (World.Alike near.grounds kept before beforeAlone)) := by
  have stable := has_stable mine
  have writes (path : String) (value : Value) : (onContext (Edit.write path value scope)).Relates
      (AlikeFor mine (World.Alike near.grounds kept before beforeAlone)) :=
    onContext_relates (stable.writes path value scope)
  cases action with
  | fetch key spec =>
    exact (onWorld_relates fun context has =>
      Fetch.run_relates near stands has network scope spec named).bind fun value =>
        ((writes key value).annotate _).bind fun _ => Attempt.relates_pure _
  | transform spec =>
    exact (onContext_relates (Transform.apply_preserves stable _ scope spec)).bind fun _ =>
      Attempt.relates_pure _
  | transforms specs =>
    exact (onContext_relates (Transform.applyAll_preserves stable _ scope specs)).bind fun _ =>
      Attempt.relates_pure _
  | sequence spec =>
    exact (onWorld_relates fun context has =>
      Media.assemble_relates near stands has encoder scope spec).bind fun output =>
        ((writes spec.key (.string output)).annotate _).bind fun _ => Attempt.relates_pure _

omit network encoder in
/-- So does what is stored. -/
theorem Storing.store_relates {context : Context} (has : mine.Has context) (entry : Storing)
    (isPart : IsPart entry.name) : (entry.store surroundings context).Relates
      (World.Alike near.grounds kept before beforeAlone) := by
  have isJob : IsName mine.config.jobName := (near.isPart .memory).1.isName (stands.short .memory)
  have heads : kept.Heads (Snapshots.directory ⟨context.config.memoryPath⟩
      context.config.jobName entry.name) := by
    rw [has.config]
    exact ((stands.reaches .memory).join isJob).heads_join isPart
  have clear := ((near.mine_own .memory).below (has.snapshots isJob.isPart isPart)).clear
  exact (Attempt.relates_ofExcept _).bind fun value =>
    (Effect.onFiles_relates fun shared alone alike =>
      alike.makeDirectories heads clear.notTheirs).bind fun _ =>
    (Effect.onFiles_relates fun shared alone alike =>
      alike.write_join (has.config ▸ alike.lookup_snapshots near stands isPart) clear
        (Snapshots.isPart_file surroundings.now) _).bind fun _ =>
    Attempt.relates_pure _

omit network encoder in
/-- So does clearing up. -/
theorem removeTemp_relates {context : Context} (has : mine.Has context) {shared alone : World}
    (alike : World.Alike near.grounds kept before beforeAlone shared alone) :
    World.Alike near.grounds kept before beforeAlone (removeTemp context shared)
      (removeTemp context alone) := by
  have isId : IsName mine.runId := (near.isPart .temp).1.isName (stands.short .temp)
  have reaches : kept.Reaches (Media.tempDirectory context) := by
    rw [has.tempDirectory]
    exact (stands.reaches .temp).join isId
  have place := has.temp isId.isPart
  have removes : (Effect.onFiles (Files.Work.removeDirectory (Media.tempDirectory context))).Relates
      (World.Alike near.grounds kept before beforeAlone) :=
    Effect.onFiles_relates fun shared alone alike => alike.removeDirectory reaches
      (place ▸ (near.mine_own .temp).clear) (place ▸ stands.outside)
  exact (removes shared alone alike).2

end Own

/-! Actions. -/

namespace Course

/-- The course is one of the run, and goes by names that make up parts of paths. -/
structure Of (party : Party) (course : Course) : Prop where
  has : party.Has course.context
  fetches : ∀ stage ∈ course.ahead, ∀ name ∈ stage.step.action.fetchNames, IsPart name
  entries : ∀ entry ∈ course.storing, IsPart entry.name

variable {mine theirs : Party} {surroundings : Surroundings} {course : Course}

theorem Of.act (of : course.Of mine) (world : World) : (course.act surroundings world).1.Of mine := by
  rcases ahead : course.ahead with _ | ⟨stage, rest⟩
  · rcases storing : course.storing with _ | ⟨entry, rest⟩
    · cases cleared : course.cleared with
      | false =>
        rw [act_of_waiting ahead storing cleared]
        exact ⟨of.has, of.fetches, of.entries⟩
      | true =>
        rw [act_of_cleared ahead storing cleared]
        exact of
    · rw [act_of_storing ahead storing]
      have entries : ∀ other ∈ rest, IsPart other.name := fun other member =>
        of.entries other (storing ▸ List.mem_cons_of_mem entry member)
      dsimp only
      rcases (entry.store surroundings course.context world).1 with error | path
      · exact ⟨of.has, of.fetches, nofun⟩
      · exact ⟨of.has, of.fetches, entries⟩
  · rw [act_of_ahead ahead]
    obtain ⟨config, runId⟩ := stage.step.action.run_frame surroundings Scope.root mine.config mine.runId
      (course.context, world) ⟨of.has.config, of.has.runId⟩
    have fetches : ∀ other ∈ rest, ∀ name ∈ other.step.action.fetchNames, IsPart name :=
      fun other member => of.fetches other (ahead ▸ List.mem_cons_of_mem stage member)
    dsimp only
    rcases (stage.step.action.run surroundings Scope.root (course.context, world)).1 with error | path
    · exact ⟨⟨config, runId⟩, nofun, nofun⟩
    · exact ⟨⟨config, runId⟩, fetches, of.entries⟩

section Own

variable (near : Neighbours mine theirs) {kept : Tree} (stands : mine.Stands kept)
  {before beforeAlone : List EncoderCall}
  (network : surroundings.network.IsMemoryless) (encoder : surroundings.encoder.IsMemoryless)

include near stands network encoder

/-- The next action of a run comes out as if it were alone. -/
theorem act_relates (of : course.Of mine) {shared alone : World}
    (alike : World.Alike near.grounds kept before beforeAlone shared alone) :
    (course.act surroundings shared).1 = (course.act surroundings alone).1 ∧
      World.Alike near.grounds kept before beforeAlone (course.act surroundings shared).2
        (course.act surroundings alone).2 := by
  rcases ahead : course.ahead with _ | ⟨stage, rest⟩
  · rcases storing : course.storing with _ | ⟨entry, rest⟩
    · cases cleared : course.cleared with
      | false =>
        rw [act_of_waiting ahead storing cleared, act_of_waiting ahead storing cleared]
        exact ⟨rfl, removeTemp_relates near stands of.has alike⟩
      | true =>
        rw [act_of_cleared ahead storing cleared, act_of_cleared ahead storing cleared]
        exact ⟨rfl, alike⟩
    · rw [act_of_storing ahead storing, act_of_storing ahead storing]
      have isPart : IsPart entry.name := of.entries entry (storing ▸ List.mem_cons_self)
      obtain ⟨same, left⟩ := Storing.store_relates near stands of.has entry isPart shared alone alike
      exact ⟨congrArg (course.remembered rest) same, left⟩
  · rw [act_of_ahead ahead, act_of_ahead ahead]
    have named : ∀ name ∈ stage.step.action.fetchNames, IsPart name :=
      of.fetches stage (ahead ▸ List.mem_cons_self)
    obtain ⟨same, context, -, left⟩ := Action.run_relates near stands network encoder
      stage.step.action Scope.root named (course.context, shared) (course.context, alone)
      ⟨rfl, of.has, alike⟩
    dsimp only
    rw [same, context]
    exact ⟨rfl, left⟩

end Own

end Course

/-! What the other run does makes no difference. -/

section Theirs

variable {mine theirs : Party} (near : Neighbours mine theirs) {kept alone : Tree}
  (stands : theirs.Stands kept) {surroundings : Surroundings}

include near stands

omit stands in
/-- The other run makes a directory of its own, or one above what is its own. -/
theorem Files.Tree.Alike.makesTheirs (area : Area) {path : String} {shared : Tree}
    (alike : Tree.Alike near.grounds kept shared alone) (heads : kept.Heads path)
    (above : Place.ofPath path <+: theirs.own area) :
    Tree.Alike near.grounds kept (Files.Work.makeDirectories path shared).2 alone :=
  alike.changed (near.theirs_own area)
    (Files.Work.makeDirectories_changed
      (heads.of_keeps fun place there => (alike.keeps place there).1) above)
    (Files.Work.makeDirectories_sound alike.sound path)

theorem Media.makesOutput_unnoticed {context : Context} (has : theirs.Has context)
    (time : Option Calendar.DateTime) : (Effect.onFiles (Files.Work.makeDirectories
      (Files.parent (outputPath context.config time)))).Preserves
        fun world => Tree.Alike near.grounds kept world.files alone := by
  obtain ⟨name, plain, path⟩ := has.outputPath (near.isPart .memory).2 time
  obtain ⟨reaches, place⟩ := (stands.reaches .output).parent_join plain
  rw [path]
  refine Effect.onFiles_preserves (Tree.Alike near.grounds kept · alone) fun tree alike =>
    alike.makesTheirs near .output reaches.heads ?_
  rw [place]
  exact List.prefix_append _ _

theorem Media.assemble_unnoticed {context : Context} (has : theirs.Has context) (scope : Scope)
    (spec : SequenceSpec) : (assemble surroundings context scope spec).Preserves
      fun world => Tree.Alike near.grounds kept world.files alone := by
  have isId : IsName theirs.runId := (near.isPart .temp).2.isName (stands.short .temp)
  have isList : IsName "input.txt" := by decide
  have place := has.temp isId.isPart
  have reaches : kept.Reaches (tempDirectory context) := by
    rw [has.tempDirectory]
    exact (stands.reaches .temp).join isId
  have above : Place.ofPath (tempDirectory context) <+: theirs.own .temp :=
    place ▸ List.prefix_rfl
  have inside : theirs.own .temp <+: Place.ofPath (listPath context) := by
    rw [listPath, isList.ofPath_join, place]
    exact List.prefix_append _ _
  let invariant (tree : Tree) : Prop := Tree.Alike near.grounds kept tree alone
  refine assemble_holds (Effect.composes_preserves _) ?_ scope spec
  exact {
    lays := fun scope spec => Attempt.preserves_ofExcept _
    makesTemp := Effect.onFiles_preserves invariant fun tree alike =>
      alike.makesTheirs near .temp reaches.heads above
    makesOutput := makesOutput_unnoticed near stands has
    writesList := fun text => Effect.onFiles_preserves invariant fun tree alike =>
      alike.changed (near.theirs_own .temp) (Files.Work.write_changed inside text tree)
        (Files.Work.write_sound alike.sound _ text)
    joins := fun _ alike => alike
    shows := fun _ _ _ _ _ alike => alike }

theorem Action.run_unnoticed (action : Action) (scope : Scope) :
    (action.run surroundings scope).Preserves fun state =>
      theirs.Has state.1 ∧ Tree.Alike near.grounds kept state.2.files alone := by
  refine run_preserves (fun world => ?_) ?_ ?_ action scope
  · exact {
      writes := fun path value scope context holds =>
        ⟨(has_stable theirs).writes path value scope context holds.1, holds.2⟩
      draws := fun context holds => ⟨(has_stable theirs).draws context holds.1, holds.2⟩ }
  · intro context scope spec world holds
    have sends (request : Request) : (Effect.send surroundings request).Preserves
        fun world => Tree.Alike near.grounds kept world.files alone := fun _ alike => alike
    exact ⟨holds.1, Fetch.run_preserves sends context scope spec world holds.2⟩
  · intro context scope spec world holds
    exact ⟨holds.1, Media.assemble_unnoticed near stands holds.1 scope spec world holds.2⟩

theorem Storing.store_unnoticed {context : Context} (has : theirs.Has context) (entry : Storing)
    (isPart : IsPart entry.name) : (entry.store surroundings context).Preserves
      fun world => Tree.Alike near.grounds kept world.files alone := by
  have isJob : IsName theirs.config.jobName := (near.isPart .memory).2.isName (stands.short .memory)
  have heads : kept.Heads (Snapshots.directory ⟨context.config.memoryPath⟩
      context.config.jobName entry.name) := by
    rw [has.config]
    exact ((stands.reaches .memory).join isJob).heads_join isPart
  refine (Attempt.preserves_ofExcept _).bind fun value world alike => ?_
  obtain ⟨changed, sound⟩ := Snapshots.store_changed
    (heads.of_keeps fun place there => (alike.keeps place there).1) alike.sound value
    surroundings.now
  exact alike.changed ((near.theirs_own .memory).below (has.snapshots isJob.isPart isPart)) changed sound

theorem removeTemp_unnoticed {context : Context} (has : theirs.Has context) {world : World}
    (alike : Tree.Alike near.grounds kept world.files alone) :
    Tree.Alike near.grounds kept (removeTemp context world).files alone := by
  have place := has.temp (near.isPart .temp).2
  exact Effect.onFiles_preserves (Tree.Alike near.grounds kept · alone)
    (fun tree alike => alike.removed (place ▸ near.theirs_own .temp) (place ▸ stands.outside))
    world alike

/-- The next action of the other run makes no difference. -/
theorem Course.act_unnoticed {course : Course} (of : course.Of theirs) {world : World}
    (alike : Tree.Alike near.grounds kept world.files alone) :
    Tree.Alike near.grounds kept (course.act surroundings world).2.files alone := by
  rcases ahead : course.ahead with _ | ⟨stage, rest⟩
  · rcases storing : course.storing with _ | ⟨entry, rest⟩
    · cases cleared : course.cleared with
      | false =>
        rw [act_of_waiting ahead storing cleared]
        exact removeTemp_unnoticed near stands of.has alike
      | true =>
        rw [act_of_cleared ahead storing cleared]
        exact alike
    · rw [act_of_storing ahead storing]
      exact Storing.store_unnoticed near stands of.has entry
        (of.entries entry (storing ▸ List.mem_cons_self)) world alike
  · rw [act_of_ahead ahead]
    exact (Action.run_unnoticed near stands stage.step.action Scope.root (course.context, world)
      ⟨of.has, alike⟩).2

end Theirs

end Newsreel
