import Newsreel.Proofs.Run.Beside
import Newsreel.Proofs.Run.Reports

/-!
Two runs at once.

The runs share the files, and their actions are taken in any order. If they go by different names in
the same directories, which lie side by side, each of them ends as it does alone: it gives the same
result, leaves the same data and the same states of its steps, asks the same of the encoder and
stores the same snapshots.

The directories are given by paths that only go down once they have come past directories that stay,
and the runs go by names that are short enough for files. Without the one, a path may lead back up
through a directory that the other run makes; without the other, it depends on such a directory
whether a name is found to be too long. Runs may meet in both ways.
-/

namespace Newsreel

open Files (IsPart Place Tree)

inductive Side where
  | left
  | right
  deriving DecidableEq

def Side.other : Side → Side
  | .left => .right
  | .right => .left

/-- A run to be made. -/
structure Launch where
  surroundings : Surroundings
  config : JobConfig
  pipeline : Pipeline

namespace Launch

def party (launch : Launch) : Party :=
  ⟨launch.config, (launch.pipeline.begun launch.surroundings).run.runId⟩

def course (launch : Launch) : Course := launch.pipeline.course launch.surroundings launch.config

/-- The run with nobody else at work. -/
def alone (launch : Launch) (world : World) : Execution :=
  launch.pipeline.execute launch.surroundings launch.config world

end Launch

/-- Two runs at once, between two actions. -/
structure Crossing where
  world : World
  course : Side → Course
  /-- What each of the runs has started the encoder with. -/
  calls : Side → List EncoderCall

namespace Crossing

def start (launches : Side → Launch) (world : World) : Crossing where
  world
  course side := (launches side).course
  calls _ := []

/-- One of the runs takes its next action. -/
def act (launches : Side → Launch) (crossing : Crossing) (side : Side) : Crossing :=
  let acted := (crossing.course side).act (launches side).surroundings crossing.world
  let started := acted.2.calls.drop crossing.world.calls.length
  { world := acted.2
    course := Function.update crossing.course side acted.1
    calls := Function.update crossing.calls side (crossing.calls side ++ started) }

/-- The runs take turns. -/
def run (launches : Side → Launch) (world : World) (turns : List Side) : Crossing :=
  turns.foldl (act launches) (start launches world)

/-- What one of the runs has come to. -/
def execution (launches : Side → Launch) (crossing : Crossing) (side : Side) : Execution :=
  (crossing.course side).execution (launches side).surroundings
    ((launches side).pipeline.begun (launches side).surroundings) crossing.world

/-- One of the runs has ended, and it has ended as it does alone. -/
structure EndsAlone (launches : Side → Launch) (world : World) (crossing : Crossing) (side : Side) :
    Prop where
  ended : (crossing.course side).left = 0
  result : (crossing.execution launches side).result = ((launches side).alone world).result
  pipeline : (crossing.execution launches side).pipeline = ((launches side).alone world).pipeline
  events : (crossing.execution launches side).events = ((launches side).alone world).events
  context : (crossing.course side).context = ((launches side).pipeline.stagesRun
    (launches side).surroundings (launches side).config world).context
  calls : (crossing.calls side).map EncoderCall.question =
    (((launches side).alone world).world.calls.drop world.calls.length).map EncoderCall.question
  snapshots : ∀ place, (launches side).party.own .memory <+: place →
    crossing.world.files.entry? place =
      Tree.entry? ((launches side).alone world).world.files place

end Crossing

/-- Runs on the same directories, which lie side by side, under different names of jobs and different
ids, with names that make up parts of paths for jobs and for everything that is fetched and stored,
and with servers and encoders whose answers depend on what they are asked alone. -/
structure Unrelated (launches : Side → Launch) : Prop where
  near : Neighbours (launches .left).party (launches .right).party
  fetches : ∀ side, ∀ step ∈ (launches side).pipeline.steps, ∀ name ∈ step.action.fetchNames,
    IsPart name
  entries : ∀ side, ∀ entry ∈ (launches side).pipeline.storing, IsPart entry.name
  network : ∀ side, (launches side).surroundings.network.IsMemoryless
  encoder : ∀ side, (launches side).surroundings.encoder.IsMemoryless

/-- The files but for those of the runs in the directory for intermediate files. -/
def World.lasting (launches : Side → Launch) (world : World) : Tree :=
  (world.files.prune ((launches .left).party.own .temp)).prune ((launches .right).party.own .temp)

/-- Paths to the directories of the runs only go down, once past directories that stay, and what the
runs go by in them is short enough for the names of files. -/
structure Grounded (launches : Side → Launch) (world : World) : Prop where
  short : ∀ side area, ((launches side).party.name area).utf8ByteSize ≤ Place.nameLimit
  reaches : ∀ area, (world.lasting launches).Reaches ((launches .left).party.directory area)
  fixtures : (world.lasting launches).Reaches (launches .left).config.fixturesPath

namespace Unrelated

variable {launches : Side → Launch} {world : World} {side : Side} {place : Place}

theorem nearTo (unrelated : Unrelated launches) (side : Side) :
    Neighbours (launches side).party (launches side.other).party :=
  match side with
  | .left => unrelated.near
  | .right => unrelated.near.symm

/-- What stays lies outside the directories of the runs for intermediate files. -/
theorem outside (unrelated : Unrelated launches)
    (there : Tree.entry? (world.lasting launches) place = some .directory) (side : Side) :
    ¬(launches side).party.own .temp <+: place := by
  intro inside
  have isPart : IsPart ((launches side).party.name .temp) := ((unrelated.nearTo side).isPart .temp).1
  have notStart : place.isStart = false := by
    by_contra start
    have above := Tree.isStart_of_prefix inside (Bool.not_eq_false _ ▸ start)
    rw [Party.own, isPart.isStart] at above
    cases above
  rw [World.lasting] at there
  by_cases right : (launches .right).party.own .temp <+: place
  · rw [Tree.entry?_prune_inside notStart right] at there
    cases there
  · rw [Tree.entry?_prune_outside right] at there
    cases side with
    | left =>
      rw [Tree.entry?_prune_inside notStart inside] at there
      cases there
    | right => exact right inside

theorem keeps (unrelated : Unrelated launches)
    (there : Tree.entry? (world.lasting launches) place = some .directory) :
    world.files.entry? place = some .directory := by
  have left := unrelated.outside there .left
  have right := unrelated.outside there .right
  rwa [World.lasting, Tree.entry?_prune_outside right, Tree.entry?_prune_outside left] at there

theorem stands (unrelated : Unrelated launches) (grounded : Grounded launches world) (side : Side) :
    (launches side).party.Stands (world.lasting launches) := by
  cases side with
  | left =>
    exact ⟨grounded.short .left, grounded.reaches, grounded.fixtures,
      fun _ there => unrelated.outside there .left⟩
  | right =>
    refine ⟨grounded.short .right, fun area => ?_, ?_, fun _ there => unrelated.outside there .right⟩
    · rw [unrelated.near.directories]
      exact grounded.reaches area
    · have same := unrelated.near.fixtures
      exact same ▸ grounded.fixtures

theorem course_of (unrelated : Unrelated launches) (side : Side) :
    (launches side).course.Of (launches side).party where
  has := ⟨rfl, rfl⟩
  fetches stage member := by
    refine unrelated.fetches side stage.step ?_
    rw [← (launches side).pipeline.steps_begun (launches side).surroundings]
    exact List.mem_map_of_mem member
  entries := unrelated.entries side

end Unrelated

namespace Crossing

variable {launches : Side → Launch} {world : World} {crossing : Crossing} {side : Side}
  {alone : Course × World}

theorem course_act (launches : Side → Launch) (crossing : Crossing) (turn : Side) :
    (crossing.act launches turn).course turn =
      ((crossing.course turn).act (launches turn).surroundings crossing.world).1 :=
  Function.update_self _ _ _

theorem course_act_other {turn : Side} (apart : side ≠ turn) :
    (crossing.act launches turn).course side = crossing.course side :=
  Function.update_of_ne apart _ _

theorem calls_act (launches : Side → Launch) (crossing : Crossing) (turn : Side) :
    (crossing.act launches turn).calls turn = crossing.calls turn ++
      ((crossing.course turn).act (launches turn).surroundings crossing.world).2.calls.drop
        crossing.world.calls.length :=
  Function.update_self _ _ _

theorem calls_act_other {turn : Side} (apart : side ≠ turn) :
    (crossing.act launches turn).calls side = crossing.calls side :=
  Function.update_of_ne apart _ _

theorem act_of (of : ∀ side, (crossing.course side).Of (launches side).party) (turn side : Side) :
    ((crossing.act launches turn).course side).Of (launches side).party := by
  by_cases same : side = turn
  · subst same
    rw [course_act]
    exact (of side).act crossing.world
  · rw [course_act_other same]
    exact of side

/-- A run that takes turn after turn goes on as it would alone in the world that it finds. -/
theorem foldl_replicate (launches : Side → Launch) (crossing : Crossing) (side : Side)
    (count : Nat) :
    (((List.replicate count side).foldl (act launches) crossing).course side,
        ((List.replicate count side).foldl (act launches) crossing).world) =
      Course.turns (launches side).surroundings count (crossing.course side, crossing.world) ∧
    ((List.replicate count side).foldl (act launches) crossing).course side.other =
      crossing.course side.other := by
  induction count with
  | zero => exact ⟨rfl, rfl⟩
  | succ count ih =>
    have apart : side.other ≠ side := by cases side <;> decide
    obtain ⟨mine, others⟩ := ih
    rw [List.replicate_succ', List.foldl_append, Course.turns_succ, ← mine]
    refine ⟨Prod.ext (course_act launches _ side) rfl, ?_⟩
    exact (course_act_other apart).trans others

/-- One of two runs at once, beside the same run alone. -/
structure Beside (near : Neighbours (launches side).party (launches side.other).party)
    (world : World) (crossing : Crossing) (alone : Course × World) : Prop where
  of : ∀ side, (crossing.course side).Of (launches side).party
  course : crossing.course side = alone.1
  files : Tree.Alike near.grounds (world.lasting launches) crossing.world.files alone.2.files
  asked : ∃ made, alone.2.calls = world.calls ++ made ∧
    (crossing.calls side).map EncoderCall.question = made.map EncoderCall.question

theorem start_beside (unrelated : Unrelated launches) (sound : world.files.Sound) (side : Side) :
    Beside (unrelated.nearTo side) world (start launches world) ((launches side).course, world) where
  of := unrelated.course_of
  course := rfl
  files := .refl _ sound fun _ there => unrelated.keeps there
  asked := ⟨[], (List.append_nil _).symm, rfl⟩

section Act

variable (unrelated : Unrelated launches) (grounded : Grounded launches world)

include unrelated grounded

/-- The next action of the run is its next action alone. -/
theorem Beside.acts (beside : Beside (unrelated.nearTo side) world crossing alone) :
    Beside (unrelated.nearTo side) world (crossing.act launches side)
      (alone.1.act (launches side).surroundings alone.2) := by
  have begins : World.Alike (unrelated.nearTo side).grounds (world.lasting launches)
      crossing.world.calls alone.2.calls crossing.world alone.2 :=
    ⟨beside.files, [], [], (List.append_nil _).symm, (List.append_nil _).symm, rfl⟩
  obtain ⟨same, alike⟩ := (crossing.course side).act_relates (unrelated.nearTo side)
    (unrelated.stands grounded side) (unrelated.network side) (unrelated.encoder side)
    (beside.of side) begins
  rw [beside.course] at same alike
  obtain ⟨made, calls, asked⟩ := beside.asked
  obtain ⟨more, moreAlone, grown, grownAlone, askedMore⟩ := alike.asked
  refine ⟨act_of beside.of side, ?_, ?_, made ++ moreAlone, ?_, ?_⟩
  · rw [course_act, beside.course, same]
  · change Tree.Alike _ _ ((crossing.course side).act _ _).2.files _
    rw [beside.course]
    exact alike.files
  · rw [grownAlone, calls, List.append_assoc]
  · rw [calls_act, beside.course, grown, List.drop_left, List.map_append, List.map_append, asked,
      askedMore]

/-- The next action of the other run makes no difference. -/
theorem Beside.otherActs (beside : Beside (unrelated.nearTo side) world crossing alone) :
    Beside (unrelated.nearTo side) world (crossing.act launches side.other) alone := by
  have apart : side ≠ side.other := by cases side <;> decide
  refine ⟨act_of beside.of side.other, ?_, ?_, ?_⟩
  · rw [course_act_other apart, beside.course]
  · exact Course.act_unnoticed (unrelated.nearTo side) (unrelated.stands grounded side.other)
      (beside.of side.other) beside.files
  · rw [calls_act_other apart]
    exact beside.asked

/-- Whatever the order, the run is where it is alone after as many actions. -/
theorem run_beside (sound : world.files.Sound) (turns : List Side) (side : Side) :
    Beside (unrelated.nearTo side) world (run launches world turns)
      (Course.turns (launches side).surroundings (turns.count side)
        ((launches side).course, world)) := by
  induction turns using List.reverseRecOn with
  | nil => exact start_beside unrelated sound side
  | append_singleton turns turn ih =>
    rw [run, List.foldl_append, List.count_append]
    by_cases same : turn = side
    · subst same
      rw [List.count_singleton_self, Course.turns_succ]
      exact ih.acts unrelated grounded
    · have other : turn = side.other := by
        cases turn <;> cases side <;> first | rfl | exact absurd rfl same
      subst other
      rw [List.count_singleton, if_neg (by simpa using same), Nat.add_zero]
      exact ih.otherActs unrelated grounded

end Act

/-- Two runs that go by different names in the same directories, which lie side by side, do not meet.
Whatever the order of their actions, each run that gets as many turns as it has actions comes to its
end, and it ends as it does alone. -/
theorem run_endsAlone (unrelated : Unrelated launches) (sound : world.files.Sound)
    (grounded : Grounded launches world) (turns : List Side)
    (enough : (launches side).course.left ≤ turns.count side) :
    EndsAlone launches world (run launches world turns) side := by
  have beside := run_beside unrelated grounded sound turns side
  rw [Course.turns_eq_finish _ enough] at beside
  generalize finished : Course.finish (launches side).surroundings ((launches side).course, world) =
    final at beside
  obtain ⟨executed, context⟩ := Pipeline.execution_finish finished
  have execution : (run launches world turns).execution launches side =
      { (launches side).alone world with world := (run launches world turns).world } := by
    rw [Crossing.execution, beside.course, Course.execution_eq _ _ _ _ final.2, executed]
    rfl
  have world_eq : ((launches side).alone world).world = final.2 := by
    rw [Launch.alone, ← executed, Course.execution_eq _ _ _ final.2 final.2]
  obtain ⟨made, calls, asked⟩ := beside.asked
  exact {
    ended := by
      rw [beside.course, ← finished]
      exact Course.left_finish _ _
    result := by rw [execution]
    pipeline := by rw [execution]
    events := by rw [execution]
    context := by rw [beside.course, context]
    calls := by rw [world_eq, calls, List.drop_left, asked]
    snapshots := fun place below => by
      rw [world_eq]
      exact beside.files.entry?_eq
        (((unrelated.nearTo side).mine_own .memory).below below).clear }

/-! Two runs on one table. -/

/-- A job that keeps everything below the working directory, its snapshots at the given path. -/
def bench (memoryPath jobName : String) : JobConfig :=
  { Pipeline.desk with jobName, memoryPath, fixturesPath := "fixtures" }

/-- A run that has the sun for the sky and stores it. -/
def telling : Pipeline where
  name := "news"
  description := none
  stages := [⟨⟨0, "input", none, .fetch "_req" (.mk .input "input" none (.input (.string "sun")))⟩,
    .pending⟩]
  storing := [⟨"sky", "_req"⟩]
  run := { runId := "22222222-3333-4444-8555-666666666666" }

/-- A run that makes a video and stores where it lies. -/
def showing : Pipeline := { Pipeline.single with storing := [⟨"film", defaultSequenceKey⟩] }

/-- A video for one job, and the sky for another one. -/
def pair : Side → Launch
  | .left => ⟨Action.offline, bench "memory" "news", showing⟩
  | .right => ⟨Action.offline, bench "memory" "sport", telling⟩

theorem offline_isMemoryless : Action.offline.network.IsMemoryless ∧
    Action.offline.encoder.IsMemoryless :=
  ⟨fun _ _ _ => rfl, fun _ _ _ _ _ => rfl⟩

theorem pair_unrelated : Unrelated pair where
  near := by decide +kernel
  fetches side := by cases side <;> decide +kernel
  entries side := by cases side <;> decide +kernel
  network side := by cases side <;> exact offline_isMemoryless.1
  encoder side := by cases side <;> exact offline_isMemoryless.2

theorem run_endsAlone_pair :
    Unrelated pair ∧ Tree.Sound {} ∧ Grounded pair {} ∧
      EndsAlone pair {} (run pair {} [.right, .left, .right, .left, .right, .left]) .left ∧
      EndsAlone pair {} (run pair {} [.right, .left, .right, .left, .right, .left]) .right := by
  have reaches (path : String) (down : Files.Descends (Files.parts path)) :
      (World.lasting pair {}).Reaches path := Tree.reaches_of_descends down
  have grounded : Grounded pair {} :=
    ⟨fun side area => by cases side <;> cases area <;> decide +kernel,
      fun area => reaches _ (by cases area <;> decide +kernel), reaches _ (by decide +kernel)⟩
  exact ⟨pair_unrelated, Tree.sound_empty, grounded,
    run_endsAlone pair_unrelated Tree.sound_empty grounded _ (by decide +kernel),
    run_endsAlone pair_unrelated Tree.sound_empty grounded _ (by decide +kernel)⟩

/-! Runs that meet. -/

/-- A run that reads the last snapshot of the sky. -/
def recalling : Pipeline where
  name := "news"
  description := none
  stages := [⟨⟨0, "memory", none, .fetch "_req" (.mk .memory "sky" none (.memory 1 none none))⟩,
    .pending⟩]
  storing := []
  run := { runId := "11111111-2222-4333-8444-555555555555" }

/-- One job remembers the sky, and another one stores it. -/
def remembrance (memoryPath jobName : String) : Side → Launch
  | .left => ⟨Action.offline, bench memoryPath jobName, recalling⟩
  | .right => ⟨Action.offline, bench memoryPath "sport", telling⟩

theorem remembrance_unrelated {memoryPath jobName : String}
    (near : Neighbours (remembrance memoryPath jobName .left).party
      (remembrance memoryPath jobName .right).party) :
    Unrelated (remembrance memoryPath jobName) where
  near
  fetches side := by
    have names (pipeline : Pipeline) (listed : pipeline = recalling ∨ pipeline = telling) :
        ∀ step ∈ pipeline.steps, ∀ name ∈ step.action.fetchNames, IsPart name := by
      rcases listed with rfl | rfl <;> decide +kernel
    cases side with
    | left => exact names _ (Or.inl rfl)
    | right => exact names _ (Or.inr rfl)
  entries side := by
    cases side with
    | left => exact nofun
    | right => exact (by decide +kernel : ∀ entry ∈ telling.storing, IsPart entry.name)
  network side := by cases side <;> exact offline_isMemoryless.1
  encoder side := by cases side <;> exact offline_isMemoryless.2

/-- A run that comes second gives what it gives alone in the world that the first one leaves. -/
theorem result_second (launches : Side → Launch) (world : World) {first second : Nat}
    (enoughFirst : (launches .right).course.left ≤ first)
    (enoughSecond : (launches .left).course.left ≤ second) :
    ((run launches world (List.replicate first .right ++
        List.replicate second .left)).execution launches .left).result =
      ((launches .left).alone ((launches .right).alone world).world).result := by
  obtain ⟨told, waiting⟩ := foldl_replicate launches (start launches world) .right first
  rw [run, List.foldl_append]
  generalize (List.replicate first Side.right).foldl (act launches) (start launches world) =
    between at told waiting ⊢
  obtain ⟨ended, -⟩ := foldl_replicate launches between .left second
  generalize (List.replicate second Side.left).foldl (act launches) between = final at ended ⊢
  have course : between.course .left = (launches .left).course := waiting
  rw [Course.turns_eq_finish _ enoughFirst] at told
  have left : ((launches .right).alone world).world = between.world := by
    have executed : _ = (launches .right).alone world := (Pipeline.execution_finish told.symm).1
    rw [← executed, Course.execution_eq _ _ _ _ {}]
  rw [course, Course.turns_eq_finish _ enoughSecond] at ended
  rw [left, Launch.alone, ← (Pipeline.execution_finish ended.symm).1]
  rfl

/-- The run has ended for want of a snapshot. -/
def missed : Except StepError RunReport → Bool
  | .error error => error.isCacheMiss
  | .ok _ => false

/-- Where the snapshots cannot be listed, none is missed unless there is nothing to be listed. -/
theorem missed_recalling (config : JobConfig) (world : World) {fault : FileFault}
    (failed : world.files.list
      (Snapshots.directory ⟨config.memoryPath⟩ config.jobName "sky") = .error fault) :
    missed (recalling.execute Action.offline config world).result = decide (fault = .notFound) := by
  obtain ⟨error, entries, cause⟩ : ∃ error,
      Snapshots.entries ⟨config.memoryPath⟩ config.jobName "sky" world = (.error error, world) ∧
        error.isCacheMiss = decide (fault = .notFound) := by
    simp only [Snapshots.entries, Attempt.look, failed]
    cases fault <;> exact ⟨_, rfl, rfl⟩
  have read : Snapshots.readLast ⟨config.memoryPath⟩ config.jobName "sky" 1 world =
      (.error error, world) := Attempt.bind_run_error entries
  have ran (context : Context) (same : context.config = config) :
      Fetch.run Action.offline context Scope.root
          (.mk .memory "sky" none (.memory 1 none none)) world =
        (.error (.fetch .memory "sky" error), world) := by
    rw [Fetch.run, Fetch.runVariant_memory_eq, same, Attempt.annotate_error_iff]
    refine ⟨error, (Attempt.tryCatch_run_error read).trans ?_, rfl⟩
    split <;> rfl
  have result : (recalling.execute Action.offline config world).result =
      .error (.fetch .memory "sky" error) := by
    have acted (context : Context) (same : context.config = config) :
        Action.run Action.offline Scope.root
            (.fetch "_req" (.mk .memory "sky" none (.memory 1 none none))) (context, world) =
          (.error (.fetch .memory "sky" error), (context, world)) := by
      refine Attempt.bind_run_error ?_
      rw [Action.onWorld, ran context same]
    refine Pipeline.execute_result_of_error Action.offline ?_
    change (runStages Action.offline 0 none (Context.start config _) world
      [⟨⟨0, "memory", none, _⟩, _⟩]).result = _
    rw [runStages]
    simp only [acted (Context.start config _) rfl]
  rw [result]
  exact cause

/-- Unrelated runs, of which one comes to its end, but not to the one that it comes to alone. -/
structure Meet (launches : Side → Launch) (world : World) (turns : List Side) (side : Side) :
    Prop where
  unrelated : Unrelated launches
  sound : world.files.Sound
  enough : (launches side).course.left ≤ turns.count side
  apart : ¬EndsAlone launches world (run launches world turns) side

/-- The other run comes to its end, and then the first one does. -/
def rightFirst : List Side := List.replicate 3 .right ++ List.replicate 2 .left

theorem remembrance_meet {memoryPath jobName : String} {world : World}
    (near : Neighbours (remembrance memoryPath jobName .left).party
      (remembrance memoryPath jobName .right).party) (sound : world.files.Sound)
    (alone : missed ((remembrance memoryPath jobName .left).alone world).result = true)
    (found : missed ((remembrance memoryPath jobName .left).alone
      ((remembrance memoryPath jobName .right).alone world).world).result = false) :
    Meet (remembrance memoryPath jobName) world rightFirst .left where
  unrelated := remembrance_unrelated near
  sound := sound
  enough := Nat.le_refl 2
  apart endsAlone := by
    have result := endsAlone.result
    rw [rightFirst, result_second _ _ (Nat.le_refl 3) (Nat.le_refl 2)] at result
    rw [result, alone] at found
    cases found

/-- That a name is too long is found out only in a directory that is there, which the other run may
have made. -/
theorem overlong_meet {jobName : String} (isPart : IsPart jobName)
    (long : Place.nameLimit < jobName.utf8ByteSize) :
    Meet (remembrance "memory" jobName) {} rightFirst .left := by
  have near : Neighbours (remembrance "memory" "news" .left).party
      (remembrance "memory" "news" .right).party := by decide +kernel
  have other : jobName ≠ "sport" := by
    rintro rfl
    exact absurd long (by decide)
  have some : Files.join "memory" jobName ≠ "" := by
    obtain ⟨base, joined, -⟩ := Files.join_eq (by decide : "memory" ≠ "") isPart.noSlash
    simp [joined]
  have unlisted {tree : Tree} {fault : FileFault}
      (failed : tree.lookup (Files.join "memory" jobName) = .error fault) :
      tree.list (Snapshots.directory ⟨"memory"⟩ jobName "sky") = .error fault :=
    Tree.list_of_error (Tree.lookup_join_error some (by decide) failed)
  -- Where the directories lie does not depend on the job.
  refine remembrance_meet { near with
    isPart := fun area => ?_
    distinct := fun area => ?_ } Tree.sound_empty ?_ ?_
  · cases area with
    | temp => exact near.isPart .temp
    | memory => exact ⟨isPart, (near.isPart .memory).2⟩
    | output => exact ⟨isPart, (near.isPart .output).2⟩
  · cases area with
    | temp => exact near.distinct .temp
    | memory => exact other
    | output => exact other
  · have missing : Tree.lookup {} "memory" = .error .notFound := by decide +kernel
    exact missed_recalling (bench "memory" jobName) {}
      (unlisted (Tree.lookup_join_error (by decide) isPart missing))
  · have made : Tree.lookup ((remembrance "memory" "news" .right).alone {}).world.files "memory" =
        .ok .directory := by decide +kernel
    exact missed_recalling (bench "memory" jobName) _
      (unlisted (Tree.lookup_join_long (by decide) isPart made long))

/-- A world with a snapshot of the sky. -/
def remembering : World where
  files := (Files.Work.write "memory/news/sky/2020-06-14_07-00-00.json" "\"sun\""
    (Files.Work.makeDirectories "memory/news/sky" {}).2).2

/-- A name that is too long for a file. -/
def overlong : String := String.ofList (List.replicate 256 'n')

/-- A path may lead to the snapshots through a directory that the other run makes. And that a name is
too long is found out only in a directory that is there, which the other run may have made. -/
theorem runs_meet : Meet (remembrance "x/../memory" "news") remembering rightFirst .left ∧
    Meet (remembrance "memory" overlong) {} rightFirst .left := by
  constructor
  · refine remembrance_meet (by decide +kernel) ?_ (by decide +kernel) (by decide +kernel)
    dsimp only [remembering]
    exact Files.Work.write_sound (Files.Work.makeDirectories_sound Tree.sound_empty _) _ _
  · have clean {c : Char} (other : c ≠ 'n') (length : Nat) :
        c ∉ (String.ofList (List.replicate length 'n')).toList := by
      rw [String.toList_ofList, List.mem_replicate]
      exact fun member => other member.2
    exact overlong_meet ⟨clean (by decide) 256, clean (by decide) 256, by decide +kernel⟩
      (by decide +kernel)

end Crossing

end Newsreel
