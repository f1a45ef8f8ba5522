import Newsreel.Proofs.Run.Invariant

/-!
What a failed run leaves of the memory.

A step that fails leaves every file outside the directory of the run as it was. Storing goes entry
by entry, and what has been stored stays when a later entry fails: so a run that fails while it
stores leaves new snapshots behind, those of the entries before the one that failed.
-/

namespace Newsreel

open Files (Place)

/-- The path of the snapshot that an entry of `storing` makes. -/
def Storing.snapshotPath (context : Context) (time : Calendar.DateTime) (entry : Storing) : String :=
  Files.join (Snapshots.directory ⟨context.config.memoryPath⟩ context.config.jobName entry.name)
    (time.stamp ++ ".json")

/-- The texts of files once the snapshots of some entries have been written, one after the other. -/
def withSnapshots (context : Context) (time : Calendar.DateTime) :
    List Storing → (Place → Option String) → Place → Option String
  | [], texts => texts
  | entry :: rest, texts => withSnapshots context time rest fun place =>
    if place = Place.ofPath (entry.snapshotPath context time) then
      (context.get entry.key Scope.root).toOption.map (Json.pretty 0)
    else texts place

/-- Storing a single entry. -/
def Storing.store (surroundings : Surroundings) (context : Context) (entry : Storing) :
    Effect String := do
  let value ← Attempt.ofExcept (context.get entry.key Scope.root)
  Snapshots.store ⟨context.config.memoryPath⟩ context.config.jobName entry.name value
    surroundings.now

variable {surroundings : Surroundings} {context : Context} {entry : Storing}
  {entries stored : List Storing} {before after : World} {path : String} {paths : List String}
  {error : StepError}

namespace Effect

variable {α : Type} {work : Files.Work α}

theorem onFiles_ok {a : α} (success : onFiles work before = (.ok a, after)) :
    work before.files = (.ok a, after.files) := by
  rw [onFiles] at success
  rcases ran : work before.files with ⟨fault | b, files⟩
  · rw [ran] at success
    cases success
  · rw [ran] at success
    cases success
    rfl

theorem onFiles_error (failure : onFiles work before = (.error error, after)) :
    ∃ fault, work before.files = (.error fault, after.files) := by
  rw [onFiles] at failure
  rcases ran : work before.files with ⟨fault | b, files⟩
  · rw [ran] at failure
    cases failure
    exact ⟨fault, rfl⟩
  · rw [ran] at failure
    cases failure

end Effect

namespace Snapshots

variable {snapshots : Snapshots} {job name : String} {value : Value} {time : Calendar.DateTime}

theorem makeDirectories_file? {directory : String} {outcome : Except StepError Unit}
    (made : Effect.onFiles (Files.Work.makeDirectories directory) before = (outcome, after))
    (place : Place) : after.files.file? place = before.files.file? place := by
  have kept : (Effect.onFiles (Files.Work.makeDirectories directory) before).2.files.file? place =
      before.files.file? place := Media.makeDirectories_preserves directory before rfl
  rwa [made] at kept

/-- A snapshot that is stored is there, and every other file is as it was. -/
theorem store_ok (success : snapshots.store job name value time before = (.ok path, after)) :
    path = Files.join (snapshots.directory job name) (time.stamp ++ ".json") ∧
      ∀ place, after.files.file? place =
        if place = Place.ofPath path then some (Json.pretty 0 value)
        else before.files.file? place := by
  obtain ⟨⟨⟩, between, made, success⟩ := Attempt.bind_ok_iff.mp success
  obtain ⟨⟨⟩, last, written, success⟩ := Attempt.bind_ok_iff.mp success
  obtain ⟨rfl, rfl⟩ := Attempt.pure_ok_iff.mp success
  refine ⟨rfl, fun place => ?_⟩
  rw [Files.Work.write_ok (Effect.onFiles_ok written), makeDirectories_file? made]

/-- A snapshot that is not stored leaves every file as it was. -/
theorem store_error (failure : snapshots.store job name value time before = (.error error, after))
    (place : Place) : after.files.file? place = before.files.file? place := by
  rcases Attempt.bind_error_iff.mp failure with unmade | ⟨⟨⟩, between, made, failure⟩
  · exact makeDirectories_file? unmade place
  · rcases Attempt.bind_error_iff.mp failure with unwritten | ⟨⟨⟩, last, -, impossible⟩
    · obtain ⟨fault, unwritten⟩ := Effect.onFiles_error unwritten
      rw [Files.Work.write_error unwritten, makeDirectories_file? made]
    · cases impossible

end Snapshots

namespace Storing

theorem store_ok (success : entry.store surroundings context before = (.ok path, after)) :
    after.files.file? = withSnapshots context surroundings.now [entry] before.files.file? := by
  obtain ⟨value, between, looked, stores⟩ := Attempt.bind_ok_iff.mp success
  obtain ⟨found, rfl⟩ := Attempt.ofExcept_ok_iff.mp looked
  obtain ⟨same, written⟩ := Snapshots.store_ok stores
  funext place
  rw [written, same, withSnapshots, withSnapshots, found]
  rfl

theorem store_error (failure : entry.store surroundings context before = (.error error, after)) :
    after.files.file? = before.files.file? := by
  funext place
  rcases Attempt.bind_error_iff.mp failure with missing | ⟨value, between, found, failure⟩
  · obtain ⟨-, rfl⟩ := Attempt.ofExcept_error_iff.mp missing
    rfl
  · obtain ⟨-, rfl⟩ := Attempt.ofExcept_ok_iff.mp found
    exact Snapshots.store_error failure place

end Storing

theorem storeAll_cons : storeAll surroundings context (entry :: entries) = (do
    let path ← entry.store surroundings context
    let paths ← storeAll surroundings context entries
    return path :: paths) := by
  rw [storeAll, Storing.store, bind_assoc]

/-! Storing and what stays true. -/

theorem Storing.store_preserves {invariant : World → Prop}
    (makes : (Effect.onFiles (Files.Work.makeDirectories (Snapshots.directory
      ⟨context.config.memoryPath⟩ context.config.jobName entry.name))).Preserves invariant)
    (writes : ∀ text, (Effect.onFiles (Files.Work.write
      (entry.snapshotPath context surroundings.now) text)).Preserves invariant) :
    (entry.store surroundings context).Preserves invariant :=
  (Attempt.preserves_ofExcept _).bind fun value =>
    makes.bind fun _ => (writes (Json.pretty 0 value)).bind fun _ => Attempt.preserves_pure _

theorem storeAll_preserves {invariant : World → Prop} {context : Context} {storing : List Storing}
    (each : ∀ entry ∈ storing, (entry.store surroundings context).Preserves invariant) :
    (storeAll surroundings context storing).Preserves invariant := by
  induction storing with
  | nil => exact Attempt.preserves_pure _
  | cons entry rest ih =>
    obtain ⟨first, later⟩ := List.forall_mem_cons.mp each
    rw [storeAll_cons]
    exact first.bind fun _ => (ih later).bind fun _ => Attempt.preserves_pure _

/-- What comes behind the steps: storing, as far as it gets, and clearing up. -/
theorem conclude_preserves {invariant : Context × World → Prop} {storing : List Storing} {steps : StagesRun}
    (each : ∀ entry ∈ storing, (entry.store surroundings steps.context).Preserves
      fun world => invariant (steps.context, world))
    (holds : invariant (steps.context, steps.world)) :
    ∃ world, invariant (steps.context, world) ∧
      (conclude surroundings storing steps).2 = removeTemp steps.context world := by
  have stored := storeAll_preserves each steps.world holds
  cases result : steps.result with
  | error error => exact ⟨steps.world, holds, congrArg Prod.snd (conclude_failed result)⟩
  | ok artifact =>
    rcases stores : storeAll surroundings steps.context storing steps.world with
      ⟨error | paths, world⟩
    · rw [stores] at stored
      exact ⟨world, stored, congrArg Prod.snd (conclude_not_stored result stores)⟩
    · rw [stores] at stored
      exact ⟨world, stored, congrArg Prod.snd (conclude_stored result stores)⟩

/-- When everything is stored, each snapshot is there unless a later one has taken its place. -/
theorem storeAll_ok (success : storeAll surroundings context entries before = (.ok paths, after)) :
    after.files.file? = withSnapshots context surroundings.now entries before.files.file? := by
  induction entries generalizing before paths with
  | nil =>
    obtain ⟨-, rfl⟩ := Attempt.pure_ok_iff.mp success
    rfl
  | cons entry rest ih =>
    rw [storeAll_cons] at success
    obtain ⟨path, between, first, success⟩ := Attempt.bind_ok_iff.mp success
    obtain ⟨paths, last, later, success⟩ := Attempt.bind_ok_iff.mp success
    obtain ⟨-, rfl⟩ := Attempt.pure_ok_iff.mp success
    rw [ih later, Storing.store_ok first]
    rfl

/-- Storing fails at one of the entries, and those before it stay stored. -/
theorem storeAll_error
    (failure : storeAll surroundings context entries before = (.error error, after)) :
    ∃ stored entry rest paths between, entries = stored ++ entry :: rest ∧
      storeAll surroundings context stored before = (.ok paths, between) ∧
      entry.store surroundings context between = (.error error, after) := by
  induction entries generalizing before with
  | nil => cases failure
  | cons entry rest ih =>
    rw [storeAll_cons] at failure
    rcases Attempt.bind_error_iff.mp failure with failed | ⟨path, between, first, failure⟩
    · exact ⟨[], entry, rest, [], before, rfl, rfl, failed⟩
    · rcases Attempt.bind_error_iff.mp failure with later | ⟨paths, last, -, impossible⟩
      · obtain ⟨stored, failing, behind, paths, reached, rfl, kept, failed⟩ := ih later
        refine ⟨entry :: stored, failing, behind, path :: paths, reached, rfl, ?_, failed⟩
        rw [storeAll_cons, Attempt.bind_run_ok first, Attempt.bind_run_ok kept]
        rfl
      · cases impossible

/-- One file at a time: the snapshots cover what was there before. -/
theorem withSnapshots_congr {texts others : Place → Option String} {place : Place}
    (same : texts place = others place) (time : Calendar.DateTime) (entries : List Storing) :
    withSnapshots context time entries texts place =
      withSnapshots context time entries others place := by
  induction entries generalizing texts others with
  | nil => exact same
  | cons entry rest ih =>
    refine ih ?_
    split
    · rfl
    · exact same

/-- The texts of the files after a run, as far as they lie outside its own directory. -/
def Execution.Leaves (run : Execution) (directory : String) (texts : Place → Option String) : Prop :=
  ∀ place : Place, place.Outside directory → run.world.files.file? place = texts place

theorem removeTemp_file? {place : Place} (outside : place.Outside (Media.tempDirectory context))
    (world : World) : (removeTemp context world).files.file? place = world.files.file? place :=
  Media.onFiles_preserves (fun tree => Files.Work.removeDirectory_file? outside tree) world rfl

namespace Underway

variable {beginning : Context} {place : Place} {text : Option String} {state : Context × World}

theorem tempDirectory (underway : Underway beginning place text state) :
    Media.tempDirectory state.1 = Media.tempDirectory beginning := by
  rw [Media.tempDirectory, underway.config, underway.runId]
  rfl

end Underway

namespace Pipeline

variable {pipeline : Pipeline} {config : JobConfig} {world : World}

/-- The directory for the intermediate files of a run. -/
def tempDirectory (pipeline : Pipeline) (surroundings : Surroundings) (config : JobConfig) :
    String :=
  Media.tempDirectory (Context.start config (pipeline.begun surroundings).run.runId)

/-- A run that fails has failed at a step and leaves all files outside its directory as they were,
or it has failed at an entry of `storing` and leaves the snapshots of the entries before that one.
-/
theorem failed_run_leaves_files
    (failed : (pipeline.execute surroundings config world).result = .error error) :
    (∃ index after,
      FailsAt surroundings pipeline.steps (pipeline.beginning surroundings config world) index error
        after ∧
      (pipeline.execute surroundings config world).Leaves
        (pipeline.tempDirectory surroundings config) world.files.file?) ∨
    ∃ outputs after stored entry rest paths between,
      Completes surroundings pipeline.steps (pipeline.beginning surroundings config world) outputs
        after ∧
      pipeline.storing = stored ++ entry :: rest ∧
      storeAll surroundings after.1 stored after.2 = (.ok paths, between) ∧
      (entry.store surroundings after.1 between).1 = .error error ∧
      (pipeline.execute surroundings config world).Leaves
        (pipeline.tempDirectory surroundings config)
        (withSnapshots after.1 surroundings.now stored world.files.file?) := by
  have begun := pipeline.steps_begun surroundings
  have start (place : Place) : Underway (pipeline.beginning surroundings config world).1 place
      (world.files.file? place) (pipeline.beginning surroundings config world) := ⟨rfl, rfl, rfl⟩
  have steps {place : Place} (outside : place.Outside (pipeline.tempDirectory surroundings config))
      (action : Action) : (action.run surroundings Scope.root).Preserves
        (Underway (pipeline.beginning surroundings config world).1 place
          (world.files.file? place)) :=
    Action.run_underway outside _ action Scope.root
  rcases completes_or_fails surroundings pipeline.steps
    (pipeline.beginning surroundings config world) with
    ⟨outputs, after, completes⟩ | ⟨index, source, after, fails⟩
  · right
    rw [← begun] at completes
    obtain ⟨events, ran⟩ := runStages_completes 0 none completes
    rw [begun] at completes
    rcases stores : storeAll surroundings after.1 pipeline.storing after.2 with
      ⟨source | paths, worldAfter⟩
    · obtain ⟨result, -, left⟩ := execute_error ran (conclude_not_stored rfl stores)
      rw [result] at failed
      cases failed
      obtain ⟨stored, entry, rest, paths, between, parts, kept, failing⟩ := storeAll_error stores
      refine ⟨outputs, after, stored, entry, rest, paths, between, completes, parts, kept,
        congrArg Prod.fst failing, fun place outside => ?_⟩
      have underway := completes.preserves (steps outside) (start place)
      -- Clearing up, the entry that failed, the entries before it, the steps: last things first.
      rw [left, removeTemp_file? (underway.tempDirectory ▸ outside), Storing.store_error failing,
        storeAll_ok kept]
      exact withSnapshots_congr underway.file _ _
    · obtain ⟨⟨report, result, -⟩, -⟩ := execute_ok ran (conclude_stored rfl stores)
      rw [result] at failed
      cases failed
  · left
    rw [← begun] at fails
    obtain ⟨events, label, ran⟩ := runStages_fails 0 none fails
    rw [begun] at fails
    obtain ⟨result, -, left⟩ := execute_error ran (conclude_failed rfl)
    rw [result] at failed
    cases failed
    refine ⟨index, after, fails, fun place outside => ?_⟩
    have underway := fails.preserves (steps outside) (start place)
    rw [left, removeTemp_file? (underway.tempDirectory ▸ outside)]
    exact underway.file

/-- A document that remembers two values, the second of which is never there. -/
def forgetfulNews : Document where
  name := "news"
  description := none
  steps := [⟨"input", [("input", .string "sun")]⟩]
  storing := [⟨"sky", "_req"⟩, ⟨"wind", "missing"⟩]

def forgetful : Pipeline where
  name := "news"
  description := none
  stages := [⟨⟨0, "input", none, .fetch "_req" (.mk .input "input" none (.input (.string "sun")))⟩,
    .pending⟩]
  storing := [⟨"sky", "_req"⟩, ⟨"wind", "missing"⟩]
  run := { runId := "11111111-2222-4333-8444-555555555555" }

/-- Where the first of the two values goes. -/
def skyPlace : Place :=
  ["/", "data", "visuflow", "memory", "news", "sky", "2020-06-15_07-00-00.json"]

theorem forgetful_fails :
    (forgetful.execute Action.offline (JobConfig.named "news") {}).result.isOk = false := by
  decide +kernel

theorem forgetful_writes :
    (forgetful.execute Action.offline (JobConfig.named "news") {}).world.files.file? skyPlace =
      some "\"sun\"" := by
  decide +kernel

/-- A run that fails does not always leave the memory as it was. -/
theorem forgetful_remembers :
    compile .builtin forgetful.run.runId forgetfulNews = .ok forgetful ∧
      (forgetful.execute Action.offline (JobConfig.named "news") {}).result.isOk = false ∧
      Files.Tree.file? {} skyPlace = none ∧
      (forgetful.execute Action.offline (JobConfig.named "news") {}).world.files.file? skyPlace =
        some "\"sun\"" :=
  ⟨rfl, forgetful_fails, by decide +kernel, forgetful_writes⟩

theorem failed_run_leaves_files_forgetful :
    (∃ error, (forgetful.execute Action.offline (JobConfig.named "news") {}).result =
      .error error) ∧
    ∃ outputs after stored entry rest,
      Completes Action.offline forgetful.steps
        (forgetful.beginning Action.offline (JobConfig.named "news") {}) outputs after ∧
      forgetful.storing = stored ++ entry :: rest ∧
      (forgetful.execute Action.offline (JobConfig.named "news") {}).Leaves
        (forgetful.tempDirectory Action.offline (JobConfig.named "news"))
        (withSnapshots after.1 Action.offline.now stored (Files.Tree.file? {})) := by
  have failed : ∃ error,
      (forgetful.execute Action.offline (JobConfig.named "news") {}).result = .error error := by
    have notOk := forgetful_fails
    cases result : (forgetful.execute Action.offline (JobConfig.named "news") {}).result with
    | error error => exact ⟨error, rfl⟩
    | ok report =>
      rw [result] at notOk
      cases notOk
  refine ⟨failed, ?_⟩
  obtain ⟨error, failed⟩ := failed
  rcases failed_run_leaves_files failed with ⟨index, after, -, leaves⟩ |
    ⟨outputs, after, stored, entry, rest, paths, between, completes, parts, -, -, leaves⟩
  · have outside : skyPlace.Outside
        (forgetful.tempDirectory Action.offline (JobConfig.named "news")) := by decide +kernel
    have written := forgetful_writes
    rw [leaves skyPlace outside] at written
    cases written
  · exact ⟨outputs, after, stored, entry, rest, completes, parts, leaves⟩

end Pipeline

end Newsreel
