import Mathlib.Data.List.Nodup
import Newsreel.Proofs.Fetch.Isolation
import Newsreel.Proofs.Run.Outputs
import Newsreel.Proofs.Run.Remembered

/-!
What a run stores belongs to its entries of `storing`.

The names of the entries differ, so where they are names of files, each entry has a directory of its
own: a later entry takes nothing away from an earlier one, and what the run has stored for other
names is not there.
-/

namespace Newsreel

open Files (IsName Place Tree)

/-! The names of a document's entries. -/

theorem Document.nodup_of_repeated? {seen : List String} {storing : List Storing}
    (none : Document.repeated? seen storing = Option.none) :
    (storing.map (·.name)).Nodup ∧ ∀ entry ∈ storing, entry.name ∉ seen := by
  induction storing generalizing seen with
  | nil => exact ⟨.nil, nofun⟩
  | cons entry rest ih =>
    rw [Document.repeated?] at none
    split at none
    · cases none
    · next fresh =>
      obtain ⟨distinct, later⟩ := ih none
      refine ⟨?_, List.forall_mem_cons.mpr ⟨by simpa using fresh, fun other member => ?_⟩⟩
      · rw [List.map_cons, List.nodup_cons]
        refine ⟨fun again => ?_, distinct⟩
        obtain ⟨other, member, same⟩ := List.mem_map.mp again
        exact later other member (same ▸ List.mem_cons_self)
      · exact fun inside => later other member (List.mem_cons_of_mem _ inside)

theorem Document.nodup_storing (document : Document) (sound : document.fault? = none) :
    (document.storing.map (·.name)).Nodup := by
  rw [Document.fault?] at sound
  split at sound
  · cases sound
  · split at sound
    · cases sound
    · exact (Document.nodup_of_repeated? (Option.map_eq_none_iff.mp sound)).1

/-! The snapshots of a run. -/

section Stored

variable {surroundings : Surroundings} {context : Context} {entry : Storing}
  {entries : List Storing} {before after : World} {paths : List String} {time : Calendar.DateTime}

/-- Everything is stored where it belongs. -/
theorem storeAll_paths (success : storeAll surroundings context entries before = (.ok paths, after)) :
    paths = entries.map (Storing.snapshotPath context surroundings.now) ∧
      ∀ entry ∈ entries, ∃ value, context.get entry.key Scope.root = .ok value := by
  induction entries generalizing before paths after with
  | nil =>
    obtain ⟨rfl, -⟩ := Attempt.pure_ok_iff.mp success
    exact ⟨rfl, nofun⟩
  | cons entry rest ih =>
    rw [storeAll_cons] at success
    obtain ⟨path, between, first, success⟩ := Attempt.bind_ok_iff.mp success
    obtain ⟨others, last, later, success⟩ := Attempt.bind_ok_iff.mp success
    obtain ⟨rfl, -⟩ := Attempt.pure_ok_iff.mp success
    obtain ⟨value, middle, looked, stores⟩ := Attempt.bind_ok_iff.mp first
    obtain ⟨found, rfl⟩ := Attempt.ofExcept_ok_iff.mp looked
    obtain ⟨rfl, values⟩ := ih later
    rw [(Snapshots.store_ok stores).1]
    exact ⟨rfl, List.forall_mem_cons.mpr ⟨⟨value, found⟩, values⟩⟩

theorem withSnapshots_elsewhere {place : Place}
    (elsewhere : ∀ entry ∈ entries, place ≠ Place.ofPath (entry.snapshotPath context time))
    (texts : Place → Option String) :
    withSnapshots context time entries texts place = texts place := by
  induction entries generalizing texts with
  | nil => rfl
  | cons entry rest ih =>
    obtain ⟨apart, elsewhere⟩ := List.forall_mem_cons.mp elsewhere
    rw [withSnapshots, ih elsewhere, if_neg apart]

/-- In a place of its own a snapshot keeps its value. -/
theorem withSnapshots_of_mem (distinct : (entries.map fun entry =>
      Place.ofPath (entry.snapshotPath context time)).Nodup) (member : entry ∈ entries)
    (texts : Place → Option String) :
    withSnapshots context time entries texts (Place.ofPath (entry.snapshotPath context time)) =
      (context.get entry.key Scope.root).toOption.map (Json.pretty 0) := by
  induction entries generalizing texts with
  | nil => cases member
  | cons first rest ih =>
    rw [List.map_cons, List.nodup_cons] at distinct
    rcases List.mem_cons.mp member with rfl | later
    · rw [withSnapshots, withSnapshots_elsewhere, if_pos rfl]
      intro other inside same
      exact distinct.1 (List.mem_map.mpr ⟨other, inside, same.symm⟩)
    · exact ih distinct.2 later _

/-- Entries of different names have different places. -/
theorem nodup_snapshots (isJob : IsName context.config.jobName)
    (names : ∀ entry ∈ entries, IsName entry.name) (distinct : (entries.map (·.name)).Nodup)
    (time : Calendar.DateTime) :
    (entries.map fun entry => Place.ofPath (entry.snapshotPath context time)).Nodup := by
  refine List.Nodup.map_on (fun first here second there same => ?_) (List.Nodup.of_map _ distinct)
  rw [Storing.snapshotPath, Storing.snapshotPath, Snapshots.ofPath_file, Snapshots.ofPath_file,
    Snapshots.ofPath_directory isJob.isPart (names first here).isPart,
    Snapshots.ofPath_directory isJob.isPart (names second there).isPart] at same
  have directories := (List.append_inj' same rfl).1
  rw [List.append_cancel_left_eq] at directories
  simp only [List.cons.injEq, and_true, true_and] at directories
  exact List.inj_on_of_nodup_map distinct here there directories

end Stored

namespace Pipeline

variable {surroundings : Surroundings} {config : JobConfig} {pipeline : Pipeline} {world : World}
  {report : RunReport}

/-- A run that succeeds has run all steps, stored everything and cleared up. -/
theorem completed_run (succeeded : (pipeline.execute surroundings config world).result = .ok report) :
    ∃ outputs after stored,
      Completes surroundings pipeline.steps (pipeline.beginning surroundings config world) outputs
        after ∧
      storeAll surroundings after.1 pipeline.storing after.2 = (.ok report.stored, stored) ∧
      (pipeline.execute surroundings config world).world = removeTemp after.1 stored := by
  have begun := pipeline.steps_begun surroundings
  rcases completes_or_fails surroundings pipeline.steps
    (pipeline.beginning surroundings config world) with
    ⟨outputs, after, completes⟩ | ⟨index, source, after, fails⟩
  · rw [← begun] at completes
    obtain ⟨events, ran⟩ := runStages_completes 0 none completes
    rw [begun] at completes
    rcases stores : storeAll surroundings after.1 pipeline.storing after.2 with
      ⟨source | paths, stored⟩
    · obtain ⟨failed, -, -⟩ := execute_error ran (conclude_not_stored rfl stores)
      rw [succeeded] at failed
      cases failed
    · obtain ⟨⟨given, result, -, rfl⟩, -⟩ := execute_ok ran (conclude_stored rfl stores)
      rw [succeeded] at result
      cases result
      refine ⟨outputs, after, stored, completes, stores, ?_⟩
      simp only [execute_world, beginning, ran]
      exact congrArg Prod.snd (conclude_stored rfl stores)
  · rw [← begun] at fails
    obtain ⟨events, label, ran⟩ := runStages_fails 0 none fails
    obtain ⟨failed, -, -⟩ := execute_error ran (conclude_failed rfl)
    rw [succeeded] at failed
    cases failed

/-- Whatever is stored for others, the snapshots of a name are read as before. And once a run of a
sound document has succeeded, each path that it has stored holds the value of its own entry. Names
are names of files. -/
theorem owners_apart (snapshots : Snapshots) (surroundings : Surroundings) (config : JobConfig)
    (world : World) :
    (∀ (job name : String) (deposits : List Deposit),
      IsName job → IsName name → world.files.Sound → world.files.Reaches snapshots.root →
        (∀ deposit ∈ deposits, deposit.IsForeign job name) →
          Snapshots.SameAnswers snapshots job name world (Deposit.makeAll snapshots deposits world)) ∧
      ∀ (document : Document) (pipeline : Pipeline) (report : RunReport),
        document.fault? = none → pipeline.storing = document.storing → IsName config.jobName →
          (∀ entry ∈ pipeline.storing, IsName entry.name ∧
            (Place.ofPath (entry.snapshotPath (pipeline.beginning surroundings config world).1
              surroundings.now)).Outside (pipeline.tempDirectory surroundings config)) →
          (pipeline.execute surroundings config world).result = .ok report →
            ∃ outputs after,
              Completes surroundings pipeline.steps (pipeline.beginning surroundings config world)
                outputs after ∧
              List.Forall₂ (fun entry path => ∃ value,
                after.1.get entry.key Scope.root = .ok value ∧
                  (pipeline.execute surroundings config world).world.files.file?
                    (Place.ofPath path) = some (Json.pretty 0 value))
                pipeline.storing report.stored := by
  refine ⟨fun job name deposits isJob isName sound reaches foreign =>
    (Deposit.makeAll_untouched isJob isName foreign
      ⟨sound, reaches, .refl snapshots job name world⟩).answers, ?_⟩
  intro document pipeline report valid storing isJob entries succeeded
  obtain ⟨outputs, after, stored, completes, stores, left⟩ := completed_run succeeded
  refine ⟨outputs, after, completes, ?_⟩
  obtain ⟨sameConfig, sameId⟩ := completes.preserves
    (fun action => action.run_frame surroundings Scope.root config
      (pipeline.begun surroundings).run.runId) ⟨rfl, rfl⟩
  obtain ⟨paths, values⟩ := storeAll_paths stores
  have distinct : (pipeline.storing.map fun entry =>
      Place.ofPath (entry.snapshotPath after.1 surroundings.now)).Nodup :=
    nodup_snapshots (sameConfig ▸ isJob) (fun entry member => (entries entry member).1)
      (storing ▸ document.nodup_storing valid) _
  rw [paths, List.forall₂_map_right_iff, List.forall₂_same]
  intro entry member
  obtain ⟨value, found⟩ := values entry member
  have outside : (Place.ofPath (entry.snapshotPath after.1 surroundings.now)).Outside
      (Media.tempDirectory after.1) := by
    rw [Storing.snapshotPath, Media.tempDirectory, sameConfig, sameId]
    exact (entries entry member).2
  refine ⟨value, found, ?_⟩
  rw [left, removeTemp_file? outside, storeAll_ok stores, withSnapshots_of_mem distinct member, found]
  rfl

/-! Two entries. -/

/-- A document that remembers two values under the given names. -/
def pairNews (first second : String) : Document where
  name := "news"
  description := none
  steps := [⟨"input", [("input", .object [("sky", .string "sun"), ("wind", .string "north")])]⟩]
  storing := [⟨first, "_req.sky"⟩, ⟨second, "_req.wind"⟩]

def pair (first second : String) : Pipeline where
  name := "news"
  description := none
  stages := [⟨⟨0, "input", none, .fetch "_req" (.mk .input "input" none
    (.input (.object [("sky", .string "sun"), ("wind", .string "north")])))⟩, .pending⟩]
  storing := [⟨first, "_req.sky"⟩, ⟨second, "_req.wind"⟩]
  run := { runId := "11111111-2222-4333-8444-555555555555" }

/-- All files lie below the working directory. -/
def shelf : JobConfig := { desk with memoryPath := "memory" }

/-- Names that differ may lead to one directory, and the document is sound all the same: the value of
the second entry takes the place of the first one. -/
theorem pair_overwritten :
    (pairNews "sky" "./sky").fault? = none ∧
      compile .builtin (pair "sky" "./sky").run.runId (pairNews "sky" "./sky") =
        .ok (pair "sky" "./sky") ∧
      ((pair "sky" "./sky").execute Action.offline shelf {}).result.toOption.map
          (fun report => (report.stored, Json.compact report.data)) =
        some (["memory/news/sky/2020-06-15_07-00-00.json",
            "memory/news/./sky/2020-06-15_07-00-00.json"],
          "\x7b\"_req\":\x7b\"sky\":\"sun\",\"wind\":\"north\"\x7d\x7d") ∧
      ((pair "sky" "./sky").execute Action.offline shelf {}).world.files.file?
          (Place.ofPath "memory/news/sky/2020-06-15_07-00-00.json") = some "\"north\"" := by
  refine ⟨by decide, rfl, by decide +kernel, by decide +kernel⟩

/-- What is stored for the sky of a job, for its wind, and for the sky of another job. -/
def skyDeposit : Deposit := ⟨"news", "sky", .string "sun", Action.offline.now⟩
def windDeposit : Deposit := ⟨"news", "wind", .string "north", Action.offline.now⟩
def sportDeposit : Deposit := ⟨"sport", "sky", .string "rain", Action.offline.now⟩

/-- The world in which the first of them is there. -/
def skyWorld : World := Deposit.makeAll ⟨"memory"⟩ [skyDeposit] {}

theorem owners_apart_sky :
    IsName "news" ∧ IsName "sky" ∧ skyWorld.files.Sound ∧ skyWorld.files.Reaches "memory" ∧
      (∀ deposit ∈ [windDeposit, sportDeposit], deposit.IsForeign "news" "sky") ∧
      Snapshots.SameAnswers ⟨"memory"⟩ "news" "sky" skyWorld
        (Deposit.makeAll ⟨"memory"⟩ [windDeposit, sportDeposit] skyWorld) ∧
      (Snapshots.readLast ⟨"memory"⟩ "news" "sky" 1
        (Deposit.makeAll ⟨"memory"⟩ [windDeposit, sportDeposit] skyWorld)).1.toOption.map
          Json.compact = some "\"sun\"" ∧
      ∃ report outputs after,
        ((pair "sky" "wind").execute Action.offline shelf {}).result = .ok report ∧
          Completes Action.offline (pair "sky" "wind").steps
            ((pair "sky" "wind").beginning Action.offline shelf {}) outputs after ∧
          List.Forall₂ (fun entry path => ∃ value,
            after.1.get entry.key Scope.root = .ok value ∧
              ((pair "sky" "wind").execute Action.offline shelf {}).world.files.file?
                (Place.ofPath path) = some (Json.pretty 0 value))
            (pair "sky" "wind").storing report.stored := by
  have root : Tree.Reaches {} "memory" := Tree.reaches_of_descends (by decide)
  -- The first deposit is foreign to the sky of the other job, so the tree is sound with it.
  have empty : Snapshots.Untouched ⟨"memory"⟩ "sport" "sky" {} {} :=
    ⟨Tree.sound_empty, root, .refl _ _ _ _⟩
  have own : ∀ deposit ∈ [skyDeposit], deposit.IsForeign "sport" "sky" := by decide
  obtain ⟨sound, reaches, -⟩ := Deposit.makeAll_untouched (by decide) (by decide) own empty
  have foreign : ∀ deposit ∈ [windDeposit, sportDeposit], deposit.IsForeign "news" "sky" := by
    decide
  have answers := (owners_apart ⟨"memory"⟩ Action.offline shelf skyWorld).1 "news" "sky"
    [windDeposit, sportDeposit] (by decide) (by decide) sound reaches foreign
  have succeeded : ((pair "sky" "wind").execute Action.offline shelf {}).result.isOk = true := by
    decide +kernel
  cases result : ((pair "sky" "wind").execute Action.offline shelf {}).result with
  | error error =>
    rw [result] at succeeded
    cases succeeded
  | ok report =>
    obtain ⟨outputs, after, completes, stored⟩ :=
      (owners_apart ⟨"memory"⟩ Action.offline shelf {}).2 (pairNews "sky" "wind")
        (pair "sky" "wind") report (by decide) rfl (by decide) (by decide +kernel) result
    have before : (Snapshots.readLast ⟨"memory"⟩ "news" "sky" 1 skyWorld).1.toOption.map
        Json.compact = some "\"sun\"" := by
      decide +kernel
    refine ⟨by decide, by decide, sound, reaches, foreign, answers, ?_, report, outputs, after, rfl,
      completes, stored⟩
    rw [answers.readLast 1, before]

end Pipeline

end Newsreel
