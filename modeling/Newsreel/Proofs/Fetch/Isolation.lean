import Newsreel.Proofs.Calendar.Stamp
import Newsreel.Proofs.Files.Elsewhere
import Newsreel.Fetch.Snapshots

/-!
Snapshots of different owners do not meet.

Whoever stores, changes nothing but what lies in the directory of the owner. Where jobs and names are
names of files, the directories of different owners lie side by side, so what is read of one owner
does not depend on what is stored for the others.
-/

namespace Newsreel

open Calendar (DateTime)
open Files (IsName IsPart Place Tree)

namespace Snapshots

variable {snapshots : Snapshots} {job name otherJob otherName : String} {before between after : World}

/-- The snapshots of a name are read in one world as in another. -/
structure SameAnswers (snapshots : Snapshots) (job name : String) (before after : World) : Prop where
  entries : (snapshots.entries job name after).1 = (snapshots.entries job name before).1
  readLast : ∀ place, (snapshots.readLast job name place after).1 =
    (snapshots.readLast job name place before).1
  readClosest : ∀ days now, (snapshots.readClosest job name days now after).1 =
    (snapshots.readClosest job name days now before).1

namespace SameAnswers

theorem refl (snapshots : Snapshots) (job name : String) (world : World) :
    SameAnswers snapshots job name world world :=
  ⟨rfl, fun _ => rfl, fun _ _ => rfl⟩

theorem trans (first : SameAnswers snapshots job name before between)
    (second : SameAnswers snapshots job name between after) :
    SameAnswers snapshots job name before after :=
  ⟨second.entries.trans first.entries, fun place => (second.readLast place).trans (first.readLast place),
    fun days now => (second.readClosest days now).trans (first.readClosest days now)⟩

end SameAnswers

/-! Where snapshots are found. -/

/-- The place of a directory with snapshots. -/
theorem ofPath_directory (isJob : IsPart job) (isName : IsPart name) :
    Place.ofPath (snapshots.directory job name) = Place.ofPath snapshots.root ++ [job, name] := by
  rw [directory, isName.ofPath_join, isJob.ofPath_join, List.append_assoc]
  rfl

/-- Directories of different owners lie side by side. -/
theorem not_prefix_directory (isJob : IsName job) (isName : IsName name) (isOther : IsName otherJob)
    (isOtherName : IsName otherName) (other : (otherJob, otherName) ≠ (job, name)) :
    ¬Place.ofPath (snapshots.directory job name) <+:
      Place.ofPath (snapshots.directory otherJob otherName) := by
  rw [ofPath_directory isJob.isPart isName.isPart, ofPath_directory isOther.isPart isOtherName.isPart,
    List.prefix_append_right_inj]
  intro inside
  have same := inside.eq_of_length rfl
  simp only [List.cons.injEq, and_true] at same
  exact other (by rw [same.1, same.2])

theorem mem_ofNames {directory path : String} {names : List String} {time : DateTime}
    (member : (time, path) ∈ ofNames directory names) :
    ∃ file ∈ names, path = Files.join directory file := by
  rw [ofNames, List.mem_mergeSort, List.mem_filterMap] at member
  obtain ⟨file, inside, stamped⟩ := member
  obtain ⟨stamp, -, made⟩ := Option.map_eq_some_iff.mp stamped
  cases made
  exact ⟨file, inside, rfl⟩

theorem mem_of_nearest? {target : DateTime} {entries : List (DateTime × String)}
    {entry : DateTime × String} (found : nearest? target entries = some entry) :
    entry ∈ entries := by
  induction entries generalizing entry with
  | nil => cases found
  | cons first rest ih =>
    rw [nearest?] at found
    split at found
    · cases found
      exact List.mem_cons_self
    · next nearer near =>
      split at found
      · cases found
        exact List.mem_cons_of_mem first (ih near)
      · cases found
        exact List.mem_cons_self

/-! What is read. -/

theorem readValue_congr {path : String}
    (same : after.files.read path = before.files.read path) :
    (Effect.readValue path after).1 = (Effect.readValue path before).1 := by
  have run (world : World) : Effect.readFile path world = (match world.files.read path with
      | .ok text => (.ok text, world)
      | .error fault => (.error (.file fault), world)) := by
    rw [Effect.readFile, Effect.onFiles, Files.Work.look]
    cases world.files.read path <;> rfl
  have ran := run after
  rw [same] at ran
  rcases found : before.files.read path with fault | text
  · rw [found] at ran
    have also := (run before).trans (by rw [found])
    rw [Effect.readValue, Attempt.bind_run_error ran, Attempt.bind_run_error also]
  · rw [found] at ran
    have also := (run before).trans (by rw [found])
    rw [Effect.readValue, Attempt.bind_run_ok ran, Attempt.bind_run_ok also]
    cases Json.read text <;> rfl

/-- Worlds that agree on what is listed and on the files listed answer alike. -/
theorem sameAnswers_of_files
    (lists : after.files.list (snapshots.directory job name) =
      before.files.list (snapshots.directory job name))
    (reads : ∀ names file, before.files.list (snapshots.directory job name) = .ok names →
      file ∈ names → after.files.read (Files.join (snapshots.directory job name) file) =
        before.files.read (Files.join (snapshots.directory job name) file)) :
    SameAnswers snapshots job name before after := by
  have entries : (snapshots.entries job name after).1 = (snapshots.entries job name before).1 := by
    simp only [Snapshots.entries, Attempt.look, lists]
  have values {listed : List (DateTime × String)} {entry : DateTime × String}
      (found : (snapshots.entries job name before).1 = .ok listed) (member : entry ∈ listed) :
      (Effect.readValue entry.2 after).1 = (Effect.readValue entry.2 before).1 := by
    simp only [Snapshots.entries, Attempt.look] at found
    split at found
    · next names there =>
      cases found
      obtain ⟨file, inside, path⟩ := mem_ofNames member
      rw [path]
      exact readValue_congr (reads names file there inside)
    · cases found
    · cases found
  -- What follows the list of the entries is done alike on both worlds.
  have follows {α : Type} {next : List (DateTime × String) → Effect α}
      (alike : ∀ listed, (snapshots.entries job name before).1 = .ok listed →
        (next listed after).1 = (next listed before).1) :
      ((snapshots.entries job name >>= next) after).1 =
        ((snapshots.entries job name >>= next) before).1 := by
    rcases outcome : (snapshots.entries job name before).1 with error | listed
    · have here : snapshots.entries job name before = (.error error, before) :=
        Prod.ext outcome rfl
      have there : snapshots.entries job name after = (.error error, after) :=
        Prod.ext (entries.trans outcome) rfl
      rw [Attempt.bind_run_error here, Attempt.bind_run_error there]
    · have here : snapshots.entries job name before = (.ok listed, before) :=
        Prod.ext outcome rfl
      have there : snapshots.entries job name after = (.ok listed, after) :=
        Prod.ext (entries.trans outcome) rfl
      rw [Attempt.bind_run_ok here, Attempt.bind_run_ok there]
      exact alike listed outcome
  refine ⟨entries, fun place => follows fun listed found => ?_, fun days now => ?_⟩
  · split
    · rfl
    · rcases chosen : listed[place - 1]? with _ | entry
      · rfl
      · exact values found (List.mem_of_getElem? chosen)
  · rw [readClosest]
    cases daysBefore now days with
    | error error => rfl
    | ok target =>
      refine follows fun listed found => ?_
      rcases chosen : nearest? target listed with _ | entry
      · rfl
      · exact values found (mem_of_nearest? chosen)

/-- Worlds between which only a directory elsewhere has changed answer alike. -/
theorem sameAnswers_of_changed {elsewhere : Place} (isJob : IsName job) (isName : IsName name)
    (sound : before.files.Sound) (reaches : before.files.Reaches snapshots.root)
    (changed : Tree.ChangedIn elsewhere before.files after.files)
    (notAbove : ¬Place.ofPath (snapshots.directory job name) <+: elsewhere)
    (notInside : ¬elsewhere <+: Place.ofPath (snapshots.directory job name)) :
    SameAnswers snapshots job name before after := by
  have reached : before.files.Reaches (snapshots.directory job name) :=
    (reaches.join isJob).join isName
  refine sameAnswers_of_files (changed.list sound reached notAbove notInside) ?_
  intro names file listed member
  obtain ⟨-, -, rfl⟩ := Tree.list_ok_iff.mp listed
  have isFile : IsName file := sound.isName member
  refine changed.read sound (reached.join isFile) ?_ ?_
  · rw [isFile.ofPath_join]
    exact fun above => notAbove ((List.prefix_append _ _).trans above)
  · rw [isFile.ofPath_join]
    intro inside
    rcases List.prefix_concat_iff.mp inside with same | within
    · exact notAbove (same ▸ List.prefix_append _ _)
    · exact notInside within

/-! What storing changes. -/

/-- What ends like a snapshot or a fixture is no name for a directory on the way. -/
theorem isPart_json {stem : String} (noSlash : '/' ∉ stem.toList)
    (noNul : Char.ofNat 0 ∉ stem.toList) : IsPart (stem ++ ".json") := by
  have clean {c : Char} (free : c ∉ stem.toList) (notEnding : c ∉ ".json".toList) :
      c ∉ (stem ++ ".json").toList := by
    rw [String.toList_append, List.mem_append, not_or]
    exact ⟨free, notEnding⟩
  have apart {text : String} (short : text.length < 5) : stem ++ ".json" ≠ text := by
    rintro rfl
    rw [String.length_append] at short
    exact absurd short (Nat.not_lt.mpr (Nat.le_add_left 5 _))
  exact ⟨clean noSlash (by decide), clean noNul (by decide),
    apart (by decide), apart (by decide), apart (by decide)⟩

theorem isPart_file (time : DateTime) : IsPart (time.stamp ++ ".json") :=
  isPart_json time.noSlash_stamp (time.not_mem_stamp (by decide) (by decide))

/-- The file for a time lies in the directory. -/
theorem ofPath_file (directory : String) (time : DateTime) :
    Place.ofPath (Files.join directory (time.stamp ++ ".json")) =
      Place.ofPath directory ++ [time.stamp ++ ".json"] :=
  (isPart_file time).ofPath_join directory

/-- A store changes nothing but what lies in its directory, whether it succeeds or not. -/
theorem store_changed (heads : before.files.Heads (snapshots.directory job name))
    (sound : before.files.Sound) (value : Value) (time : DateTime) :
    Tree.ChangedIn (Place.ofPath (snapshots.directory job name)) before.files
        (snapshots.store job name value time before).2.files ∧
      (snapshots.store job name value time before).2.files.Sound := by
  have inside : Place.ofPath (snapshots.directory job name) <+: Place.ofPath
      (Files.join (snapshots.directory job name) (time.stamp ++ ".json")) := by
    rw [ofPath_file]
    exact List.prefix_append _ _
  let invariant : Tree → Prop := fun tree =>
    Tree.ChangedIn (Place.ofPath (snapshots.directory job name)) before.files tree ∧ tree.Sound
  have stores : (snapshots.store job name value time).Preserves fun world => invariant world.files :=
    (Effect.onFiles_preserves invariant fun tree holds =>
        ⟨holds.1.trans
            (Files.Work.makeDirectories_changed (heads.of_keeps holds.1.keeps) List.prefix_rfl),
          Files.Work.makeDirectories_sound holds.2 _⟩).bind
      fun _ => (Effect.onFiles_preserves invariant fun tree holds =>
        ⟨holds.1.trans (Files.Work.write_changed inside _ tree),
          Files.Work.write_sound holds.2 _ _⟩).bind
      fun _ => Attempt.preserves_pure _
  exact stores before ⟨.refl _ _, sound⟩

/-! Stores for others. -/

/-- A world in which the snapshots of a name are read as they were before. -/
structure Untouched (snapshots : Snapshots) (job name : String) (before world : World) : Prop where
  sound : world.files.Sound
  reaches : world.files.Reaches snapshots.root
  answers : SameAnswers snapshots job name before world

/-- A store for another owner leaves the snapshots alone, whether it succeeds or not. -/
theorem store_untouched (isJob : IsName job) (isName : IsName name) (isOther : IsName otherJob)
    (isOtherName : IsName otherName) (other : (otherJob, otherName) ≠ (job, name)) (value : Value)
    (time : DateTime) : (snapshots.store otherJob otherName value time).Preserves
      (Untouched snapshots job name before) := by
  intro world untouched
  obtain ⟨changed, sound⟩ := store_changed ((untouched.reaches.join isOther).join isOtherName).heads
    untouched.sound value time
  refine ⟨sound, changed.reaches untouched.reaches, untouched.answers.trans ?_⟩
  exact sameAnswers_of_changed isJob isName untouched.sound untouched.reaches changed
    (not_prefix_directory isJob isName isOther isOtherName other)
    (not_prefix_directory isOther isOtherName isJob isName (Ne.symm other))

end Snapshots

/-- A value to be stored for an owner. -/
structure Deposit where
  job : String
  name : String
  value : Value
  time : DateTime

namespace Deposit

variable {snapshots : Snapshots} {job name : String} {before world : World}
  {deposits : List Deposit}

def make (snapshots : Snapshots) (deposit : Deposit) : Effect String :=
  snapshots.store deposit.job deposit.name deposit.value deposit.time

/-- The world once deposits have been made, each of which may have failed. -/
def makeAll (snapshots : Snapshots) (deposits : List Deposit) (world : World) : World :=
  deposits.foldl (fun world deposit => (deposit.make snapshots world).2) world

/-- Made by others than the owner of a name, under names of files. -/
def IsForeign (job name : String) (deposit : Deposit) : Prop :=
  IsName deposit.job ∧ IsName deposit.name ∧ (deposit.job, deposit.name) ≠ (job, name)

instance (job name : String) (deposit : Deposit) : Decidable (deposit.IsForeign job name) :=
  inferInstanceAs (Decidable (_ ∧ _))

/-- Whatever is stored for others, in whatever order, the snapshots of a name stay as they were. -/
theorem makeAll_untouched (isJob : IsName job) (isName : IsName name)
    (foreign : ∀ deposit ∈ deposits, deposit.IsForeign job name)
    (untouched : Snapshots.Untouched snapshots job name before world) :
    Snapshots.Untouched snapshots job name before (makeAll snapshots deposits world) := by
  induction deposits generalizing world with
  | nil => exact untouched
  | cons deposit rest ih =>
    obtain ⟨⟨isOther, isOtherName, other⟩, foreignRest⟩ := List.forall_mem_cons.mp foreign
    exact ih foreignRest (Snapshots.store_untouched isJob isName isOther isOtherName other
      deposit.value deposit.time world untouched)

end Deposit

end Newsreel
