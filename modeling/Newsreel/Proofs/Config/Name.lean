import Newsreel.Media.Assemble
import Newsreel.Proofs.Config.Override
import Newsreel.Proofs.Text.Segments

/-!
The name of a job after overrides.

A configuration that is read has a name that is not blank. An override is not asked for that: it
takes any text for a name. So the name is in the end the last one that an override gave, whatever it
is, and a blank one leaves the files of the job without its name.
-/

namespace Newsreel

theorem Text.trim_eq_empty_iff {s : String} : trim s = "" ↔ isBlankText s = true := by
  rw [trim, String.ofList_eq_empty_iff, trimChars_eq_nil_iff, isBlankText, List.all_eq_true]

namespace JobConfig

open Decode

variable {config changed : JobConfig} {key : String} {value : Value}

/-- The configuration after entries have been replaced one after the other, whether each of them
fits or not. -/
def overrideAll (config : JobConfig) (entries : List (String × String)) : JobConfig :=
  entries.foldl (fun config entry => (config.override entry.1 entry.2).2) config

/-- The name that an entry gives the job. Only a text is a name; with anything else the entry is
refused. -/
def nameGiven? (entry : String × String) : Option String :=
  if entry.1 = "job_name" then (text (entryValue entry.2)).toOption else none

/-- The names that entries give, in order. -/
def namesGiven (entries : List (String × String)) : List String := entries.filterMap nameGiven?

theorem find?_ownFields (config : JobConfig) :
    Fields.find? "job_name" config.ownFields = some (.string config.jobName) := rfl

theorem Sound.set_name (sound : config.Sound)
    (success : config.set "job_name" value = (.ok (), changed)) :
    value = .string changed.jobName := by
  have own : "job_name" ∈ Fields.names config.ownFields := List.mem_cons_self
  have found := find?_ownFields changed
  rw [(sound.set_own own success).1, Fields.find?_insert_self] at found
  exact Option.some.inj found

theorem Sound.set_other (sound : config.Sound) (other : key ≠ "job_name")
    (success : config.set key value = (.ok (), changed)) : changed.jobName = config.jobName := by
  have found := find?_ownFields changed
  by_cases own : key ∈ Fields.names config.ownFields
  · rw [(sound.set_own own success).1, Fields.find?_insert_of_ne other, find?_ownFields] at found
    exact (Value.string.inj (Option.some.inj found)).symm
  · rw [(sound.set_further own success).1, find?_ownFields] at found
    exact (Value.string.inj (Option.some.inj found)).symm

/-- A name is refused where it is no text. -/
theorem text_of_refused {fault : DecodeFault}
    (refused : faultAt? checks "job_name" value = some fault) : (text value).toOption = none := by
  change nameField.check.fault? value = some fault at refused
  rw [RecordField.check] at refused
  cases decoded : text value with
  | error _ => rfl
  | ok name => simp [nameField, decoded] at refused

/-- One override: the name is what it gives, or what it was before. -/
theorem Sound.override (sound : config.Sound) (key raw : String) :
    (config.override key raw).2.Sound ∧
      (config.override key raw).2.jobName = (nameGiven? (key, raw)).getD config.jobName := by
  rw [JobConfig.override, nameGiven?]
  rcases replaced : config.set key (entryValue raw) with ⟨fault | ⟨⟩, changed⟩
  · obtain ⟨refused, rfl⟩ := sound.set_error_iff.mp replaced
    refine ⟨⟨sound.nodup, sound.unknown⟩, ?_⟩
    by_cases named : key = "job_name"
    · subst named
      rw [if_pos rfl, text_of_refused refused]
      rfl
    · rw [if_neg named]
      rfl
  · refine ⟨sound.sound_set replaced, ?_⟩
    by_cases named : key = "job_name"
    · subst named
      rw [if_pos rfl, sound.set_name replaced]
      rfl
    · rw [if_neg named, sound.set_other named replaced]
      rfl

/-- Any number of overrides: the name is the last one given, or what it was before. -/
theorem Sound.overrideAll (sound : config.Sound) (entries : List (String × String)) :
    (config.overrideAll entries).Sound ∧
      (config.overrideAll entries).jobName = (namesGiven entries).getLastD config.jobName := by
  induction entries generalizing config with
  | nil => exact ⟨sound, rfl⟩
  | cons entry rest ih =>
    obtain ⟨next, name⟩ := sound.override entry.1 entry.2
    obtain ⟨last, names⟩ := ih next
    refine ⟨last, names.trans ?_⟩
    rw [name, namesGiven, namesGiven, List.filterMap_cons]
    cases nameGiven? entry with
    | none => rfl
    | some given => rw [Option.getD_some, List.getLastD_cons]

theorem trim_jobName_of_read {source : String} (success : read source = .ok config) :
    Text.trim config.jobName ≠ "" := by
  obtain ⟨tree, -, success⟩ := Outcome.bind_ok_iff.mp success
  obtain ⟨stated, -, success⟩ := Outcome.bind_ok_iff.mp success
  rw [Ne, Text.trim_eq_empty_iff]
  split at success
  · cases success
  · next visible =>
    cases success
    exact visible

/-- A job that is read has a name. However many entries are then replaced, it is called by the last
name that one of them gave, or else by the one that was read. Nothing refuses a blank name, so the
job has one exactly where the last override of its name gave one. -/
theorem blank_name_iff {source : String} (success : read source = .ok config)
    (entries : List (String × String)) :
    Text.trim config.jobName ≠ "" ∧
      (config.overrideAll entries).jobName = (namesGiven entries).getLastD config.jobName ∧
      (Text.trim (config.overrideAll entries).jobName = "" ↔
        ∃ name, (namesGiven entries).getLast? = some name ∧ Text.trim name = "") := by
  have named := trim_jobName_of_read success
  have last := ((sound_read success).overrideAll entries).2
  refine ⟨named, last, ?_⟩
  rw [last, List.getLastD_eq_getLast?]
  cases (namesGiven entries).getLast? with
  | none => simp [named]
  | some name => simp

theorem blank_name_iff_sky :
    ∃ config, read "job_name: news" = .ok config ∧
      (config.overrideAll [("job_name", "''"), ("wind", "north"), ("job_name", "sky"),
        ("job_name", "[]")]).jobName = "sky" := by
  have some : (read "job_name: news").toOption.isSome := by decide +kernel
  cases success : read "job_name: news" with
  | error fault =>
    rw [success] at some
    cases some
  | ok config =>
    obtain ⟨-, name, -⟩ := blank_name_iff success [("job_name", "''"), ("wind", "north"),
      ("job_name", "sky"), ("job_name", "[]")]
    have given : namesGiven [("job_name", "''"), ("wind", "north"), ("job_name", "sky"),
      ("job_name", "[]")] = ["", "sky"] := by decide +kernel
    rw [given] at name
    exact ⟨config, rfl, name⟩

/-- An override takes the name of a job that had one, and its video has no name then. -/
theorem override_blanks_name :
    ∃ config, read "job_name: news" = .ok config ∧ config.jobName = "news" ∧
      (config.override "job_name" "''").1 = .ok () ∧
      Text.trim (config.overrideAll [("job_name", "''")]).jobName = "" ∧
      Media.outputPath (config.overrideAll [("job_name", "''")]) none =
        "/data/visuflow/out/.mp4" := by
  have stated : (read "job_name: news").toOption.map (fun config =>
      (config.jobName, (config.override "job_name" "''").1.toOption,
        Text.trim (config.overrideAll [("job_name", "''")]).jobName,
        Media.outputPath (config.overrideAll [("job_name", "''")]) none)) =
      some ("news", some (), "", "/data/visuflow/out/.mp4") := by decide +kernel
  cases success : read "job_name: news" with
  | error fault =>
    rw [success] at stated
    cases stated
  | ok config =>
    rw [success] at stated
    cases fits : (config.override "job_name" "''").1 with
    | error fault => simp [Except.toOption, fits] at stated
    | ok =>
      simp only [Except.toOption, Option.map_some, Option.some.injEq, Prod.mk.injEq] at stated
      obtain ⟨name, -, blank, path⟩ := stated
      exact ⟨config, rfl, name, fits, blank, path⟩

end JobConfig

end Newsreel
