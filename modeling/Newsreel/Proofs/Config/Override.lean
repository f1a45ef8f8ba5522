import Newsreel.Config.Reader
import Newsreel.Proofs.Attempt
import Newsreel.Proofs.Document.Types
import Newsreel.Proofs.Value.Fields
import Newsreel.Proofs.Value.ReadWrite

/-!
Single entries of a configuration replaced.

An override takes a detour: the configuration is written as a value, the value is changed and read
again. The detour loses nothing because what is written is exactly what is read back, and that rests
on names: each of the configuration's own fields is written once, and no further parameter has the
name of one. Only the credentials are not written. They are put aside and come back where the value
can be read; where it cannot, they are lost.
-/

namespace Newsreel

namespace Decode

variable {checks : List Check} {fields : Fields} {name : String} {value : Value}

/-- Why the field of a name cannot have a value. Only fields of the record are looked at. -/
def faultAt? (checks : List Check) (name : String) (value : Value) : Option DecodeFault :=
  (checks.find? fun check => check.name = name).bind fun check => check.fault? value

theorem firstFault?_cons (field : String × Value) : firstFault? checks (field :: fields) =
    (faultAt? checks field.1 field.2).or (firstFault? checks fields) := by
  obtain ⟨name, value⟩ := field
  rw [firstFault?, faultAt?]
  cases (checks.find? fun check => check.name = name).bind fun check => check.fault? value <;> rfl

theorem firstFault?_eq_none_iff : firstFault? checks fields = none ↔
    ∀ field ∈ fields, faultAt? checks field.1 field.2 = none := by
  induction fields with
  | nil => simp [firstFault?]
  | cons field fields ih => simp [firstFault?_cons, ih]

theorem firstFault?_append (front back : Fields) : firstFault? checks (front ++ back) =
    (firstFault? checks front).or (firstFault? checks back) := by
  induction front with
  | nil => rfl
  | cons field front ih =>
    rw [List.cons_append, firstFault?_cons, firstFault?_cons, ih, Option.or_assoc]

/-- Of sound fields with one more written, only that one can be at fault. -/
theorem firstFault?_insert (sound : firstFault? checks fields = none) :
    firstFault? checks (Fields.insert name value fields) = faultAt? checks name value := by
  rcases Fields.written_insert name value fields with ⟨front, old, back, -, rfl, written⟩ |
    ⟨-, written⟩
  · rw [firstFault?_append, Option.or_eq_none_iff, firstFault?_cons, Option.or_eq_none_iff] at sound
    rw [written, firstFault?_append, firstFault?_cons, sound.1, sound.2.2, Option.none_or,
      Option.or_none]
  · rw [written, firstFault?_append, sound, firstFault?_cons, Option.none_or]
    exact Option.or_none

/-- A field that may be missing is read from sound fields. -/
theorem RecordField.get_of_sound {α : Type} {field : RecordField α}
    (among : checks.find? (fun check => check.name = field.name) = some field.check)
    (optional : field.absent.isSome) (sound : firstFault? checks fields = none) :
    ∃ a, field.get fields = .ok a := by
  rw [get]
  cases found : Fields.find? field.name fields with
  | none =>
    obtain ⟨default, absent⟩ := Option.isSome_iff_exists.mp optional
    exact ⟨default, by rw [absent]⟩
  | some value =>
    have clean : faultAt? checks field.name value = none :=
      firstFault?_eq_none_iff.mp sound _ (Fields.mem_of_find? found)
    rw [faultAt?, among] at clean
    cases decoded : field.decode value with
    | ok a => exact ⟨a, decoded⟩
    | error fault => simp [check, decoded] at clean

theorem path_ok {s : String} (success : path value = .ok s) : value = .string s := by
  cases value <;> cases success
  rfl

theorem flag_ok {b : Bool} (success : flag value = .ok b) : value = .bool b := by
  cases value <;> cases success
  rfl

end Decode

namespace JobConfig

open Decode

/-- The fields with a meaning of their own that are written, in order. -/
def ownFields (config : JobConfig) : Fields :=
  [("job_name", .string config.jobName),
    ("output_path", .string config.outputPath),
    ("temp_path", .string config.tempPath),
    ("memory_path", .string config.memoryPath),
    ("fixtures_path", .string config.fixturesPath),
    ("testing", .bool config.testing),
    ("h264_nvenc", .bool config.nvenc),
    ("out_time", .bool config.outTime)]

/-- The names of the fields that are written. -/
def ownNames : List String :=
  ["job_name", "output_path", "temp_path", "memory_path", "fixtures_path", "testing", "h264_nvenc",
    "out_time"]

/-- All that is written of a configuration, in order. -/
def entries (config : JobConfig) : Fields := config.ownFields ++ config.extra

theorem eq_of_ownFields {first second : JobConfig} (own : first.ownFields = second.ownFields)
    (extra : first.extra = second.extra) (keys : first.apiKeys = second.apiKeys) :
    first = second := by
  cases first
  cases second
  simp_all [ownFields]

/-- Each further parameter has a name of its own, and none that has another meaning. -/
structure Sound (config : JobConfig) : Prop where
  nodup : (Fields.names config.extra).Nodup
  unknown : ∀ name ∈ Fields.names config.extra, isKnown name = false

variable {config changed : JobConfig} {key : String} {value : Value}

theorem isKnown_iff {name : String} :
    isKnown name = true ↔ name ∈ ownNames ∨ name = "api_keys" := by
  have names : checks.map (·.name) = ownNames ++ ["api_keys"] := rfl
  rw [← List.mem_singleton (b := "api_keys"), ← List.mem_append, ← names]
  simp [isKnown]

theorem Sound.nodup_entries (sound : config.Sound) : (Fields.names config.entries).Nodup := by
  rw [entries, Fields.names_append, List.nodup_append]
  have apart : ownNames.Nodup := by decide
  refine ⟨apart, sound.nodup, fun own listed other further same => ?_⟩
  subst same
  have known : isKnown own = true := isKnown_iff.mpr (Or.inl listed)
  rw [sound.unknown own further] at known
  cases known

theorem Sound.toValue_eq (sound : config.Sound) : config.toValue = .object config.entries :=
  congrArg Value.object (Fields.ofList_of_nodup sound.nodup_entries)

/-- What is written can be read. -/
theorem Sound.firstFault?_entries (sound : config.Sound) :
    firstFault? checks config.entries = none := by
  rw [entries, firstFault?_append, show firstFault? checks config.ownFields = none from rfl,
    Option.none_or, firstFault?_eq_none_iff]
  intro field further
  have unknown := sound.unknown _ (Fields.mem_names further)
  rw [isKnown, List.any_eq_false] at unknown
  rw [faultAt?, List.find?_eq_none.mpr unknown]
  rfl

/-- Reading fails where a field of its own cannot have the value it is given, and only there. -/
theorem ofValue_error_iff {given : Fields} {fault : DecodeFault} :
    ofValue (.object given) = .error fault ↔ firstFault? checks given = some fault := by
  rw [ofValue, openRecord]
  cases sound : firstFault? checks given with
  | some first =>
    simp [bind, Except.bind]
  | none =>
    obtain ⟨jobName, name⟩ := nameField.get_of_sound rfl rfl sound
    obtain ⟨outputPath, output⟩ := outputField.get_of_sound rfl rfl sound
    obtain ⟨tempPath, temp⟩ := tempField.get_of_sound rfl rfl sound
    obtain ⟨memoryPath, memory⟩ := memoryField.get_of_sound rfl rfl sound
    obtain ⟨fixturesPath, fixtures⟩ := fixturesField.get_of_sound rfl rfl sound
    obtain ⟨testing, tests⟩ := testingField.get_of_sound rfl rfl sound
    obtain ⟨nvenc, card⟩ := nvencField.get_of_sound rfl rfl sound
    obtain ⟨outTime, time⟩ := outTimeField.get_of_sound rfl rfl sound
    obtain ⟨apiKeys, keys⟩ := apiKeysField.get_of_sound rfl rfl sound
    simp [bind, Except.bind, pure, Except.pure, name, output, temp, memory, fixtures, tests, card,
      time, keys]

/-- A configuration states what has been given for each of its fields, and the rest as it is. -/
structure Read (given : Fields) (config : JobConfig) : Prop where
  name : nameField.get given = .ok config.jobName
  output : outputField.get given = .ok config.outputPath
  temp : tempField.get given = .ok config.tempPath
  memory : memoryField.get given = .ok config.memoryPath
  fixtures : fixturesField.get given = .ok config.fixturesPath
  testing : testingField.get given = .ok config.testing
  nvenc : nvencField.get given = .ok config.nvenc
  outTime : outTimeField.get given = .ok config.outTime
  extra : config.extra = given.filter fun field => !isKnown field.1

theorem read_of_ofValue {given : Fields} (success : ofValue (.object given) = .ok config) :
    Read given config := by
  rw [ofValue, Outcome.bind_ok_iff] at success
  obtain ⟨opened, sound, success⟩ := success
  obtain rfl := openRecord_object sound
  obtain ⟨jobName, name, success⟩ := Outcome.bind_ok_iff.mp success
  obtain ⟨outputPath, output, success⟩ := Outcome.bind_ok_iff.mp success
  obtain ⟨tempPath, temp, success⟩ := Outcome.bind_ok_iff.mp success
  obtain ⟨memoryPath, memory, success⟩ := Outcome.bind_ok_iff.mp success
  obtain ⟨fixturesPath, fixtures, success⟩ := Outcome.bind_ok_iff.mp success
  obtain ⟨testing, tests, success⟩ := Outcome.bind_ok_iff.mp success
  obtain ⟨nvenc, card, success⟩ := Outcome.bind_ok_iff.mp success
  obtain ⟨outTime, time, success⟩ := Outcome.bind_ok_iff.mp success
  obtain ⟨apiKeys, -, success⟩ := Outcome.bind_ok_iff.mp success
  cases success
  exact ⟨name, output, temp, memory, fixtures, tests, card, time, rfl⟩

/-- Where all of its own fields are given, in order, a configuration is written as it was read. -/
theorem Read.ownFields_eq {own further : Fields} (named : Fields.names own = ownNames)
    (read : Read (own ++ further) config) : config.ownFields = own := by
  simp only [Fields.names, ownNames, List.map_eq_cons_iff, List.map_eq_nil_iff] at named
  obtain ⟨⟨_, jobName⟩, _, rfl, rfl, ⟨_, output⟩, _, rfl, rfl, ⟨_, temp⟩, _, rfl, rfl,
    ⟨_, memory⟩, _, rfl, rfl, ⟨_, fixtures⟩, _, rfl, rfl, ⟨_, testing⟩, _, rfl, rfl,
    ⟨_, nvenc⟩, _, rfl, rfl, ⟨_, outTime⟩, _, rfl, rfl, rfl⟩ := named
  obtain rfl := text_ok (RecordField.get_of_find? read.name rfl)
  obtain rfl := path_ok (RecordField.get_of_find? read.output rfl)
  obtain rfl := path_ok (RecordField.get_of_find? read.temp rfl)
  obtain rfl := path_ok (RecordField.get_of_find? read.memory rfl)
  obtain rfl := path_ok (RecordField.get_of_find? read.fixtures rfl)
  obtain rfl := flag_ok (RecordField.get_of_find? read.testing rfl)
  obtain rfl := flag_ok (RecordField.get_of_find? read.nvenc rfl)
  obtain rfl := flag_ok (RecordField.get_of_find? read.outTime rfl)
  rfl

theorem Read.extra_eq {own further : Fields} (named : Fields.names own = ownNames)
    (read : Read (own ++ further) config) :
    config.extra = further.filter fun field => !isKnown field.1 := by
  have known : own.filter (fun field => !isKnown field.1) = [] := by
    refine List.filter_eq_nil_iff.mpr fun field listed => ?_
    rw [isKnown_iff.mpr (Or.inl (named ▸ Fields.mem_names listed))]
    exact Bool.false_ne_true
  rw [read.extra, List.filter_append, known, List.nil_append]

theorem Read.sound {given : Fields} (nodup : (Fields.names given).Nodup)
    (read : Read given config) : config.Sound where
  nodup := by
    rw [read.extra]
    exact nodup.sublist (List.filter_sublist.map _)
  unknown name listed := by
    rw [read.extra] at listed
    obtain ⟨field, kept, rfl⟩ := List.mem_map.mp listed
    simpa using (List.mem_filter.mp kept).2

/-- The configuration written as a value, with one entry changed, and read again. -/
theorem Sound.set_ok (sound : config.Sound) (success : config.set key value = (.ok (), changed)) :
    Read (Fields.insert key value config.entries) changed ∧ changed.apiKeys = config.apiKeys := by
  simp only [set, sound.toValue_eq] at success
  cases decoded : ofValue (.object (Fields.insert key value config.entries)) with
  | error fault =>
    rw [decoded] at success
    cases success
  | ok result =>
    rw [decoded] at success
    cases success
    obtain ⟨name, output, temp, memory, fixtures, testing, nvenc, outTime, extra⟩ :=
      read_of_ofValue decoded
    exact ⟨⟨name, output, temp, memory, fixtures, testing, nvenc, outTime, extra⟩, rfl⟩

/-- An entry is refused where it is a field of its own that cannot have the value. Everything but
the credentials stays. -/
theorem Sound.set_error_iff (sound : config.Sound) {fault : DecodeFault} :
    config.set key value = (.error fault, changed) ↔
      faultAt? checks key value = some fault ∧ changed = { config with apiKeys := [] } := by
  rw [← firstFault?_insert sound.firstFault?_entries, ← ofValue_error_iff]
  simp only [set, sound.toValue_eq]
  cases ofValue (.object (Fields.insert key value config.entries)) with
  | error first => simp [eq_comm]
  | ok decoded => simp

/-- Further parameters are those that have no other meaning. -/
theorem Sound.filter_extra (sound : config.Sound) :
    config.extra.filter (fun field => !isKnown field.1) = config.extra :=
  List.filter_eq_self.mpr fun _ further => by rw [sound.unknown _ (Fields.mem_names further)]; rfl

theorem Sound.set_own (sound : config.Sound) (own : key ∈ Fields.names config.ownFields)
    (success : config.set key value = (.ok (), changed)) :
    changed.ownFields = Fields.insert key value config.ownFields ∧
      changed.extra = config.extra := by
  have read := (sound.set_ok success).1
  rw [entries, Fields.insert_append_of_mem own] at read
  have named := Fields.names_insert_of_mem own value
  exact ⟨read.ownFields_eq named, (read.extra_eq named).trans sound.filter_extra⟩

theorem Sound.set_further (sound : config.Sound) (further : key ∉ Fields.names config.ownFields)
    (success : config.set key value = (.ok (), changed)) :
    changed.ownFields = config.ownFields ∧
      changed.extra =
        (Fields.insert key value config.extra).filter fun field => !isKnown field.1 := by
  have read := (sound.set_ok success).1
  rw [entries, Fields.insert_append_of_not_mem further] at read
  exact ⟨read.ownFields_eq rfl, read.extra_eq rfl⟩

/-- The changed configuration is written with the one entry changed. -/
theorem Sound.entries_set (sound : config.Sound) (other : key ≠ "api_keys")
    (success : config.set key value = (.ok (), changed)) :
    changed.entries = Fields.insert key value config.entries := by
  by_cases own : key ∈ Fields.names config.ownFields
  · obtain ⟨fields, extra⟩ := sound.set_own own success
    rw [entries, entries, Fields.insert_append_of_mem own, fields, extra]
  · obtain ⟨fields, extra⟩ := sound.set_further own success
    have unknown : isKnown key = false := by
      rw [Bool.eq_false_iff]
      exact fun known => (isKnown_iff.mp known).elim own other
    have kept : ∀ field ∈ Fields.insert key value config.extra, (!isKnown field.1) = true := by
      intro field listed
      rcases (Fields.written_insert key value config.extra).mem listed with rfl | before
      · simp [unknown]
      · simp [sound.unknown _ (Fields.mem_names before)]
    rw [entries, entries, Fields.insert_append_of_not_mem own, fields, extra,
      List.filter_eq_self.mpr kept]

/-- Credentials are no entry: what is given for them is read and dropped. -/
theorem Sound.set_apiKeys (sound : config.Sound)
    (success : config.set "api_keys" value = (.ok (), changed)) : changed = config := by
  have new : "api_keys" ∉ Fields.names config.extra := fun listed =>
    absurd (sound.unknown _ listed) (by decide)
  have further : "api_keys" ∉ Fields.names config.ownFields := by
    have apart : "api_keys" ∉ ownNames := by decide
    exact apart
  obtain ⟨fields, extra⟩ := sound.set_further further success
  have keys := (sound.set_ok success).2
  have dropped : [("api_keys", value)].filter (fun field => !isKnown field.1) = [] := rfl
  rw [Fields.insert_of_not_mem new, List.filter_append, sound.filter_extra, dropped,
    List.append_nil] at extra
  exact eq_of_ownFields fields extra keys

theorem Sound.sound_set (sound : config.Sound)
    (success : config.set key value = (.ok (), changed)) : changed.Sound :=
  (sound.set_ok success).1.sound ((Fields.written_insert ..).nodup sound.nodup_entries)

/-! Configurations that are read and changed. -/

/-- What is given for an entry: the value that a text states, or else the text itself. -/
def stated (readScalar : String → Option Value) (raw : String) : Value :=
  (readScalar raw).getD (.string raw)

/-- What readers of texts may make of an entry, the reader of YAML among them. -/
theorem entryValue_eq (raw : String) :
    entryValue raw = stated (fun raw => (Yaml.readValue raw).toOption) raw := by
  rw [entryValue, stated]
  cases Yaml.readValue raw <;> rfl

/-- A configuration that has been read, of a text or of a value, and of which entries have then been
replaced. -/
inductive Reached (readScalar : String → Option Value) : JobConfig → Prop
  | text {text : String} {config : JobConfig} (success : JobConfig.read text = .ok config) :
    Reached readScalar config
  | value {given : Fields} {config : JobConfig} (nodup : (Fields.names given).Nodup)
    (success : ofValue (.object given) = .ok config) : Reached readScalar config
  | set {config changed : JobConfig} {key raw : String} (reached : Reached readScalar config)
    (success : config.set key (stated readScalar raw) = (.ok (), changed)) :
    Reached readScalar changed

theorem named_sound (name : String) : (named name).Sound where
  nodup := List.nodup_nil
  unknown _ listed := by cases listed

end JobConfig

theorem Outcome.mapError_ok {ε δ α : Type} {f : ε → δ} {outcome : Except ε α} {a : α}
    (success : outcome.mapError f = .ok a) : outcome = .ok a := by
  cases outcome <;> cases success
  rfl

namespace Yaml

variable {α β : Type} {first : Reading α} {next : α → Reading β} {aliases left : Nat}

theorem Reading.bind_ok {b : β} (success : (first >>= next) aliases = .ok (b, left)) :
    ∃ a between, first aliases = .ok (a, between) ∧ next a between = .ok (b, left) := by
  obtain ⟨⟨a, between⟩, begun, rest⟩ := Outcome.bind_ok_iff.mp success
  exact ⟨a, between, begun, rest⟩

/-- All that is read of a list is read of one of its items. -/
theorem Reading.mapM_ok {f : α → Reading β} {items : List α} {results : List β}
    (success : items.mapM f aliases = .ok (results, left)) {result : β}
    (listed : result ∈ results) :
    ∃ item ∈ items, ∃ aliases left, f item aliases = .ok (result, left) := by
  induction items generalizing results aliases with
  | nil =>
    cases success
    cases listed
  | cons item items ih =>
    rw [List.mapM_cons] at success
    obtain ⟨first, between, read, success⟩ := Reading.bind_ok success
    obtain ⟨later, behind, rest, success⟩ := Reading.bind_ok success
    cases success
    rcases List.mem_cons.mp listed with rfl | listed
    · exact ⟨item, List.mem_cons_self, _, _, read⟩
    · obtain ⟨other, among, read⟩ := ih rest listed
      exact ⟨other, List.mem_cons_of_mem _ among, read⟩

theorem Tree.run_ok {tree : Tree} {reading : Tree → Node → Reading α} {nothing : Except Fault α}
    {a : α} (success : tree.run reading nothing = .ok a) :
    nothing = .ok a ∨ ∃ node aliases left, reading tree node aliases = .ok (a, left) := by
  rw [Tree.run] at success
  split at success
  · exact Or.inl success
  · next node _ =>
    cases read : reading tree node (100 * node.size) with
    | error fault =>
      rw [read] at success
      cases success
    | ok outcome =>
      rw [read] at success
      cases success
      exact Or.inr ⟨node, _, outcome.2, read⟩

end Yaml

namespace JobConfig

open Decode Yaml

variable {config : JobConfig}

theorem sound_of_extra {fields : List (String × Value)}
    (unknown : ∀ field ∈ fields, isKnown field.1 = false)
    (extra : config.extra = Fields.ofList fields) : config.Sound where
  nodup := extra ▸ Fields.nodup_ofList fields
  unknown name listed := by
    rw [extra] at listed
    obtain ⟨field, written, rfl⟩ := List.mem_map.mp listed
    exact unknown field (Fields.mem_ofList written)

theorem sound_ofEntries {tree : Tree} {depth aliases left : Nat} {given : List (String × Node)}
    (success : ofEntries tree depth given aliases = .ok (config, left)) : config.Sound := by
  obtain ⟨fields, _, read, success⟩ := Reading.bind_ok success
  obtain ⟨_, _, -, success⟩ := Reading.bind_ok success
  obtain ⟨_, _, -, success⟩ := Reading.bind_ok success
  obtain ⟨_, _, -, success⟩ := Reading.bind_ok success
  obtain ⟨_, _, -, success⟩ := Reading.bind_ok success
  obtain ⟨_, _, -, success⟩ := Reading.bind_ok success
  obtain ⟨_, _, -, success⟩ := Reading.bind_ok success
  obtain ⟨_, _, -, success⟩ := Reading.bind_ok success
  obtain ⟨_, _, -, success⟩ := Reading.bind_ok success
  obtain ⟨_, _, -, success⟩ := Reading.bind_ok success
  cases success
  refine sound_of_extra (fun field (listed : field ∈ fields) => ?_) rfl
  obtain ⟨⟨name, node⟩, among, _, _, read⟩ := Reading.mapM_ok read listed
  obtain ⟨value, _, -, read⟩ := Reading.bind_ok read
  cases read
  simpa using (List.mem_filter.mp among).2

theorem sound_read {text : String} (success : JobConfig.read text = .ok config) :
    config.Sound := by
  obtain ⟨tree, -, success⟩ := Outcome.bind_ok_iff.mp success
  obtain ⟨decoded, read, success⟩ := Outcome.bind_ok_iff.mp success
  split at success
  · cases success
  · cases success
    rcases Tree.run_ok (Outcome.mapError_ok read) with nothing | ⟨node, aliases, left, read⟩
    · cases nothing
      exact named_sound _
    · obtain ⟨⟨depth, given⟩, between, -, read⟩ := Reading.bind_ok read
      exact sound_ofEntries read

theorem Reached.sound {readScalar : String → Option Value} (reached : Reached readScalar config) :
    config.Sound := by
  induction reached with
  | text success => exact sound_read success
  | value nodup success => exact (read_of_ofValue success).sound nodup
  | set _ success ih => exact ih.sound_set success

variable {readScalar : String → Option Value} {changed after : JobConfig} {key raw : String}
  {fault : DecodeFault}

/-- An entry that is replaced is the only one that changes: it keeps its place, or comes last if its
name is new, and is what the text gives for it. Credentials are no entry. They stay as they are, and
what is given for them changes nothing. -/
theorem set_changes_entry (reached : Reached readScalar config)
    (success : config.set key (stated readScalar raw) = (.ok (), changed)) :
    ∃ before after : Fields, config.toValue = .object before ∧ changed.toValue = .object after ∧
      (Fields.names before).Nodup ∧ changed.apiKeys = config.apiKeys ∧
      (key ≠ "api_keys" → Fields.Written key (stated readScalar raw) before after ∧
        Fields.find? key after = some (stated readScalar raw)) ∧
      (key = "api_keys" → changed = config) := by
  have sound := reached.sound
  refine ⟨config.entries, changed.entries, sound.toValue_eq, (sound.sound_set success).toValue_eq,
    sound.nodup_entries, (sound.set_ok success).2, fun other => ?_, fun same => ?_⟩
  · rw [sound.entries_set other success]
    exact ⟨Fields.written_insert .., Fields.find?_insert_self ..⟩
  · subst same
    exact sound.set_apiKeys success

/-- A job with a credential and a further parameter. -/
def windy : JobConfig :=
  { named "news" with apiKeys := [("sky", "sun")], extra := [("wind", .string "north")] }

theorem windy_reached : Reached readScalar windy := by
  have names : (Fields.names [("job_name", .string "news"), ("wind", .string "north"),
      ("api_keys", .object [("sky", .string "sun")])]).Nodup := by decide
  exact Reached.value names rfl

/-- A plain text is itself. -/
theorem stated_of_text {s : String} (read : (text (entryValue raw)).toOption = some s) :
    stated (fun raw => (readValue raw).toOption) raw = .string s := by
  rw [← entryValue_eq]
  cases decoded : text (entryValue raw) with
  | error fault =>
    rw [decoded] at read
    cases read
  | ok other =>
    rw [decoded] at read
    cases read
    exact text_ok decoded

theorem set_changes_entry_windy :
    ∃ changed, windy.override "wind" "south" = (.ok (), changed) ∧
      changed.apiKey? "sky" = some "sun" ∧
      ∃ before after, windy.toValue = .object before ∧ changed.toValue = .object after ∧
        Fields.Written "wind" (.string "south") before after ∧
        Fields.find? "wind" after = some (.string "south") := by
  have read : stated (fun raw => (readValue raw).toOption) "south" = .string "south" :=
    stated_of_text (by decide +kernel)
  have success : windy.set "wind" (stated (fun raw => (readValue raw).toOption) "south") =
      (.ok (), { windy with extra := [("wind", .string "south")] }) := by
    rw [read]
    rfl
  have other : "wind" ≠ "api_keys" := by decide
  obtain ⟨before, after, old, new, -, keys, written, -⟩ := set_changes_entry windy_reached success
  rw [read] at written
  refine ⟨_, by rw [override, entryValue_eq, success], rfl, before, after, old, new, ?_⟩
  exact written other

/-- An override that fails leaves every entry as it is, but the credentials are gone. It fails where
the entry is a field of its own that cannot have the value. -/
theorem set_forgets_credentials (reached : Reached readScalar config)
    (failure : config.set key (stated readScalar raw) = (.error fault, after)) :
    faultAt? checks key (stated readScalar raw) = some fault ∧
      after.toValue = config.toValue ∧ (∀ name, after.apiKey? name = none) ∧
      (after = config ↔ config.apiKeys = []) := by
  obtain ⟨refused, rfl⟩ := reached.sound.set_error_iff.mp failure
  refine ⟨refused, rfl, fun _ => rfl, fun same => ?_, fun empty => ?_⟩
  · rw [← same]
  · rw [← empty]

theorem set_forgets_credentials_windy :
    ∃ fault after, windy.override "testing" "maybe" = (.error fault, after) ∧
      after.toValue = windy.toValue ∧ (∀ name, after.apiKey? name = none) ∧ after ≠ windy := by
  have read : stated (fun raw => (readValue raw).toOption) "maybe" = .string "maybe" :=
    stated_of_text (by decide +kernel)
  have failure : windy.set "testing" (stated (fun raw => (readValue raw).toOption) "maybe") =
      (.error (unexpected (.string "maybe") "a boolean"), { windy with apiKeys := [] }) := by
    rw [read]
    rfl
  obtain ⟨-, entries, keys, same⟩ := set_forgets_credentials windy_reached failure
  refine ⟨_, _, by rw [override, entryValue_eq, failure], entries, keys, fun unchanged => ?_⟩
  cases same.mp unchanged

/-- A credential is there before an override that fails, and not behind it. -/
theorem windy_loses_credential :
    ∃ fault, (windy.override "testing" "maybe").1 = .error fault ∧
      windy.apiKey? "sky" = some "sun" ∧
      (windy.override "testing" "maybe").2.apiKey? "sky" = none := by
  have read : entryValue "maybe" = .string "maybe" :=
    (entryValue_eq _).trans (stated_of_text (by decide +kernel))
  rw [override, read]
  exact ⟨_, rfl, rfl, rfl⟩

end JobConfig

end Newsreel
