import Newsreel.Proofs.Calendar.Stamp
import Newsreel.Proofs.Files.Directories

/-!
Snapshots are a map from times to values, read from the newest time on.

Whatever is stored under the times of a name, in whatever order, its directory holds one file for
each of the times with the value that was stored last under it. Files of other names do not count.
Every store keeps it so, and what is read follows from it.
-/

namespace Newsreel

open Calendar (DateTime)
open Files (IsName Place Tree)

/-! Characters. -/

theorem Text.utf8ByteSize_le (cs : List Char) :
    (String.ofList cs).utf8ByteSize ≤ 4 * cs.length := by
  induction cs with
  | nil => exact Nat.le_refl 0
  | cons c cs ih =>
    have text : String.ofList (c :: cs) = String.singleton c ++ String.ofList cs := by
      rw [← String.toList_inj]
      simp
    have size := Char.utf8Size_le_four c
    rw [text, String.utf8ByteSize_append, String.utf8ByteSize_singleton, List.length_cons]
    omega

namespace Snapshots

variable {snapshots : Snapshots} {job name directory : String} {time other : DateTime}
  {value : Value} {stores : List (DateTime × Value)} {before : World} {tree : Tree}
  {names : List String}

/-- The name of the file for a time. -/
def fileName (time : DateTime) : String := time.stamp ++ ".json"

theorem mem_stamp (proper : time.Proper) {c : Char} (member : c ∈ time.stamp.toList) :
    c.isDigit = true ∨ c = '-' ∨ c = '_' := by
  have digit {width n : Nat} (inside : c ∈ (Text.padded width n).toList) :=
    Text.isDigit_of_mem_padded inside
  rw [proper.toList_stamp] at member
  simp only [List.mem_append, List.mem_cons] at member
  rcases member with
    inside | rfl | inside | rfl | inside | rfl | inside | rfl | inside | rfl | inside
  all_goals first
    | exact Or.inl (digit inside)
    | exact Or.inr (Or.inl rfl)
    | exact Or.inr (Or.inr rfl)

theorem length_stamp (proper : time.Proper) : time.stamp.toList.length = 19 := by
  obtain ⟨year, month, day⟩ := proper.date.fits
  have hour := proper.clock.hour
  have minute := proper.clock.minute
  have second := proper.stampSecond_le
  rw [proper.toList_stamp]
  simp only [List.length_append, List.length_cons, Text.length_padded (by decide : 0 < 4) year,
    Text.length_padded (by decide : 0 < 2) month, Text.length_padded (by decide : 0 < 2) day,
    Text.length_padded (n := time.clock.hour) (by decide : 0 < 2) (by omega),
    Text.length_padded (n := time.clock.minute) (by decide : 0 < 2) (by omega),
    Text.length_padded (n := time.stampSecond) (by decide : 0 < 2) (by omega)]

theorem isName_fileName (proper : time.Proper) : IsName (fileName time) := by
  have length : (fileName time).toList.length = 24 := by
    rw [fileName, String.toList_append, List.length_append, length_stamp proper]
    rfl
  have absent {c : Char} (noDigit : c.isDigit = false) (others : c ≠ '-' ∧ c ≠ '_')
      (ending : c ∉ ".json".toList) : c ∉ (fileName time).toList := by
    intro member
    rw [fileName, String.toList_append, List.mem_append] at member
    rcases member with inside | inside
    · rcases mem_stamp proper inside with digit | equal | equal
      · rw [noDigit] at digit
        cases digit
      · exact others.1 equal
      · exact others.2 equal
    · exact ending inside
  have apart {text : String} (short : text.toList.length < 24) : fileName time ≠ text := by
    rintro rfl
    omega
  refine ⟨absent (by decide) (by decide) (by decide), absent (by decide) (by decide) (by decide),
    ⟨apart (by decide), apart (by decide), apart (by decide)⟩, ?_⟩
  have size := Text.utf8ByteSize_le (fileName time).toList
  rw [String.ofList_toList, length] at size
  exact size.trans (by decide)

/-- A file is found by the time for which it is named. -/
theorem stampOf?_fileName (whole : time.Whole) : stampOf? (fileName time) = some time := by
  have backwards : (fileName time).toList.reverse =
      ".json".toList.tail.reverse ++ '.' :: time.stamp.toList.reverse := by
    simp [fileName]
  have some : time.stamp.toList.reverse.isEmpty = false := by
    have length := length_stamp whole.toProper
    cases chars : time.stamp.toList with
    | nil =>
      rw [chars] at length
      cases length
    | cons c cs => simp
  have split : Files.splitName (fileName time) = (time.stamp, Option.some "json") := by
    rw [Files.splitName, backwards, Text.splitAtChar?_append (by decide)]
    simp only [some, Bool.false_eq_true, if_false, List.reverse_reverse, String.ofList_toList]
    rfl
  rw [stampOf?, split]
  simp only [whole.readDateTime_stamp, Except.toOption]

/-! Storing. -/

/-- The value that was stored last under a time. -/
def lastStored? (stores : List (DateTime × Value)) (time : DateTime) : Option Value :=
  (stores.reverse.find? fun store => store.1 = time).map (·.2)

theorem lastStored?_append (stores : List (DateTime × Value)) (time other : DateTime)
    (value : Value) : lastStored? (stores ++ [(time, value)]) other =
      if time = other then some value else lastStored? stores other := by
  rw [lastStored?, List.reverse_append, List.reverse_singleton, List.singleton_append,
    List.find?_cons]
  by_cases same : time = other
  · simp [same]
  · simp [same, lastStored?]

theorem mem_of_lastStored? (last : lastStored? stores time = some value) :
    (time, value) ∈ stores := by
  obtain ⟨⟨other, stored⟩, found, same⟩ := Option.map_eq_some_iff.mp last
  have stamp : other = time := by simpa using List.find?_some found
  rw [← stamp, ← same]
  exact List.mem_reverse.mp (List.mem_of_find?_eq_some found)

theorem lastStored?_eq_none_iff :
    lastStored? stores time = none ↔ ∀ value, (time, value) ∉ stores := by
  rw [lastStored?, Option.map_eq_none_iff, List.find?_eq_none]
  constructor
  · intro absent value member
    simpa using absent (time, value) (List.mem_reverse.mpr member)
  · rintro absent ⟨other, value⟩ member same
    rw [decide_eq_true_eq] at same
    exact absent value (same ▸ List.mem_reverse.mp member)

/-- What a directory holds: for each time under which something was stored, one file with the value
that was stored last. -/
structure Holds (directory : String) (stores : List (DateTime × Value)) (tree : Tree)
    (names : List String) : Prop where
  listed : tree.list directory = .ok names
  named {file : String} {time : DateTime} (member : file ∈ names)
    (snapshot : stampOf? file = some time) : file = fileName time
  once : (names.filterMap stampOf?).Nodup
  stamps (time : DateTime) : time ∈ names.filterMap stampOf? ↔ lastStored? stores time ≠ none
  texts {time : DateTime} {value : Value} (last : lastStored? stores time = some value) :
    tree.file? (Place.ofPath directory ++ [fileName time]) = some (Json.pretty 0 value)

/-- A directory without snapshots. -/
theorem holds_foreign (listed : tree.list directory = .ok names)
    (foreign : ∀ file ∈ names, stampOf? file = none) : Holds directory [] tree names := by
  have noStamps : names.filterMap stampOf? = [] := by
    rw [List.filterMap_eq_nil_iff]
    exact foreign
  refine ⟨listed, fun member snapshot => ?_, ?_, fun time => ?_, fun last => ?_⟩
  · rw [foreign _ member] at snapshot
    cases snapshot
  · rw [noStamps]
    exact List.nodup_nil
  · rw [noStamps]
    simp [lastStored?]
  · cases last

namespace Holds

theorem mem_stamps_iff (holds : Holds directory stores tree names) (whole : time.Whole) :
    time ∈ names.filterMap stampOf? ↔ fileName time ∈ names := by
  rw [List.mem_filterMap]
  constructor
  · rintro ⟨file, member, snapshot⟩
    rwa [← holds.named member snapshot]
  · exact fun member => ⟨_, member, stampOf?_fileName whole⟩

/-- A snapshot is a file. -/
theorem not_directory (holds : Holds directory stores tree names) (whole : time.Whole) :
    tree.entry? (Place.ofPath directory ++ [fileName time]) ≠ some .directory := by
  intro there
  obtain ⟨-, -, listed⟩ := Tree.list_ok_iff.mp holds.listed
  have member : fileName time ∈ names := by
    rw [← listed, Tree.mem_namesIn_iff (isName_fileName whole.toProper), there]
    nofun
  have stored := (holds.stamps time).mp ((holds.mem_stamps_iff whole).mpr member)
  obtain ⟨value, last⟩ := Option.ne_none_iff_exists'.mp stored
  have text := holds.texts last
  rw [Tree.file?, there] at text
  cases text

/-- The texts of the files once one more has been written. -/
theorem texts_insert (holds : Holds directory stores tree names) (whole : time.Whole) {last : Value}
    (found : lastStored? (stores ++ [(time, value)]) other = some last) :
    (tree.insert (Place.ofPath directory ++ [fileName time]) (.file (Json.pretty 0 value))).file?
      (Place.ofPath directory ++ [fileName other]) = some (Json.pretty 0 last) := by
  rw [Tree.file?_insert_file (holds.not_directory whole)]
  rw [lastStored?_append] at found
  by_cases same : time = other
  · rw [if_pos same, Option.some.injEq] at found
    rw [if_pos (by rw [same]), found]
  · rw [if_neg same] at found
    have kept : other ∈ names.filterMap stampOf? := by
      rw [holds.stamps, found]
      nofun
    obtain ⟨file, member, snapshot⟩ := List.mem_filterMap.mp kept
    -- The name tells the time, so the file for another time is another one.
    have apart : fileName other ≠ fileName time := by
      intro equal
      rw [holds.named member snapshot, equal, stampOf?_fileName whole] at snapshot
      exact same (Option.some.inj snapshot)
    rw [if_neg (by simpa using apart), holds.texts found]

/-- A file for a time takes the place of the one that there was. -/
theorem insert (holds : Holds directory stores tree names) (whole : time.Whole) (value : Value) :
    Holds directory (stores ++ [(time, value)])
      (tree.insert (Place.ofPath directory ++ [fileName time]) (.file (Json.pretty 0 value)))
      (if fileName time ∈ names then names else names ++ [fileName time]) := by
  have listed := Tree.list_insert holds.listed (isName_fileName whole.toProper)
    (holds.not_directory whole) (Json.pretty 0 value)
  by_cases present : fileName time ∈ names
  · rw [if_pos present] at listed ⊢
    refine ⟨listed, holds.named, holds.once, fun other => ?_, holds.texts_insert whole⟩
    rw [lastStored?_append]
    by_cases same : time = other
    · subst same
      rw [if_pos rfl, holds.mem_stamps_iff whole]
      exact iff_of_true present nofun
    · rw [if_neg same, holds.stamps]
  · rw [if_neg present] at listed ⊢
    have stamp := stampOf?_fileName whole
    have stamps : (names ++ [fileName time]).filterMap stampOf? =
        names.filterMap stampOf? ++ [time] := by
      rw [List.filterMap_append, List.filterMap_cons, stamp, List.filterMap_nil]
    refine ⟨listed, fun member snapshot => ?_, ?_, fun other => ?_, holds.texts_insert whole⟩
    · rcases List.mem_append.mp member with before | last
      · exact holds.named before snapshot
      · rw [List.mem_singleton] at last
        rw [last, stamp, Option.some.injEq] at snapshot
        rw [last, snapshot]
    · rw [stamps]
      refine List.nodup_append.mpr ⟨holds.once, List.pairwise_singleton _ _, ?_⟩
      rintro other inside _ last rfl
      rw [List.mem_singleton] at last
      exact present ((holds.mem_stamps_iff whole).mp (last ▸ inside))
    · rw [stamps, List.mem_append, List.mem_singleton, lastStored?_append, holds.stamps]
      by_cases same : time = other
      · simp [same]
      · simp [same, Ne.symm same]

end Holds

theorem onFiles_run (before : World) {α : Type} {work : Files.Work α} {a : α} {files : Tree}
    (ran : work before.files = (.ok a, files)) :
    Effect.onFiles work before = (.ok a, { before with files }) := by
  rw [Effect.onFiles, ran]

/-- A value is stored in the file for its time, and nothing else happens. -/
theorem Holds.store (before : World)
    (holds : Holds (snapshots.directory job name) stores before.files names) (whole : time.Whole)
    (value : Value) :
    ∃ files names, snapshots.store job name value time before =
        (.ok (Files.join (snapshots.directory job name) (fileName time)), { before with files }) ∧
      Holds (snapshots.directory job name) (stores ++ [(time, value)]) files names := by
  have made := onFiles_run before (Files.Work.makeDirectories_there holds.listed)
  have written := onFiles_run before (Files.Work.write_join holds.listed
    (isName_fileName whole.toProper) (holds.not_directory whole) (Json.pretty 0 value))
  refine ⟨_, _, ?_, holds.insert whole value⟩
  rw [Snapshots.store, Attempt.bind_run_ok made]
  exact Attempt.bind_run_ok written

/-- Stores values under their times, one after the other. -/
def storeEach (snapshots : Snapshots) (job name : String) : List (DateTime × Value) → Effect Unit
  | [] => pure ()
  | (time, value) :: rest => do
    let _ ← snapshots.store job name value time
    storeEach snapshots job name rest

/-- All values are stored. -/
theorem Holds.storeEach (before : World) {past : List (DateTime × Value)}
    (holds : Holds (snapshots.directory job name) past before.files names)
    (whole : ∀ store ∈ stores, store.1.Whole) :
    ∃ files names, snapshots.storeEach job name stores before = (.ok (), { before with files }) ∧
      Holds (snapshots.directory job name) (past ++ stores) files names := by
  induction stores generalizing past before names with
  | nil => exact ⟨before.files, names, rfl, by rwa [List.append_nil]⟩
  | cons store rest ih =>
    obtain ⟨time, value⟩ := store
    obtain ⟨between, found, stored, holds⟩ := holds.store before (whole _ List.mem_cons_self) value
    obtain ⟨files, names, later, holds⟩ := ih { before with files := between } holds
      fun store member => whole store (List.mem_cons_of_mem _ member)
    refine ⟨files, names, ?_, by rwa [List.append_assoc] at holds⟩
    rw [Snapshots.storeEach, Attempt.bind_run_ok stored, later]

/-- Making the directory beforehand changes nothing. -/
theorem store_of_made {made : Tree} (value : Value) (time : DateTime)
    (makes : Files.Work.makeDirectories (snapshots.directory job name) before.files =
      (.ok (), made))
    (listed : made.list (snapshots.directory job name) = .ok names) :
    snapshots.store job name value time before =
      snapshots.store job name value time { before with files := made } := by
  have again : Files.Work.makeDirectories (snapshots.directory job name) made = (.ok (), made) :=
    Files.Work.makeDirectories_there listed
  rw [Snapshots.store, Attempt.bind_run_ok (onFiles_run before makes),
    Attempt.bind_run_ok (onFiles_run { before with files := made } again)]

/-! Reading. -/

namespace Holds

theorem entries (holds : Holds (snapshots.directory job name) stores before.files names) :
    snapshots.entries job name before =
      (.ok (ofNames (snapshots.directory job name) names), before) := by
  simp only [Snapshots.entries, Attempt.look, holds.listed]

/-- The times of the snapshots, the newest first. -/
theorem stamps_ofNames (holds : Holds directory stores tree names) :
    ((ofNames directory names).map (·.1)).Perm (names.filterMap stampOf?) ∧
      ofNames directory names = ((ofNames directory names).map (·.1)).map
        fun time => (time, Files.join directory (fileName time)) := by
  have perm := List.mergeSort_perm
    (names.filterMap fun file => (stampOf? file).map fun time => (time, Files.join directory file))
    fun a b => decide (b.1.rank ≤ a.1.rank)
  constructor
  · have times := perm.map (·.1)
    rw [List.map_filterMap] at times
    rw [ofNames]
    simpa [Option.map_map, Function.comp_def] using times
  · rw [List.map_map]
    refine (List.map_id' _).symm.trans (List.map_congr_left ?_)
    rintro ⟨time, path⟩ member
    obtain ⟨file, present, found⟩ := List.mem_filterMap.mp (perm.mem_iff.mp member)
    obtain ⟨stamp, snapshot, same⟩ := Option.map_eq_some_iff.mp found
    cases same
    rw [Function.comp_apply, ← holds.named present snapshot]

/-- Each time stands before all earlier ones. -/
theorem pairwise_ofNames (holds : Holds directory stores tree names)
    (whole : ∀ store ∈ stores, store.1.Whole) :
    ((ofNames directory names).map (·.1)).Pairwise fun newer older => older.Before newer := by
  have ranks : ((ofNames directory names).map (·.1)).Pairwise fun a b => b.rank ≤ a.rank :=
    List.pairwise_map.mpr
      (Calendar.pairwise_descending (fun entry : DateTime × String => entry.1.rank) _)
  have perm := holds.stamps_ofNames.1
  have proper {time : DateTime} (member : time ∈ (ofNames directory names).map (·.1)) :
      time.Proper := by
    obtain ⟨value, last⟩ :=
      Option.ne_none_iff_exists'.mp ((holds.stamps time).mp (perm.mem_iff.mp member))
    exact (whole _ (mem_of_lastStored? last)).toProper
  have distinct : ((ofNames directory names).map (·.1)).Nodup := perm.nodup_iff.mpr holds.once
  refine (ranks.and distinct).imp_of_mem fun memberA memberB ordered => ?_
  rename_i newer older
  rcases older.before_or_eq_or_after newer with before | equal | after
  · exact before
  · exact absurd equal.symm ordered.2
  · have less := after.rank_lt (proper memberA) (proper memberB)
    omega

end Holds

/-- The snapshots of a name, as they are found in a world, are the map of some stores. -/
structure Answers (snapshots : Snapshots) (job name : String) (stores : List (DateTime × Value))
    (world : World) (stamps : List DateTime) : Prop where
  /-- Each time once, the newest first. -/
  newest : stamps.Pairwise fun newer older => older.Before newer
  /-- The times are those under which something was stored. -/
  stored (time : DateTime) : time ∈ stamps ↔ ∃ value, (time, value) ∈ stores
  /-- All times are listed. Where nothing was stored there may be no directory to list. -/
  entries : snapshots.entries job name world = (.ok (stamps.map fun time =>
      (time, Files.join (snapshots.directory job name) (fileName time))), world) ∨
    (stores = [] ∧ world.files.list (snapshots.directory job name) = .error .notFound)
  /-- From the first place on, the value stored last under the time at that place is read. -/
  read (place : Nat) (time : DateTime) (found : stamps[place]? = some time) :
    ∃ value, lastStored? stores time = some value ∧
      snapshots.readLast job name (place + 1) world = (.ok value, world)
  /-- At every other place nothing is found. -/
  miss (place : Nat) (outside : place = 0 ∨ stamps.length < place) :
    ∃ what, snapshots.readLast job name place world = (.error (.cacheMiss what), world)

theorem readLast_found {list : List (DateTime × String)} {place : Nat} {path : String}
    (listed : snapshots.entries job name before = (.ok list, before))
    (found : list[place]? = some (time, path)) :
    snapshots.readLast job name (place + 1) before = Effect.readValue path before := by
  rw [readLast, Attempt.bind_run_ok listed, if_neg (Nat.succ_ne_zero place), Nat.add_sub_cancel,
    found]

/-- Where nothing has been stored under a name, there is nothing to read. -/
theorem readLast_missing
    (missing : before.files.list (snapshots.directory job name) = .error .notFound) (place : Nat) :
    snapshots.readLast job name place before =
      (.error (.cacheMiss (job ++ "/" ++ name)), before) := by
  have missed : snapshots.entries job name before =
      (.error (.cacheMiss (job ++ "/" ++ name)), before) := by
    simp only [Snapshots.entries, Attempt.look, missing]
  exact Attempt.bind_run_error missed

theorem readLast_miss {list : List (DateTime × String)} {place : Nat}
    (listed : snapshots.entries job name before = (.ok list, before))
    (outside : place = 0 ∨ list.length < place) :
    ∃ what, snapshots.readLast job name place before = (.error (.cacheMiss what), before) := by
  have absent : (if place = 0 then none else list[place - 1]?) = none := by
    split
    · rfl
    · rw [List.getElem?_eq_none_iff]
      omega
  refine ⟨job ++ "/" ++ name ++ " (entry " ++ Text.natural place ++ " of "
    ++ Text.natural list.length ++ ")", ?_⟩
  rw [readLast, Attempt.bind_run_ok listed, absent]
  rfl

theorem readValue_ok {path text : String} (read : before.files.read path = .ok text)
    (parsed : Json.read text = .ok value) : Effect.readValue path before = (.ok value, before) := by
  have looked : Effect.readFile path before = (.ok text, before) :=
    onFiles_run before (congrArg (fun outcome => (outcome, before.files)) read)
  rw [Effect.readValue, Attempt.bind_run_ok looked, parsed]
  rfl

/-- What is read from a directory follows from what it holds. -/
theorem Holds.answers (holds : Holds (snapshots.directory job name) stores before.files names)
    (whole : ∀ store ∈ stores, store.1.Whole)
    (readBack : ∀ store ∈ stores, Json.read (Json.pretty 0 store.2) = .ok store.2) :
    Answers snapshots job name stores before
      ((ofNames (snapshots.directory job name) names).map (·.1)) := by
  obtain ⟨perm, paths⟩ := holds.stamps_ofNames
  have members (time : DateTime) :
      time ∈ (ofNames (snapshots.directory job name) names).map (·.1) ↔
        lastStored? stores time ≠ none := perm.mem_iff.trans (holds.stamps time)
  refine ⟨holds.pairwise_ofNames whole, fun time => ?_, Or.inl ?_, fun place time found => ?_,
    fun place outside => ?_⟩
  · rw [members, ne_eq, lastStored?_eq_none_iff]
    simp only [not_forall, not_not]
  · rw [← paths, holds.entries]
  · have stored := (members time).mp (List.mem_of_getElem? found)
    obtain ⟨value, last⟩ := Option.ne_none_iff_exists'.mp stored
    refine ⟨value, last, ?_⟩
    have entry : (ofNames (snapshots.directory job name) names)[place]? =
        some (time, Files.join (snapshots.directory job name) (fileName time)) := by
      rw [paths, List.getElem?_map, found]
      rfl
    have member := mem_of_lastStored? last
    have text := Tree.read_join holds.listed (isName_fileName (whole _ member).toProper)
      (holds.texts last)
    rw [readLast_found holds.entries entry]
    exact readValue_ok text (readBack (time, value) member)
  · rw [List.length_map] at outside
    exact readLast_miss holds.entries outside

/-- Whatever is stored under times to the second, in whatever order, the snapshots answer like a map
from times to values, read from the newest time on. The directory is there or can be made, and what
else lies in it is not named like a snapshot. -/
theorem storeEach_answers (snapshots : Snapshots) (job name : String)
    (stores : List (DateTime × Value)) (before : World) (names : List String)
    (opens : before.files.Opens (snapshots.directory job name) names)
    (foreign : ∀ file ∈ names, stampOf? file = none)
    (whole : ∀ store ∈ stores, store.1.Whole)
    (readBack : ∀ store ∈ stores, Json.read (Json.pretty 0 store.2) = .ok store.2) :
    ∃ after stamps, snapshots.storeEach job name stores before = (.ok (), after) ∧
      Answers snapshots job name stores after stamps := by
  cases opens with
  | there listed =>
    obtain ⟨files, names, stored, holds⟩ := (holds_foreign listed foreign).storeEach before whole
    exact ⟨_, _, stored, holds.answers whole readBack⟩
  | missing made absent makes listed =>
    cases stores with
    | nil =>
      refine ⟨before, [], rfl, List.Pairwise.nil, fun time => by simp, Or.inr ⟨rfl, absent⟩, ?_, ?_⟩
      · intro place time found
        cases found
      · exact fun place outside => ⟨_, readLast_missing absent place⟩
    | cons store rest =>
      obtain ⟨time, value⟩ := store
      obtain ⟨files, names, stored, holds⟩ :=
        (holds_foreign listed foreign).storeEach { before with files := made } whole
      rw [List.nil_append] at holds
      have same : snapshots.storeEach job name ((time, value) :: rest) before =
          snapshots.storeEach job name ((time, value) :: rest) { before with files := made } :=
        Attempt.bind_run_congr (store_of_made value time makes listed)
      exact ⟨_, _, same.trans stored, holds.answers whole readBack⟩

/-- A directory in which somebody has left notes. -/
def notedTree : Tree :=
  ⟨[(["memory"], .directory), (["memory", "news"], .directory),
    (["memory", "news", "sky"], .directory), (["memory", "news", "sky", "notes.txt"], .file "")]⟩

/-- Noon on a day of March. -/
def marchNoon (day : Nat) : DateTime := ⟨⟨2024, 3, day⟩, ⟨12, 0, 0, 0⟩⟩

/-- The weather of three days, out of order; that of the first day is stored twice. -/
def marchSky : List (DateTime × Value) :=
  [(marchNoon 1, .string "sun"), (marchNoon 3, .string "rain"), (marchNoon 2, .null),
    (marchNoon 1, .string "fog")]

theorem storeEach_answers_marchSky :
    Tree.Opens notedTree "memory/news/sky" ["notes.txt"] ∧
      (∀ file ∈ ["notes.txt"], stampOf? file = none) ∧
      (∀ store ∈ marchSky, store.1.Whole) ∧
      (∀ store ∈ marchSky, Json.read (Json.pretty 0 store.2) = .ok store.2) ∧
      ∃ after stamps, storeEach ⟨"memory"⟩ "news" "sky" marchSky { files := notedTree } =
          (.ok (), after) ∧
        Answers ⟨"memory"⟩ "news" "sky" marchSky after stamps := by
  have opens : Tree.Opens notedTree "memory/news/sky" ["notes.txt"] := .there (by decide +kernel)
  have foreign : ∀ file ∈ ["notes.txt"], stampOf? file = none := by decide +kernel
  have clock : Calendar.Clock.Proper ⟨12, 0, 0, 0⟩ := ⟨by decide, by decide, by decide, by decide⟩
  have whole : ∀ store ∈ marchSky, store.1.Whole := by
    intro store member
    simp only [marchSky, List.mem_cons, List.not_mem_nil, or_false] at member
    rcases member with rfl | rfl | rfl | rfl <;> exact ⟨⟨⟨by decide, by rfl⟩, clock⟩, by rfl⟩
  have readBack : ∀ store ∈ marchSky, Json.read (Json.pretty 0 store.2) = .ok store.2 := by
    intro store member
    simp only [marchSky, List.mem_cons, List.not_mem_nil, or_false] at member
    rcases member with rfl | rfl | rfl | rfl <;> rfl
  exact ⟨opens, foreign, whole, readBack,
    storeEach_answers ⟨"memory"⟩ "news" "sky" marchSky _ _ opens foreign whole readBack⟩

end Snapshots

end Newsreel
