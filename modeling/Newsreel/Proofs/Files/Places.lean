import Newsreel.Files.Tree
import Newsreel.Proofs.Text.Segments

/-!
What work on the files does to the files at other places.

A path names a place without regard to what is there, and wherever it leads, it leads to that place.
So directories that are made change no file, a file that is written changes no other one, and what
is removed lies at the removed place or below it.
-/

namespace Newsreel.Files

namespace Place

/-- The place that a path names. -/
def ofPath (path : String) : Place := (parts path).foldl next (startOf path)

/-- Neither in the directory that a path names nor that directory itself. -/
def Outside (directory : String) (place : Place) : Prop := ¬ofPath directory <+: place

instance (directory : String) (place : Place) : Decidable (place.Outside directory) :=
  inferInstanceAs (Decidable (¬_))

theorem parts_append (front back : String) :
    parts (front ++ "/" ++ back) = parts front ++ parts back := by
  have text : (front ++ "/" ++ back).toList = front.toList ++ '/' :: back.toList := by simp
  simp only [parts, text, Text.splitChars_eq_splitOn, List.splitOn_append_cons_self, List.map_append]

theorem parts_of_plain {name : String} (plain : '/' ∉ name.toList) : parts name = [name] := by
  rw [parts, Text.splitChars_eq_splitOn, List.splitOn_eq_singleton plain, List.map_singleton,
    String.ofList_toList]

theorem startOf_append {base : String} (some : base ≠ "") (more : String) :
    startOf (base ++ more) = startOf base := by
  have first : (base ++ more).toList.head? = base.toList.head? := by
    cases chars : base.toList with
    | nil => exact absurd (String.toList_eq_nil_iff.mp chars) some
    | cons c rest => simp [chars]
  rw [startOf, startOf, isAbsolute, isAbsolute, first]

/-- Nothing stands between a slash at the end of a path and the end. -/
theorem ofPath_slash (base : String) :
    ofPath (base ++ "/") = (parts base).foldl next (startOf (base ++ "/")) := by
  have ended : parts (base ++ "/") = parts base ++ [""] := by
    have cut := parts_append base ""
    rwa [String.append_empty] at cut
  rw [ofPath, ended, List.foldl_append]
  simp [next]

theorem ofPath_slash_append (base : String) {name : String} (plain : '/' ∉ name.toList) :
    ofPath (base ++ "/" ++ name) = (ofPath (base ++ "/")).next name := by
  have some : base ++ "/" ≠ "" := by simp
  rw [ofPath_slash, ofPath, startOf_append some, parts_append, parts_of_plain plain,
    List.foldl_append]
  rfl

/-- A name without slashes leads one part further. -/
theorem ofPath_join (base : String) {name : String} (plain : '/' ∉ name.toList) :
    ofPath (join base name) = (ofPath base).next name := by
  have relative : isAbsolute name = false := by
    cases chars : name.toList with
    | nil => simp [isAbsolute, chars]
    | cons c rest =>
      have notSlash : c ≠ '/' := fun slash => plain (by simp [chars, slash])
      simp [isAbsolute, chars, notSlash]
  rw [join, if_neg (by simp [relative])]
  split
  · next nothing =>
    rw [nothing, ofPath, parts_of_plain plain, startOf, if_neg (by simp [relative])]
    rfl
  · next some =>
    split
    · next ended =>
      obtain ⟨front, chars⟩ := List.getLast?_eq_some_iff.mp ended
      obtain rfl : base = String.ofList front ++ "/" := by
        rw [← String.toList_inj]
        simp [chars]
      exact ofPath_slash_append _ plain
    · rw [ofPath_slash_append base plain, ofPath_slash, startOf_append some]
      rfl

theorem ofPath_join_proper (base : String) {name : String} (plain : '/' ∉ name.toList)
    (proper : name ≠ "" ∧ name ≠ "." ∧ name ≠ "..") :
    ofPath (join base name) = ofPath base ++ [name] := by
  rw [ofPath_join base plain, next, if_neg (not_or.mpr ⟨proper.1, proper.2.1⟩), if_neg proper.2.2]

/-- A file outside a directory is none of the files in it. -/
theorem ne_ofPath_join {directory name : String} {place : Place} (outside : place.Outside directory)
    (plain : '/' ∉ name.toList) (proper : name ≠ "" ∧ name ≠ "." ∧ name ≠ "..") :
    place ≠ ofPath (join directory name) := by
  rintro rfl
  refine outside ?_
  rw [ofPath_join_proper directory plain proper]
  exact List.prefix_append _ _

end Place

namespace Tree

variable {tree : Tree} {place other : Place} {entry : Entry}

/-- The text of the file at a place. -/
def file? (tree : Tree) (place : Place) : Option String := match tree.entry? place with
  | some (.file content) => some content
  | _ => none

theorem walk_ok {here : Place} {names : List String} (success : tree.walk here names = .ok place) :
    place = names.foldl Place.next here := by
  induction names generalizing here with
  | nil =>
    cases success
    rfl
  | cons name rest ih =>
    rw [walk] at success
    split at success
    · cases success
    · cases success
    · split at success
      · cases success
      · exact ih success

/-- Where a path leads is the place that it names. -/
theorem locate_ok {path : String} (success : tree.locate path = .ok place) :
    place = Place.ofPath path := by
  rw [locate] at success
  split at success
  · cases success
  · split at success
    · cases success
    · exact walk_ok success

theorem find?_insertEntry (place other : Place) (entry : Entry) (entries : List (Place × Entry)) :
    ((insertEntry place entry entries).find? fun found => found.1 = other).map (·.2) =
      if other = place then some entry
      else (entries.find? fun found => found.1 = other).map (·.2) := by
  induction entries with
  | nil =>
    by_cases same : place = other
    · simp [insertEntry, same]
    · simp [insertEntry, same, Ne.symm same]
  | cons first rest ih =>
    obtain ⟨key, old⟩ := first
    rw [insertEntry]
    by_cases here : key = place
    · subst here
      rw [if_pos rfl]
      by_cases same : other = key
      · simp [same]
      · simp [same, Ne.symm same]
    · rw [if_neg here]
      by_cases same : key = other
      · subst same
        simp [here]
      · simpa [same] using ih

theorem entry?_insert (free : place.isStart = false) (entry : Entry) (other : Place) :
    Tree.entry? (tree.insert place entry) other =
      if other = place then some entry else tree.entry? other := by
  rw [ entry?, entry?]
  by_cases start : other.isStart
  · have apart : other ≠ place := by
      rintro rfl
      rw [start] at free
      cases free
    simp [start, apart]
  · rw [if_neg start, if_neg start, insert, find?_insertEntry]

theorem free_of_not_directory (notDirectory : tree.entry? place ≠ some .directory) :
    place.isStart = false := by
  rw [ entry?] at notDirectory
  split at notDirectory
  · exact absurd rfl notDirectory
  · next free => simpa using free

theorem file?_insert_file (notDirectory : tree.entry? place ≠ some .directory) (content : String)
    (other : Place) : (tree.insert place (.file content)).file? other =
      if other = place then some content else tree.file? other := by
  rw [file?, entry?_insert (free_of_not_directory notDirectory)]
  by_cases same : other = place
  · rw [if_pos same, if_pos same]
  · rw [if_neg same, if_neg same, file?]

/-- A directory in a place where nothing is takes no file away. -/
theorem file?_insert_directory (absent : tree.entry? place = none) (other : Place) :
    (tree.insert place .directory).file? other = tree.file? other := by
  have free : place.isStart = false := by
    have notDirectory : tree.entry? place ≠ some .directory := by
      rw [absent]
      nofun
    exact free_of_not_directory notDirectory
  rw [file?, file?, entry?_insert free]
  by_cases same : other = place
  · rw [if_pos same, same, absent]
  · rw [if_neg same]

/-- What does not lie at a place or below it stays when the place goes. -/
theorem file?_prune_outside (outside : ¬place <+: other) :
    (tree.prune place).file? other = tree.file? other := by
  have kept : Tree.entry? (tree.prune place) other = tree.entry? other := by
    rw [ entry?, entry?, prune, List.find?_filter]
    congr 3
    funext found
    by_cases same : found.1 = other
    · have free : place.isPrefixOf other = false :=
        Bool.eq_false_iff.mpr fun above => outside (List.isPrefixOf_iff_prefix.mp above)
      simp [same, free]
    · simp [same]
  rw [file?, file?, kept]

end Tree

namespace Work

variable {tree : Tree} {path content : String}

theorem makeDirectoriesFrom_file? (tree : Tree) (here : Place) (names : List String)
    (other : Place) : (makeDirectoriesFrom here names tree).2.file? other = tree.file? other := by
  induction names generalizing tree here with
  | nil => rfl
  | cons name rest ih =>
    simp only [makeDirectoriesFrom]
    split
    · exact ih tree _
    · rfl
    · next absent =>
      split
      · rfl
      · rw [ih, Tree.file?_insert_directory absent]

/-- Directories that are made change no file. -/
theorem makeDirectories_file? (path : String) (tree : Tree) (other : Place) :
    (makeDirectories path tree).2.file? other = tree.file? other := by
  rw [makeDirectories]
  split
  · rfl
  · exact makeDirectoriesFrom_file? tree _ _ other

/-- A file that is written has the text and changes no other one. -/
theorem write_ok {after : Tree} (success : write path content tree = (.ok (), after))
    (other : Place) : after.file? other =
      if other = Place.ofPath path then some content else tree.file? other := by
  rw [write] at success
  split at success
  · cases success
  · next place located =>
    split at success
    · cases success
    · next notDirectory =>
      cases success
      rw [Tree.file?_insert_file notDirectory, Tree.locate_ok located]

theorem write_error {after : Tree} {fault : FileFault}
    (failure : write path content tree = (.error fault, after)) : after = tree := by
  rw [write] at failure
  split at failure
  · cases failure
    rfl
  · split at failure
    · cases failure
      rfl
    · cases failure

theorem write_file? {other : Place} (elsewhere : other ≠ Place.ofPath path) (content : String)
    (tree : Tree) : (write path content tree).2.file? other = tree.file? other := by
  rcases ran : write path content tree with ⟨fault | ⟨⟩, after⟩
  · rw [write_error ran]
  · rw [write_ok ran, if_neg elsewhere]

/-- A directory that is removed takes nothing with it that does not lie below it. -/
theorem removeDirectory_file? {other : Place} (outside : other.Outside path)
    (tree : Tree) : (removeDirectory path tree).2.file? other = tree.file? other := by
  rw [removeDirectory]
  split
  · rfl
  · next place located =>
    obtain rfl := Tree.locate_ok located
    split
    · rfl
    · rfl
    · exact Tree.file?_prune_outside outside

end Work

end Newsreel.Files
