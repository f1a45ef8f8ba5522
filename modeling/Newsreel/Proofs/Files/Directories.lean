import Newsreel.Proofs.Attempt
import Newsreel.Proofs.Files.Places

/-!
Files in a directory that can be listed.

Such a directory is there, so making it does nothing, and a path to it can be walked; whatever is
written elsewhere or into it leaves it so. A file that is written into it is listed once and read as
it was written.
-/

namespace Newsreel.Files

/-- A name that stands for a part of a path, and for no directory on the way. -/
structure IsPart (name : String) : Prop where
  noSlash : '/' ∉ name.toList
  noNul : Char.ofNat 0 ∉ name.toList
  some : name ≠ "" ∧ name ≠ "." ∧ name ≠ ".."

namespace IsPart

variable {name : String}

instance (name : String) : Decidable (IsPart name) :=
  decidable_of_iff ('/' ∉ name.toList ∧ Char.ofNat 0 ∉ name.toList ∧
      (name ≠ "" ∧ name ≠ "." ∧ name ≠ ".."))
    ⟨fun ⟨noSlash, noNul, some⟩ => ⟨noSlash, noNul, some⟩,
      fun ⟨noSlash, noNul, some⟩ => ⟨noSlash, noNul, some⟩⟩

theorem next (isPart : IsPart name) (place : Place) : place.next name = place ++ [name] := by
  obtain ⟨some, notHere, notAbove⟩ := isPart.some
  rw [Place.next, if_neg (not_or.mpr ⟨some, notHere⟩), if_neg notAbove]

theorem notSlash (isPart : IsPart name) : name ≠ "/" := by
  rintro rfl
  exact isPart.noSlash (by decide)

/-- What lies in a directory is no starting point. -/
theorem isStart (isPart : IsPart name) (place : Place) :
    Place.isStart (place ++ [name]) = false := by
  have some : place ++ [name] ≠ [] := by simp
  have apart : place ++ [name] ≠ Place.root := by
    intro same
    have last := congrArg List.getLast? same
    rw [List.getLast?_concat] at last
    exact isPart.notSlash (Option.some.inj last)
  simp [Place.isStart, some, apart]

theorem ofPath_join (isPart : IsPart name) (path : String) :
    Place.ofPath (join path name) = Place.ofPath path ++ [name] := by
  rw [Place.ofPath_join path isPart.noSlash, isPart.next]

end IsPart

/-- A name that leads from a directory to what lies in it. -/
structure IsName (name : String) : Prop where
  noSlash : '/' ∉ name.toList
  noNul : Char.ofNat 0 ∉ name.toList
  some : name ≠ "" ∧ name ≠ "." ∧ name ≠ ".."
  short : name.utf8ByteSize ≤ Place.nameLimit

theorem IsPart.isName {name : String} (isPart : IsPart name)
    (short : name.utf8ByteSize ≤ Place.nameLimit) : IsName name :=
  ⟨isPart.noSlash, isPart.noNul, isPart.some, short⟩

namespace IsName

variable {name : String}

instance (name : String) : Decidable (IsName name) :=
  decidable_of_iff ('/' ∉ name.toList ∧ Char.ofNat 0 ∉ name.toList ∧
      (name ≠ "" ∧ name ≠ "." ∧ name ≠ "..") ∧ name.utf8ByteSize ≤ Place.nameLimit)
    ⟨fun ⟨noSlash, noNul, some, short⟩ => ⟨noSlash, noNul, some, short⟩,
      fun ⟨noSlash, noNul, some, short⟩ => ⟨noSlash, noNul, some, short⟩⟩

theorem isPart (isName : IsName name) : IsPart name := ⟨isName.noSlash, isName.noNul, isName.some⟩

theorem next (isName : IsName name) (place : Place) : place.next name = place ++ [name] :=
  isName.isPart.next place

theorem isStart (isName : IsName name) (place : Place) :
    Place.isStart (place ++ [name]) = false := isName.isPart.isStart place

theorem ofPath_join (isName : IsName name) (path : String) :
    Place.ofPath (join path name) = Place.ofPath path ++ [name] :=
  isName.isPart.ofPath_join path

end IsName

/-- A name stands behind a slash in the path. -/
theorem join_eq {path name : String} (some : path ≠ "") (plain : '/' ∉ name.toList) :
    ∃ base, join path name = base ++ "/" ++ name ∧ (path = base ∨ path = base ++ "/") := by
  have relative : isAbsolute name = false := by
    rw [isAbsolute, decide_eq_false_iff_not]
    exact fun first => plain (List.mem_of_mem_head? first)
  rw [join, relative, if_neg Bool.false_ne_true, if_neg some]
  split
  · rename_i ended
    obtain ⟨front, chars⟩ := List.getLast?_eq_some_iff.mp ended
    have path_eq : path = String.ofList front ++ "/" := by
      rw [← String.toList_inj]
      simp [chars]
    exact ⟨String.ofList front, by rw [← path_eq], Or.inr path_eq⟩
  · exact ⟨path, rfl, Or.inl rfl⟩

theorem dropWhile_of_plain {name : String} (plain : '/' ∉ name.toList) :
    name.toList.reverse.dropWhile (· ≠ '/') = [] := by
  rw [List.dropWhile_eq_nil_iff]
  intro c member
  exact decide_eq_true fun slash => plain (slash ▸ List.mem_reverse.mp member)

theorem parent_slash (base : String) {name : String} (plain : '/' ∉ name.toList) :
    parent (base ++ "/" ++ name) = if base = "" then "/" else base := by
  have behind : (base ++ "/" ++ name).toList.reverse.dropWhile (· ≠ '/') =
      '/' :: base.toList.reverse := by
    have chars : (base ++ "/" ++ name).toList.reverse =
        name.toList.reverse ++ '/' :: base.toList.reverse := by simp
    rw [chars, List.dropWhile_append, dropWhile_of_plain plain]
    rfl
  rw [parent, behind]
  by_cases empty : base = ""
  · rw [if_pos empty, empty]
    rfl
  · rw [if_neg empty]
    rcases chars : base.toList.reverse with _ | ⟨last, front⟩
    · exact absurd (String.toList_eq_nil_iff.mp (List.reverse_eq_nil_iff.mp chars)) empty
    · have whole : String.ofList (last :: front).reverse = base := by
        rw [← chars, List.reverse_reverse, String.ofList_toList]
      exact whole

/-- What a name has been joined to is its parent, except for a slash at the end. -/
theorem parent_join (path : String) {name : String} (plain : '/' ∉ name.toList) :
    parent (join path name) = path ∨
      parent (join path name) ≠ "" ∧ path = parent (join path name) ++ "/" := by
  by_cases empty : path = ""
  · have joined : join path name = name := by
      rw [empty, join]
      split <;> rfl
    rw [joined, parent, dropWhile_of_plain plain, empty]
    exact Or.inl rfl
  · obtain ⟨base, joined, path_eq⟩ := join_eq empty plain
    rw [joined, parent_slash base plain]
    rcases path_eq with rfl | rfl
    · exact Or.inl (if_neg empty)
    · by_cases root : base = ""
      · rw [if_pos root, root]
        exact Or.inl rfl
      · rw [if_neg root]
        exact Or.inr ⟨root, rfl⟩

namespace Tree

variable {tree : Tree} {path name : String} {names : List String} {place here : Place}

theorem walk_cons_ok_iff {part : String} {rest : List String} :
    tree.walk here (part :: rest) = .ok place ↔ tree.entry? here = some .directory ∧
      part.utf8ByteSize ≤ Place.nameLimit ∧ tree.walk (here.next part) rest = .ok place := by
  rw [walk]
  cases tree.entry? here with
  | none => simp
  | some entry =>
    cases entry with
    | file content => simp
    | directory =>
      by_cases long : Place.nameLimit < part.utf8ByteSize
      · simp [long, Nat.not_le.mpr long]
      · simp [long, Nat.not_lt.mp long]

theorem walk_append {front : List String} (walked : tree.walk here front = .ok place)
    (back : List String) : tree.walk here (front ++ back) = tree.walk place back := by
  induction front generalizing here with
  | nil =>
    cases walked
    rfl
  | cons part rest ih =>
    obtain ⟨directory, short, walked⟩ := walk_cons_ok_iff.mp walked
    rw [List.cons_append, walk, directory]
    simp only [Nat.not_lt.mpr short, if_false]
    exact ih walked

/-- A slash at the end of a path leads nowhere else. -/
theorem walk_of_append_empty {front : List String}
    (walked : tree.walk here (front ++ [""]) = .ok place) : tree.walk here front = .ok place := by
  induction front generalizing here with
  | nil =>
    obtain ⟨-, -, walked⟩ := walk_cons_ok_iff.mp walked
    exact walked
  | cons part rest ih =>
    obtain ⟨directory, short, walked⟩ := walk_cons_ok_iff.mp walked
    exact walk_cons_ok_iff.mpr ⟨directory, short, ih walked⟩

/-- A way that can be walked does not lead through a place where no directory is. -/
theorem walk_insert {other : Place} {parts : List String}
    (notDirectory : tree.entry? other ≠ some .directory) (entry : Entry) (walked : tree.walk here parts = .ok place) :
    (tree.insert other entry).walk here parts = .ok place := by
  induction parts generalizing here with
  | nil => exact walked
  | cons part rest ih =>
    obtain ⟨directory, short, walked⟩ := walk_cons_ok_iff.mp walked
    refine walk_cons_ok_iff.mpr ⟨?_, short, ih walked⟩
    have apart : here ≠ other := by
      rintro rfl
      exact notDirectory directory
    rw [entry?_insert (free_of_not_directory notDirectory), if_neg apart, directory]

theorem locate_ok_iff : tree.locate path = .ok place ↔ path ≠ "" ∧ Char.ofNat 0 ∉ path.toList ∧
    tree.walk (Place.startOf path) (parts path) = .ok place := by
  rw [locate]
  by_cases empty : path = ""
  · simp [empty]
  · by_cases nul : Char.ofNat 0 ∈ path.toList
    · simp [empty, nul]
    · simp [empty, nul]

/-- Where a name leads in a directory. -/
theorem locate_join (located : tree.locate path = .ok place)
    (directory : tree.entry? place = some .directory) (isName : IsName name) :
    tree.locate (join path name) = .ok (place ++ [name]) := by
  obtain ⟨some, noNul, walked⟩ := locate_ok_iff.mp located
  obtain ⟨base, joined, path_eq⟩ := join_eq some isName.noSlash
  have start : Place.startOf (base ++ "/" ++ name) = Place.startOf path := by
    rcases path_eq with rfl | rfl
    · rw [String.append_assoc, Place.startOf_append some]
    · rw [Place.startOf_append some]
  have front : tree.walk (Place.startOf path) (parts base) = .ok place := by
    rcases path_eq with rfl | same
    · exact walked
    · have cut := Place.parts_append base ""
      rw [String.append_empty, ← same] at cut
      rw [cut] at walked
      exact walk_of_append_empty walked
  have last : tree.walk place [name] = .ok (place ++ [name]) :=
    walk_cons_ok_iff.mpr ⟨directory, isName.short, by rw [isName.next]; rfl⟩
  rw [joined]
  refine locate_ok_iff.mpr ⟨by simp, ?_, ?_⟩
  · have noNulBase : Char.ofNat 0 ∉ base.toList := by
      rcases path_eq with rfl | rfl
      · exact noNul
      · rw [String.toList_append, List.mem_append, not_or] at noNul
        exact noNul.1
    have slash : Char.ofNat 0 ∉ "/".toList := by decide
    simp only [String.toList_append, List.mem_append, not_or]
    exact ⟨⟨noNulBase, slash⟩, isName.noNul⟩
  · rw [start, Place.parts_append, Place.parts_of_plain isName.noSlash, walk_append front, last]

theorem list_ok_iff : tree.list path = .ok names ↔
    tree.locate path = .ok (Place.ofPath path) ∧
      tree.entry? (Place.ofPath path) = some .directory ∧
      tree.namesIn (Place.ofPath path) = names := by
  rw [list]
  constructor
  · intro listed
    obtain ⟨place, located, listed⟩ := Outcome.bind_ok_iff.mp listed
    obtain rfl := locate_ok located
    refine ⟨located, ?_⟩
    split at listed
    · cases listed
    · cases listed
    · rename_i directory
      cases listed
      exact ⟨directory, rfl⟩
  · rintro ⟨located, directory, rfl⟩
    rw [located]
    simp only [bind, Except.bind, directory, pure, Except.pure]

/-! What is listed. -/

/-- The name under which a place lies directly in another one. -/
def nameIn? (place other : Place) : Option String := match other.getLast? with
  | some name => if other.dropLast = place ∧ other ≠ Place.root then some name else none
  | none => none

/-- The places where something lies. -/
def places (tree : Tree) : List Place := tree.entries.map (·.1)

theorem namesIn_eq (tree : Tree) (place : Place) :
    tree.namesIn place = tree.places.filterMap (nameIn? place) := by
  rw [places, List.filterMap_map]
  rfl

theorem nameIn?_eq_some_iff {other : Place} (isName : IsName name) :
    nameIn? place other = some name ↔ other = place ++ [name] := by
  rw [nameIn?]
  constructor
  · intro found
    split at found
    · rename_i last ends
      split at found
      · rename_i inside
        rw [Option.some.injEq] at found
        rw [← List.dropLast_append_getLast? last ends, inside.1, found]
      · cases found
    · cases found
  · rintro rfl
    have apart : place ++ [name] ≠ Place.root := by
      intro same
      have free := isName.isStart place
      rw [same] at free
      cases free
    rw [List.getLast?_concat, List.dropLast_concat]
    exact if_pos ⟨rfl, apart⟩

theorem mem_namesIn_iff_mem_places (isName : IsName name) :
    name ∈ tree.namesIn place ↔ place ++ [name] ∈ tree.places := by
  simp only [namesIn_eq, List.mem_filterMap, nameIn?_eq_some_iff isName, exists_eq_right]

/-- What is listed is there. -/
theorem mem_namesIn_iff (isName : IsName name) :
    name ∈ tree.namesIn place ↔ tree.entry? (place ++ [name]) ≠ none := by
  rw [mem_namesIn_iff_mem_places isName, places, List.mem_map, entry?, isName.isStart,
    if_neg Bool.false_ne_true, ne_eq, Option.map_eq_none_iff, List.find?_eq_none]
  simp only [decide_eq_true_eq, not_forall, not_not, exists_prop]

theorem places_insert (tree : Tree) (place : Place) (entry : Entry) :
    (tree.insert place entry).places =
      if place ∈ tree.places then tree.places else tree.places ++ [place] := by
  obtain ⟨entries⟩ := tree
  rw [insert, places, places]
  induction entries with
  | nil => rfl
  | cons first rest ih =>
    obtain ⟨other, old⟩ := first
    rw [insertEntry]
    by_cases here : other = place
    · simp [here]
    · rw [if_neg here, List.map_cons, List.map_cons, ih]
      by_cases behind : place ∈ rest.map (·.1)
      · rw [if_pos behind, if_pos (List.mem_cons_of_mem _ behind)]
      · have absent : place ∉ other :: rest.map (·.1) := by
          simpa [Ne.symm here] using behind
        rw [if_neg behind, if_neg absent, List.cons_append]

/-- A name is listed behind the others, unless it has been listed before. -/
theorem namesIn_insert (isName : IsName name) (entry : Entry) :
    (tree.insert (place ++ [name]) entry).namesIn place =
      if name ∈ tree.namesIn place then tree.namesIn place
      else tree.namesIn place ++ [name] := by
  have named : nameIn? place (place ++ [name]) = some name := (nameIn?_eq_some_iff isName).mpr rfl
  rw [namesIn_eq, places_insert]
  by_cases listed : name ∈ tree.namesIn place
  · rw [if_pos ((mem_namesIn_iff_mem_places isName).mp listed), if_pos listed, namesIn_eq]
  · rw [if_neg (mt (mem_namesIn_iff_mem_places isName).mpr listed), if_neg listed,
      List.filterMap_append, List.filterMap_cons, named, namesIn_eq]
    rfl

/-- The names in a directory once a file has been put there. -/
theorem list_insert (listed : tree.list path = .ok names) (isName : IsName name)
    (notDirectory : tree.entry? (Place.ofPath path ++ [name]) ≠ some .directory)
    (content : String) :
    (tree.insert (Place.ofPath path ++ [name]) (.file content)).list path =
      .ok (if name ∈ names then names else names ++ [name]) := by
  obtain ⟨located, directory, rfl⟩ := list_ok_iff.mp listed
  obtain ⟨some, noNul, walked⟩ := locate_ok_iff.mp located
  have apart : Place.ofPath path ≠ Place.ofPath path ++ [name] := by simp
  refine list_ok_iff.mpr ⟨?_, ?_, namesIn_insert isName _⟩
  · exact locate_ok_iff.mpr ⟨some, noNul, walk_insert notDirectory _ walked⟩
  · rw [entry?_insert (isName.isStart _), if_neg apart, directory]

/-- A file in a directory that can be listed can be read. -/
theorem read_join (listed : tree.list path = .ok names) (isName : IsName name) {content : String}
    (present : tree.file? (Place.ofPath path ++ [name]) = some content) :
    tree.read (join path name) = .ok content := by
  obtain ⟨located, directory, -⟩ := list_ok_iff.mp listed
  have found : tree.entry? (Place.ofPath path ++ [name]) = some (.file content) := by
    rw [file?] at present
    split at present
    · rename_i text found
      rw [found, Option.some.inj present]
    · cases present
  rw [read, locate_join located directory isName]
  simp only [bind, Except.bind, found, pure, Except.pure]

/-- A directory that is there with these names in it, or that is missing and can be made. -/
inductive Opens (tree : Tree) (path : String) (names : List String) : Prop
  | there (listed : tree.list path = .ok names)
  | missing (made : Tree) (absent : tree.list path = .error .notFound)
    (makes : Work.makeDirectories path tree = (.ok (), made)) (listed : made.list path = .ok names)

end Tree

namespace Work

variable {tree : Tree} {path name : String} {names : List String}

theorem makeDirectoriesFrom_there {here place : Place} {parts : List String}
    (walked : tree.walk here parts = .ok place) (directory : tree.entry? place = some .directory) :
    makeDirectoriesFrom here parts tree = (.ok (), tree) := by
  induction parts generalizing here with
  | nil => rfl
  | cons part rest ih =>
    obtain ⟨-, -, walked⟩ := Tree.walk_cons_ok_iff.mp walked
    have there : tree.entry? (here.next part) = some .directory := by
      cases rest with
      | nil =>
        cases walked
        exact directory
      | cons next more => exact (Tree.walk_cons_ok_iff.mp walked).1
    rw [makeDirectoriesFrom]
    simp only [there]
    exact ih walked

/-- A directory that can be listed needs not be made. -/
theorem makeDirectories_there (listed : tree.list path = .ok names) :
    makeDirectories path tree = (.ok (), tree) := by
  obtain ⟨located, directory, -⟩ := Tree.list_ok_iff.mp listed
  obtain ⟨-, noNul, walked⟩ := Tree.locate_ok_iff.mp located
  have free : path.toList.contains (Char.ofNat 0) = false := by simpa using noNul
  rw [makeDirectories, free, if_neg Bool.false_ne_true]
  exact makeDirectoriesFrom_there walked directory

/-- A file is written into a directory that can be listed. -/
theorem write_join (listed : tree.list path = .ok names) (isName : IsName name)
    (notDirectory : tree.entry? (Place.ofPath path ++ [name]) ≠ some .directory)
    (content : String) :
    write (join path name) content tree =
      (.ok (), tree.insert (Place.ofPath path ++ [name]) (.file content)) := by
  obtain ⟨located, directory, -⟩ := Tree.list_ok_iff.mp listed
  rw [write, Tree.locate_join located directory isName]
  split
  · rename_i located
    cases located
  · rename_i place located
    cases located
    split
    · rename_i there
      exact absurd there notDirectory
    · rfl

end Work

end Newsreel.Files
