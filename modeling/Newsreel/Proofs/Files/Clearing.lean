import Newsreel.Proofs.Files.Grounds

/-!
Directories that can be cleared.

A directory goes by the path by which it was made. That path still leads there when the directory goes,
as long as no directory has gone in the meantime, so no file that was put into it stays behind. Where
nothing was before, nothing is left.
-/

namespace Newsreel.Files

namespace Tree

variable {tree before after : Tree} {path : String} {place : Place} {entry : Entry}

/-- Nothing lies at the place that a path names, or below it. -/
def Vacant (tree : Tree) (path : String) : Prop :=
  ∀ place, Place.ofPath path <+: place → tree.entry? place = none

/-- A file lies at the place that a path names, or below it, only while the path leads to a directory
there. -/
def Clearable (tree : Tree) (path : String) : Prop :=
  ∀ place, Place.ofPath path <+: place → tree.file? place ≠ none → tree.lookup path = .ok .directory

theorem file?_of_missing (missing : tree.entry? place = none) : tree.file? place = none := by
  rw [file?, missing]

theorem Vacant.clearable (vacant : tree.Vacant path) : tree.Clearable path :=
  fun place below present => absurd (file?_of_missing (vacant place below)) present

/-- What lies below a place that is no starting point is none either. -/
theorem isStart_below (notStart : place.isStart = false) {below : Place} (inside : place <+: below) :
    below.isStart = false := by
  by_contra start
  rw [ isStart_of_prefix inside (Bool.not_eq_false _ ▸ start)] at notStart
  cases notStart

theorem vacant_iff : tree.Vacant path ↔ Place.isStart (Place.ofPath path) = false ∧
    ∀ found ∈ tree.places, ¬Place.ofPath path <+: found := by
  constructor
  · intro vacant
    have notStart : Place.isStart (Place.ofPath path) = false := by
      by_contra start
      have missing := vacant _ List.prefix_rfl
      rw [ entry?_of_isStart (Bool.not_eq_false _ ▸ start)] at missing
      cases missing
    refine ⟨notStart, fun found member below => ?_⟩
    exact (mem_places_iff (isStart_below notStart below)).mp member (vacant found below)
  · rintro ⟨notStart, empty⟩ place below
    by_contra present
    exact empty place ((mem_places_iff (isStart_below notStart below)).mpr present) below

instance (tree : Tree) (path : String) : Decidable (tree.Vacant path) :=
  decidable_of_iff' _ vacant_iff

/-! What a path leads to. -/

theorem lookup_ok_iff : tree.lookup path = .ok entry ↔
    tree.locate path = .ok (Place.ofPath path) ∧ tree.entry? (Place.ofPath path) = some entry := by
  rw [lookup]
  rcases located : tree.locate path with fault | place
  · constructor
    · intro impossible
      cases impossible
    · rintro ⟨impossible, -⟩
      cases impossible
  · rw [← locate_ok located]
    rcases there : tree.entry? place with _ | found <;>
      simp [bind, Except.bind, there, pure, Except.pure]

/-- A path to a directory leads there as long as no directory goes. -/
theorem lookup_of_keeps (keeps : ∀ place, before.entry? place = some .directory →
      after.entry? place = some .directory) (found : before.lookup path = .ok .directory) :
    after.lookup path = .ok .directory := by
  obtain ⟨located, there⟩ := lookup_ok_iff.mp found
  obtain ⟨some, noNul, walked⟩ := locate_ok_iff.mp located
  exact lookup_ok_iff.mpr
    ⟨locate_ok_iff.mpr ⟨some, noNul, walk_of_keeps keeps walked⟩, keeps _ there⟩

/-- What can be cleared can be cleared as long as no directory goes and no file is put into it. -/
theorem Clearable.of_keeps (clearable : before.Clearable path)
    (keeps : ∀ place, before.entry? place = some .directory → after.entry? place = some .directory)
    (files : ∀ place, Place.ofPath path <+: place → after.file? place ≠ none →
      before.file? place ≠ none) : after.Clearable path :=
  fun place below present => lookup_of_keeps keeps (clearable place below (files place below present))

end Tree

/-! What happens to the directory until it goes. -/

namespace Work

open Files.Tree

variable {tree : Tree} {path other name : String}

theorem makeDirectoriesFrom_keeps (tree : Tree) (here : Place) (parts : List String) (place : Place)
    (there : tree.entry? place = some .directory) :
    Tree.entry? (makeDirectoriesFrom here parts tree).2 place = some .directory := by
  induction parts generalizing tree here with
  | nil => exact there
  | cons part rest ih =>
    simp only [makeDirectoriesFrom]
    split
    · exact ih tree _ there
    · exact there
    · next absent =>
      split
      · exact there
      · have notDirectory : tree.entry? (here.next part) ≠ some .directory := by simp [absent]
        exact ih _ _ ((changedIn_insert notDirectory (Or.inl List.prefix_rfl)).keeps place there)

theorem makeDirectories_clearable (clearable : tree.Clearable path) (other : String) :
    (makeDirectories other tree).2.Clearable path := by
  refine clearable.of_keeps (fun place there => ?_) fun place _ present => ?_
  · rw [makeDirectories]
    split
    · exact there
    · exact makeDirectoriesFrom_keeps tree _ _ place there
  · rwa [makeDirectories_file?] at present

theorem write_keeps (path content : String) (tree : Tree) (place : Place)
    (there : tree.entry? place = some .directory) :
    Tree.entry? (write path content tree).2 place = some .directory :=
  (write_changed List.prefix_rfl content tree).keeps place there

/-- A file elsewhere. -/
theorem write_clearable (clearable : tree.Clearable path)
    (outside : (Place.ofPath other).Outside path) (content : String) :
    (write other content tree).2.Clearable path := by
  refine clearable.of_keeps (write_keeps other content tree) fun place below present => ?_
  have elsewhere : place ≠ Place.ofPath other := by
    rintro rfl
    exact outside below
  rwa [write_file? elsewhere] at present

/-- A file in the directory itself: where it can be written, the path to the directory leads there. -/
theorem write_join_clearable (clearable : tree.Clearable path) (some : path ≠ "")
    (isPart : IsPart name) (content : String) :
    (write (join path name) content tree).2.Clearable path := by
  have keeps := write_keeps (join path name) content tree
  rcases located : tree.locate (join path name) with fault | place
  · have unwritten : (write (join path name) content tree).2 = tree := by
      rw [write, located]
    rwa [unwritten]
  · rw [locate_join_eq tree some isPart] at located
    obtain ⟨entry, found, descends⟩ := Outcome.bind_ok_iff.mp located
    cases entry with
    | file text => cases descends
    | directory => exact fun place below present => lookup_of_keeps keeps found

theorem removeDirectory_of_directory (found : tree.lookup path = .ok .directory) :
    (removeDirectory path tree).2 = tree.prune (Place.ofPath path) := by
  rw [removeDirectory_eq, found]
  rfl

theorem removeDirectory_of_missed (missed : tree.lookup path ≠ .ok .directory) :
    (removeDirectory path tree).2 = tree := by
  rw [removeDirectory_eq]
  rcases found : tree.lookup path with fault | ⟨_ | content⟩
  · rfl
  · exact absurd found missed
  · rfl

/-- A directory that is removed is no longer there, and no file is left in it. -/
theorem removeDirectory_clears (clearable : tree.Clearable path)
    (notStart : Place.isStart (Place.ofPath path) = false) :
    (∀ entry, (removeDirectory path tree).2.lookup path ≠ .ok entry) ∧
      ∀ place, Place.ofPath path <+: place → (removeDirectory path tree).2.file? place = none := by
  by_cases found : tree.lookup path = .ok .directory
  · rw [removeDirectory_of_directory found]
    have gone (place : Place) (below : Place.ofPath path <+: place) :
        Tree.entry? (tree.prune (Place.ofPath path)) place = none :=
      entry?_prune_inside (isStart_below notStart below) below
    refine ⟨fun entry there => ?_, fun place below => file?_of_missing (gone place below)⟩
    have present := (lookup_ok_iff.mp there).2
    rw [gone _ List.prefix_rfl] at present
    cases present
  · rw [removeDirectory_of_missed found]
    have noFile (place : Place) (below : Place.ofPath path <+: place) : tree.file? place = none := by
      by_contra present
      exact found (clearable place below present)
    refine ⟨fun entry there => ?_, noFile⟩
    cases entry with
    | directory => exact found there
    | file content =>
      have nothing := noFile _ List.prefix_rfl
      rw [file?, (lookup_ok_iff.mp there).2] at nothing
      cases nothing

end Work

end Newsreel.Files
