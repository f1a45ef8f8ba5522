import Newsreel.Proofs.Files.Directories

/-!
Work in a directory, seen from another one.

Making a directory and writing into it changes what lies in it, and makes directories above it that
are missing. A path whose place is neither in that directory nor above it leads to what it led to,
and if it led to nothing, it still does: where a directory above it has been made, nothing has been
put between the two.
-/

namespace Newsreel.Files

namespace Tree

/-- A tree in which everything lies in a directory and has a name. -/
structure Sound (tree : Tree) : Prop where
  held : ∀ place, tree.entry? place ≠ none → place.isStart = false →
    ∃ above name, place = above ++ [name] ∧ IsName name ∧ tree.entry? above = some .directory

variable {tree before between after : Tree} {directory place here other : Place} {name path : String}
  {entry : Entry} {parts back : List String}

theorem isStart_of_prefix (below : place <+: other) (start : other.isStart = true) :
    place.isStart = true := by
  have starts : other = [] ∨ other = Place.root := by simpa [Place.isStart] using start
  rcases starts with rfl | rfl
  · rw [List.prefix_nil.mp below]
    rfl
  · rcases List.prefix_cons_iff.mp below with rfl | ⟨rest, rfl, nothing⟩
    · rfl
    · rw [List.prefix_nil.mp nothing]
      rfl

theorem entry?_of_isStart (start : place.isStart = true) : tree.entry? place = some .directory :=
  if_pos start

theorem sound_empty : Sound {} where
  held place present notStart := by
    rw [ entry?, notStart, if_neg Bool.false_ne_true] at present
    exact absurd rfl present

/-- Nothing lies below a place where nothing is. -/
theorem Sound.nothing_below (sound : tree.Sound) (nothing : tree.entry? place = none)
    (below : place <+: other) : tree.entry? other = none := by
  obtain ⟨behind, rfl⟩ := below
  induction behind using List.reverseRecOn with
  | nil => rwa [List.append_nil]
  | append_singleton behind last ih =>
    by_contra present
    have notStart : Place.isStart (place ++ (behind ++ [last])) = false := by
      by_contra start
      have above := isStart_of_prefix (List.prefix_append place _) (Bool.not_eq_false _ ▸ start)
      rw [entry?_of_isStart above] at nothing
      cases nothing
    obtain ⟨above, name, split, -, holds⟩ := sound.held _ present notStart
    rw [← List.append_assoc] at split
    rw [← (List.append_inj' split rfl).1, ih] at holds
    cases holds

/-- The parts of a path through directories are names, once nothing is found. -/
theorem Sound.next_of_missing (sound : tree.Sound) (there : tree.entry? here = some .directory)
    {part : String} (missing : tree.entry? (here.next part) ≠ some .directory) :
    here.next part = here ++ [part] ∧ part ≠ "" ∧ part ≠ "." ∧ part ≠ ".." := by
  rw [Place.next] at missing ⊢
  split_ifs at missing ⊢ with stays up start
  · exact absurd there missing
  · exact absurd there missing
  · obtain ⟨above, name, rfl, -, holds⟩ :=
      sound.held here (by simp [there]) (Bool.eq_false_iff.mpr start)
    rw [List.dropLast_concat] at missing
    exact absurd holds missing
  · exact ⟨rfl, (not_or.mp stays).1, (not_or.mp stays).2, up⟩

theorem Sound.insert (sound : tree.Sound) (there : tree.entry? here = some .directory)
    (isName : IsName name) (notDirectory : tree.entry? (here ++ [name]) ≠ some .directory)
    (entry : Entry) : (tree.insert (here ++ [name]) entry).Sound where
  held place present notStart := by
    have keeps {above : Place} (holds : tree.entry? above = some .directory) :
        Tree.entry? (tree.insert (here ++ [name]) entry) above = some .directory := by
      have apart : above ≠ here ++ [name] := by
        rintro rfl
        exact notDirectory holds
      rw [entry?_insert (isName.isStart here), if_neg apart, holds]
    rw [entry?_insert (isName.isStart here)] at present
    by_cases new : place = here ++ [name]
    · exact ⟨here, name, new, isName, keeps there⟩
    · rw [if_neg new] at present
      obtain ⟨above, name, rfl, named, holds⟩ := sound.held place present notStart
      exact ⟨above, name, rfl, named, keeps holds⟩

/-- What is listed has a name. -/
theorem Sound.isName (sound : tree.Sound) (listed : name ∈ tree.namesIn place) : IsName name := by
  rw [namesIn_eq, List.mem_filterMap] at listed
  obtain ⟨other, present, named⟩ := listed
  rw [nameIn?] at named
  split at named
  · next last ends =>
    split at named
    · next inside =>
      cases named
      have notStart : other.isStart = false := by
        have some : other ≠ [] := fun nothing => by
          rw [nothing] at ends
          cases ends
        simp [Place.isStart, some, inside.2]
      have held : tree.entry? other ≠ none := by
        obtain ⟨⟨there, entry⟩, member, rfl⟩ := List.mem_map.mp present
        rw [ entry?, notStart, if_neg Bool.false_ne_true, ne_eq, Option.map_eq_none_iff,
          List.find?_eq_none]
        exact fun absent => absent _ member (decide_eq_true rfl)
      obtain ⟨above, last, rfl, isName, -⟩ := sound.held other held notStart
      rw [List.getLast?_concat] at ends
      cases ends
      exact isName
    · cases named
  · cases named

/-! What has changed. -/

/-- What has changed lies in a directory, or it is a directory above it that was missing. -/
structure ChangedIn (directory : Place) (before after : Tree) : Prop where
  entries : ∀ place, after.entry? place = before.entry? place ∨
    (place <+: directory ∧ before.entry? place = none ∧ after.entry? place = some .directory) ∨
    directory <+: place
  keeps : ∀ place, before.entry? place = some .directory → after.entry? place = some .directory
  names : ∀ place, ¬place <+: directory → ¬directory <+: place →
    after.namesIn place = before.namesIn place

namespace ChangedIn

theorem refl (directory : Place) (tree : Tree) : ChangedIn directory tree tree :=
  ⟨fun _ => Or.inl rfl, fun _ there => there, fun _ _ _ => rfl⟩

theorem trans (first : ChangedIn directory before between)
    (second : ChangedIn directory between after) : ChangedIn directory before after where
  entries place := by
    rcases second.entries place with same | ⟨above, missing, made⟩ | inside
    · rcases first.entries place with also | ⟨above, missing, made⟩ | inside
      · exact Or.inl (same.trans also)
      · exact Or.inr (Or.inl ⟨above, missing, same.trans made⟩)
      · exact Or.inr (Or.inr inside)
    · rcases first.entries place with also | ⟨-, -, already⟩ | inside
      · exact Or.inr (Or.inl ⟨above, also.symm.trans missing, made⟩)
      · rw [missing] at already
        cases already
      · exact Or.inr (Or.inr inside)
    · exact Or.inr (Or.inr inside)
  keeps place there := second.keeps place (first.keeps place there)
  names place notAbove notInside :=
    (second.names place notAbove notInside).trans (first.names place notAbove notInside)

end ChangedIn

/-- Only the directory in which something is put lists more names. -/
theorem namesIn_insert_elsewhere (elsewhere : ∀ name, place ≠ other ++ [name]) :
    (tree.insert place entry).namesIn other = tree.namesIn other := by
  have unnamed : nameIn? other place = none := by
    rw [nameIn?]
    split
    · next last ends =>
      refine if_neg fun inside => elsewhere last ?_
      rw [← inside.1, List.dropLast_append_getLast? last ends]
    · rfl
  rw [namesIn_eq, namesIn_eq, places_insert]
  split
  · rfl
  · rw [List.filterMap_append, List.filterMap_cons, unnamed, List.filterMap_nil, List.append_nil]

theorem changedIn_insert (notDirectory : tree.entry? place ≠ some .directory)
    (near : directory <+: place ∨
      (place <+: directory ∧ tree.entry? place = none ∧ entry = .directory)) :
    ChangedIn directory tree (tree.insert place entry) where
  entries other := by
    rw [entry?_insert (free_of_not_directory notDirectory)]
    by_cases here : other = place
    · rw [if_pos here, here]
      rcases near with inside | ⟨above, missing, rfl⟩
      · exact Or.inr (Or.inr inside)
      · exact Or.inr (Or.inl ⟨above, missing, rfl⟩)
    · rw [if_neg here]
      exact Or.inl rfl
  keeps other there := by
    have apart : other ≠ place := by
      rintro rfl
      exact notDirectory there
    rw [entry?_insert (free_of_not_directory notDirectory), if_neg apart, there]
  names other notAbove notInside := by
    refine namesIn_insert_elsewhere fun name named => ?_
    rcases near with inside | ⟨above, -, -⟩
    · rw [named] at inside
      rcases List.prefix_concat_iff.mp inside with same | within
      · exact notAbove (same ▸ List.prefix_append other [name])
      · exact notInside within
    · rw [named] at above
      exact notAbove ((List.prefix_append other [name]).trans above)

/-! What is found at the end of a path. -/

/-- What a way down the parts of a path leads to. -/
def follow (tree : Tree) (here : Place) (parts : List String) : Except FileFault Entry := do
  match tree.entry? (← tree.walk here parts) with
  | none => .error .notFound
  | some entry => return entry

/-- What a path leads to. -/
def lookup (tree : Tree) (path : String) : Except FileFault Entry := do
  match tree.entry? (← tree.locate path) with
  | none => .error .notFound
  | some entry => return entry

theorem lookup_eq (tree : Tree) (path : String) : tree.lookup path =
    if path = "" then .error .notFound
    else if path.toList.contains (Char.ofNat 0) then .error .invalidName
    else tree.follow (Place.startOf path) (Files.parts path) := by
  rw [lookup, locate]
  split
  · rfl
  · split
    · rfl
    · rfl

theorem read_eq (tree : Tree) (path : String) : tree.read path = (do
    match ← tree.lookup path with
    | .directory => .error .isADirectory
    | .file content => return content) := by
  rw [read, lookup]
  cases tree.locate path with
  | error fault => rfl
  | ok place =>
    rcases there : tree.entry? place with _ | ⟨_ | content⟩ <;>
      simp only [bind, Except.bind, there] <;> rfl

theorem list_eq (tree : Tree) (path : String) : tree.list path = (do
    match ← tree.lookup path with
    | .directory => return tree.namesIn (Place.ofPath path)
    | .file _ => .error .notADirectory) := by
  rw [list, lookup]
  cases located : tree.locate path with
  | error fault => rfl
  | ok place =>
    rw [← locate_ok located]
    rcases there : tree.entry? place with _ | ⟨_ | content⟩ <;>
      simp only [bind, Except.bind, there] <;> rfl

theorem follow_cons (part : String) (rest : List String) : tree.follow here (part :: rest) =
    match tree.entry? here with
    | none => .error .notFound
    | some (.file _) => .error .notADirectory
    | some .directory =>
      if Place.nameLimit < part.utf8ByteSize then .error .nameTooLong
      else tree.follow (here.next part) rest := by
  rw [follow, walk]
  rcases tree.entry? here with _ | ⟨_ | content⟩
  · rfl
  · dsimp only
    split
    · rfl
    · rfl
  · rfl

theorem follow_append {front : List String} (walked : tree.walk here front = .ok place) :
    tree.follow here (front ++ back) = tree.follow place back := by
  rw [follow, walk_append walked]
  rfl

end Tree

/-- Parts of a path that lead down, and are not too long to do so. -/
def Descends (parts : List String) : Prop :=
  ∀ part ∈ parts, part ≠ ".." ∧ part.utf8ByteSize ≤ Place.nameLimit

instance (parts : List String) : Decidable (Descends parts) := List.decidableBAll _ _

/-- Parts of a path that lead down, unless they are too long to lead anywhere. -/
def GoesDown (parts : List String) : Prop := ∀ part ∈ parts, part ≠ ".."

theorem Descends.goesDown {parts : List String} (down : Descends parts) : GoesDown parts :=
  fun part member => (down part member).1

theorem IsName.descends {name : String} (isName : IsName name) : Descends [name] := by
  intro part member
  rw [List.mem_singleton.mp member]
  exact ⟨isName.some.2.2, isName.short⟩

namespace Place

theorem prefix_next (place : Place) {part : String} (down : part ≠ "..") :
    place <+: place.next part := by
  rw [next]
  split
  · exact List.prefix_rfl
  · exact List.prefix_append _ _

theorem prefix_foldl_next (place : Place) {parts : List String} (down : GoesDown parts) :
    place <+: parts.foldl next place := by
  induction parts generalizing place with
  | nil => exact List.prefix_rfl
  | cons part rest ih =>
    exact (prefix_next place (down part List.mem_cons_self)).trans
      (ih _ fun other member => down other (List.mem_cons_of_mem _ member))

end Place

namespace Tree

variable {tree before after : Tree} {directory place here : Place} {name path : String}
  {parts : List String}

/-- From a place where nothing is, nothing is found, also when the place has been made on the way to
a directory elsewhere. -/
theorem follow_of_missing (changed : ChangedIn directory before after) (sound : before.Sound)
    (missing : before.entry? here = none) (down : Descends parts)
    (notAbove : ¬parts.foldl Place.next here <+: directory)
    (notInside : ¬directory <+: parts.foldl Place.next here) :
    after.follow here parts = .error .notFound := by
  induction parts generalizing here with
  | nil =>
    have still : after.entry? here = none := by
      rcases changed.entries here with same | ⟨above, -, -⟩ | inside
      · rw [same, missing]
      · exact absurd above notAbove
      · exact absurd inside notInside
    rw [follow, walk]
    simp only [bind, Except.bind, still]
  | cons part rest ih =>
    obtain ⟨⟨notUp, short⟩, downRest⟩ := List.forall_mem_cons.mp down
    have further := Place.prefix_next here notUp
    rw [follow_cons]
    rcases changed.entries here with same | ⟨-, -, made⟩ | inside
    · rw [same, missing]
    · rw [made]
      simp only [Nat.not_lt.mpr short, if_false]
      exact ih (sound.nothing_below missing further) downRest notAbove notInside
    · exact absurd (inside.trans (Place.prefix_foldl_next here down.goesDown)) notInside

/-- What is found elsewhere stays. -/
theorem follow_elsewhere (changed : ChangedIn directory before after) (sound : before.Sound)
    (down : Descends parts) (notAbove : ¬parts.foldl Place.next here <+: directory)
    (notInside : ¬directory <+: parts.foldl Place.next here) :
    after.follow here parts = before.follow here parts := by
  induction parts generalizing here with
  | nil =>
    rcases changed.entries here with same | ⟨above, -, -⟩ | inside
    · rw [follow, follow, walk, walk]
      simp only [bind, Except.bind, same]
    · exact absurd above notAbove
    · exact absurd inside notInside
  | cons part rest ih =>
    obtain ⟨⟨notUp, short⟩, downRest⟩ := List.forall_mem_cons.mp down
    rcases changed.entries here with same | ⟨-, missing, -⟩ | inside
    · rw [follow_cons, follow_cons, same]
      rcases before.entry? here with _ | ⟨_ | content⟩
      · rfl
      · simp only [Nat.not_lt.mpr short, if_false]
        exact ih downRest notAbove notInside
      · rfl
    · rw [follow_of_missing changed sound missing down notAbove notInside, follow_cons, missing]
    · exact absurd (inside.trans (Place.prefix_foldl_next here down.goesDown)) notInside

/-- A path that goes down only, once it has come to a directory that is there. -/
def Reaches (tree : Tree) (path : String) : Prop :=
  ∃ front back place, Files.parts path = front ++ back ∧
    tree.walk (Place.startOf path) front = .ok place ∧ tree.entry? place = some .directory ∧
    Descends back

theorem reaches_of_descends (down : Descends (Files.parts path)) : tree.Reaches path := by
  refine ⟨[], Files.parts path, Place.startOf path, rfl, rfl, entry?_of_isStart ?_, down⟩
  rw [Place.startOf]
  split <;> rfl

/-- A way that can be walked can be walked as long as no directory goes. -/
theorem walk_of_keeps (keeps : ∀ place, before.entry? place = some .directory →
      after.entry? place = some .directory) (walked : before.walk here parts = .ok place) :
    after.walk here parts = .ok place := by
  induction parts generalizing here with
  | nil => exact walked
  | cons part rest ih =>
    obtain ⟨there, short, walked⟩ := walk_cons_ok_iff.mp walked
    exact walk_cons_ok_iff.mpr ⟨keeps here there, short, ih walked⟩

theorem Reaches.of_keeps (reaches : before.Reaches path) (keeps : ∀ place,
      before.entry? place = some .directory → after.entry? place = some .directory) :
    after.Reaches path := by
  obtain ⟨front, back, place, split, walked, there, down⟩ := reaches
  exact ⟨front, back, place, split, walk_of_keeps keeps walked, keeps place there, down⟩

theorem ChangedIn.reaches (changed : ChangedIn directory before after)
    (reaches : before.Reaches path) : after.Reaches path :=
  reaches.of_keeps changed.keeps

/-- Where the parts before a slash at the end lead. -/
theorem Reaches.of_slash {base : String} (reaches : tree.Reaches (base ++ "/")) :
    ∃ front back place, Files.parts base = front ++ back ∧
      tree.walk (Place.startOf (base ++ "/")) front = .ok place ∧
      tree.entry? place = some .directory ∧ Descends back := by
  obtain ⟨front, back, place, split, walked, there, down⟩ := reaches
  have cut := Place.parts_append base ""
  rw [String.append_empty, split] at cut
  rcases List.eq_nil_or_concat back with rfl | ⟨rest, last, rfl⟩
  · rw [List.append_nil] at cut
    exact ⟨Files.parts base, [], place, (List.append_nil _).symm,
      walk_of_append_empty (cut ▸ walked), there, List.forall_mem_nil _⟩
  · rw [List.concat_eq_append, ← List.append_assoc] at cut
    rw [List.concat_eq_append] at down
    exact ⟨front, rest, place, (List.append_inj' cut rfl).1.symm, walked, there,
      fun part member => down part (List.mem_append_left _ member)⟩

/-- What a name is joined to is reached before the name. -/
theorem Reaches.before_join (reaches : tree.Reaches path) (plain : '/' ∉ name.toList) :
    ∃ front back place, Files.parts (join path name) = front ++ (back ++ [name]) ∧
      tree.walk (Place.startOf (join path name)) front = .ok place ∧
      tree.entry? place = some .directory ∧ Descends back := by
  by_cases empty : path = ""
  · have joined : Files.join path name = name := by
      rw [empty, Files.join]
      split <;> rfl
    have start : (Place.startOf name).isStart = true := by
      rw [Place.startOf]
      split <;> rfl
    rw [joined, Place.parts_of_plain plain]
    exact ⟨[], [], Place.startOf name, rfl, rfl, entry?_of_isStart start, List.forall_mem_nil _⟩
  · obtain ⟨base, joined, path_eq⟩ := join_eq empty plain
    have start : Place.startOf (base ++ "/" ++ name) = Place.startOf path := by
      rcases path_eq with rfl | rfl
      · rw [String.append_assoc, Place.startOf_append empty]
      · rw [Place.startOf_append empty]
    obtain ⟨front, back, place, split, walked, there, down⟩ : ∃ front back place,
        Files.parts base = front ++ back ∧ tree.walk (Place.startOf path) front = .ok place ∧
          tree.entry? place = some .directory ∧ Descends back := by
      rcases path_eq with rfl | rfl
      · exact reaches
      · exact reaches.of_slash
    rw [joined]
    refine ⟨front, back, place, ?_, by rw [start]; exact walked, there, down⟩
    rw [Place.parts_append, Place.parts_of_plain plain, split, List.append_assoc]

theorem Reaches.join (reaches : tree.Reaches path) (isName : IsName name) :
    tree.Reaches (join path name) := by
  obtain ⟨front, back, place, split, walked, there, down⟩ := reaches.before_join isName.noSlash
  exact ⟨front, back ++ [name], place, split, walked, there,
    List.forall_mem_append.mpr ⟨down, isName.descends⟩⟩

/-- A path that goes down only, once it has come to a directory that is there, perhaps by names that
are too long to lead anywhere. -/
def Heads (tree : Tree) (path : String) : Prop :=
  ∃ front back place, Files.parts path = front ++ back ∧
    tree.walk (Place.startOf path) front = .ok place ∧ tree.entry? place = some .directory ∧
    GoesDown back

theorem Reaches.heads (reaches : tree.Reaches path) : tree.Heads path := by
  obtain ⟨front, back, place, split, walked, there, down⟩ := reaches
  exact ⟨front, back, place, split, walked, there, down.goesDown⟩

theorem Reaches.heads_join (reaches : tree.Reaches path) (isPart : IsPart name) :
    tree.Heads (Files.join path name) := by
  obtain ⟨front, back, place, split, walked, there, down⟩ := reaches.before_join isPart.noSlash
  refine ⟨front, back ++ [name], place, split, walked, there,
    List.forall_mem_append.mpr ⟨down.goesDown, fun part member => ?_⟩⟩
  rw [List.mem_singleton.mp member]
  exact isPart.some.2.2

theorem Heads.of_keeps (heads : before.Heads path) (keeps : ∀ place,
      before.entry? place = some .directory → after.entry? place = some .directory) :
    after.Heads path := by
  obtain ⟨front, back, place, split, walked, there, down⟩ := heads
  exact ⟨front, back, place, split, walk_of_keeps keeps walked, keeps place there, down⟩

/-- What a name has been joined to is reached as its parent, too. -/
theorem Reaches.parent_join (reaches : tree.Reaches path) (plain : '/' ∉ name.toList) :
    tree.Reaches (parent (Files.join path name)) ∧
      Place.ofPath (parent (Files.join path name)) = Place.ofPath path := by
  rcases Files.parent_join path plain with same | ⟨some, ended⟩
  · rw [same]
    exact ⟨reaches, rfl⟩
  · generalize parent (Files.join path name) = base at some ended ⊢
    subst ended
    obtain ⟨front, back, place, split, walked, there, down⟩ := reaches.of_slash
    rw [Place.startOf_append some] at walked
    refine ⟨⟨front, back, place, split, walked, there, down⟩, ?_⟩
    rw [Place.ofPath_slash, Place.startOf_append some]
    rfl

/-- A path to a place elsewhere leads to what it led to. -/
theorem ChangedIn.lookup (changed : ChangedIn directory before after) (sound : before.Sound)
    (reaches : before.Reaches path) (notAbove : ¬Place.ofPath path <+: directory)
    (notInside : ¬directory <+: Place.ofPath path) : after.lookup path = before.lookup path := by
  obtain ⟨front, back, place, split, walked, there, down⟩ := reaches
  have target : back.foldl Place.next place = Place.ofPath path := by
    rw [walk_ok walked, ← List.foldl_append, ← split]
    rfl
  rw [lookup_eq, lookup_eq, split, follow_append walked, follow_append (walk_of_keeps changed.keeps walked),
    follow_elsewhere changed sound down (target ▸ notAbove) (target ▸ notInside)]

theorem ChangedIn.list (changed : ChangedIn directory before after) (sound : before.Sound)
    (reaches : before.Reaches path) (notAbove : ¬Place.ofPath path <+: directory)
    (notInside : ¬directory <+: Place.ofPath path) : after.list path = before.list path := by
  rw [list_eq, list_eq, changed.lookup sound reaches notAbove notInside,
    changed.names _ notAbove notInside]

theorem ChangedIn.read (changed : ChangedIn directory before after) (sound : before.Sound)
    (reaches : before.Reaches path) (notAbove : ¬Place.ofPath path <+: directory)
    (notInside : ¬directory <+: Place.ofPath path) : after.read path = before.read path := by
  rw [read_eq, read_eq, changed.lookup sound reaches notAbove notInside]

end Tree

/-! What work in a directory changes. -/

namespace Work

open Files.Tree

variable {tree before after : Tree} {path name : String} {place here : Place} {parts : List String}

theorem makeDirectoriesFrom_append {front : List String} (back : List String)
    (walked : tree.walk here front = .ok place) (there : tree.entry? place = some .directory) :
    makeDirectoriesFrom here (front ++ back) tree = makeDirectoriesFrom place back tree := by
  induction front generalizing here with
  | nil =>
    cases walked
    rfl
  | cons part rest ih =>
    obtain ⟨-, -, walked⟩ := walk_cons_ok_iff.mp walked
    have next : tree.entry? (here.next part) = some .directory := by
      cases rest with
      | nil =>
        cases walked
        exact there
      | cons second more => exact (walk_cons_ok_iff.mp walked).1
    rw [List.cons_append, makeDirectoriesFrom]
    simp only [next]
    exact ih walked

theorem makeDirectoriesFrom_changed {directory : Place} (tree : Tree) (down : GoesDown parts)
    (above : parts.foldl Place.next here <+: directory) :
    ChangedIn directory tree (makeDirectoriesFrom here parts tree).2 := by
  induction parts generalizing here tree with
  | nil => exact .refl _ tree
  | cons part rest ih =>
    have downRest := (List.forall_mem_cons.mp down).2
    rcases found : tree.entry? (here.next part) with _ | ⟨_ | content⟩
    · have made : ChangedIn directory tree (tree.insert (here.next part) .directory) :=
        changedIn_insert (by simp [found])
          (Or.inr ⟨(Place.prefix_foldl_next _ downRest).trans above, found, rfl⟩)
      simp only [makeDirectoriesFrom, found]
      split
      · exact .refl _ tree
      · exact made.trans (ih _ downRest above)
    · simp only [makeDirectoriesFrom, found]
      exact ih tree downRest above
    · simp only [makeDirectoriesFrom, found]
      exact .refl _ tree

/-- Making a directory, seen from a place in it, changes nothing but what lies above it and was
missing. -/
theorem makeDirectories_changed {directory : Place} (heads : tree.Heads path)
    (above : Place.ofPath path <+: directory) :
    ChangedIn directory tree (makeDirectories path tree).2 := by
  obtain ⟨front, back, place, split, walked, there, down⟩ := heads
  have target : back.foldl Place.next place = Place.ofPath path := by
    rw [walk_ok walked, ← List.foldl_append, ← split]
    rfl
  rw [makeDirectories]
  split_ifs
  · exact .refl _ tree
  · rw [split, makeDirectoriesFrom_append back walked there]
    exact makeDirectoriesFrom_changed tree down (target ▸ above)

/-- Writing a file changes nothing but what lies in its directory. -/
theorem write_changed {directory : Place} (inside : directory <+: Place.ofPath path)
    (content : String) (tree : Tree) : ChangedIn directory tree (write path content tree).2 := by
  rw [write]
  rcases located : tree.locate path with fault | place
  · exact .refl _ tree
  · obtain rfl := locate_ok located
    dsimp only
    split
    · exact .refl _ tree
    · next notDirectory =>
      exact changedIn_insert notDirectory (Or.inl inside)

theorem part_of_path {part : String} (free : path.toList.contains (Char.ofNat 0) = false)
    (member : part ∈ Files.parts path) : '/' ∉ part.toList ∧ Char.ofNat 0 ∉ part.toList := by
  obtain ⟨chars, inside, rfl⟩ := List.mem_map.mp member
  rw [String.toList_ofList]
  refine ⟨Text.not_mem_of_mem_splitChars inside, fun nul => ?_⟩
  have whole := Text.mem_of_mem_splitChars inside nul
  simp [whole] at free

theorem makeDirectoriesFrom_sound (sound : tree.Sound) (there : tree.entry? here = some .directory)
    (plain : ∀ part ∈ parts, '/' ∉ part.toList ∧ Char.ofNat 0 ∉ part.toList) :
    (makeDirectoriesFrom here parts tree).2.Sound := by
  induction parts generalizing here tree with
  | nil => exact sound
  | cons part rest ih =>
    obtain ⟨⟨noSlash, noNul⟩, plainRest⟩ := List.forall_mem_cons.mp plain
    rcases found : tree.entry? (here.next part) with _ | ⟨_ | content⟩
    · simp only [makeDirectoriesFrom, found]
      split_ifs with long
      · exact sound
      · have notDirectory : tree.entry? (here.next part) ≠ some .directory := by simp [found]
        obtain ⟨named, some⟩ := sound.next_of_missing there notDirectory
        have isName : IsName part := ⟨noSlash, noNul, some, Nat.not_lt.mp long⟩
        rw [named] at notDirectory ⊢
        refine ih (sound.insert there isName notDirectory .directory) ?_ plainRest
        rw [entry?_insert (isName.isStart here), if_pos rfl]
    · simp only [makeDirectoriesFrom, found]
      exact ih sound found plainRest
    · simp only [makeDirectoriesFrom, found]
      exact sound

theorem makeDirectories_sound (sound : tree.Sound) (path : String) :
    (makeDirectories path tree).2.Sound := by
  rw [makeDirectories]
  split_ifs with nul
  · exact sound
  · refine makeDirectoriesFrom_sound sound (entry?_of_isStart ?_)
      fun part member => part_of_path (Bool.eq_false_iff.mpr nul) member
    rw [Place.startOf]
    split <;> rfl

/-- The last step of a way. -/
theorem walk_last (some : parts ≠ []) (walked : tree.walk here parts = .ok place) :
    ∃ above part, part ∈ parts ∧ place = Place.next above part ∧
      tree.entry? above = .some .directory ∧ part.utf8ByteSize ≤ Place.nameLimit := by
  induction parts generalizing here with
  | nil => exact absurd rfl some
  | cons part rest ih =>
    obtain ⟨there, short, walked⟩ := walk_cons_ok_iff.mp walked
    rcases List.eq_nil_or_concat rest with rfl | ⟨front, last, rfl⟩
    · cases walked
      exact ⟨here, part, List.mem_cons_self, rfl, there, short⟩
    · obtain ⟨above, last, member, reached⟩ := ih (by simp) walked
      exact ⟨above, last, List.mem_cons_of_mem part member, reached⟩

theorem write_sound (sound : tree.Sound) (path content : String) :
    (write path content tree).2.Sound := by
  rw [write]
  rcases located : tree.locate path with fault | place
  · exact sound
  · dsimp only
    split
    · exact sound
    · next notDirectory =>
      obtain ⟨-, noNul, walked⟩ := locate_ok_iff.mp located
      have some : Files.parts path ≠ [] := by
        rw [Files.parts, Text.splitChars_eq_splitOn, ne_eq, List.map_eq_nil_iff]
        exact List.splitOn_ne_nil _ _
      obtain ⟨above, part, member, rfl, there, short⟩ := walk_last some walked
      obtain ⟨named, proper⟩ := sound.next_of_missing there notDirectory
      obtain ⟨noSlash, noNul⟩ := part_of_path (by simpa using noNul) member
      rw [named] at notDirectory ⊢
      exact sound.insert there ⟨noSlash, noNul, proper, short⟩ notDirectory (.file content)

end Work

end Newsreel.Files
