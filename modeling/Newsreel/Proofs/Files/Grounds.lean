import Newsreel.Proofs.Files.Elsewhere

/-!
A tree that others work in as well, beside one that nobody else works in.

In each of some shared directories one name is mine and another one is theirs. What lies below their
names may be anything. Above, the others may have made directories that are missing without them.
Everything else is as it is without them, and stays so whatever they and I do: paths to other places
lead to the same, and making, writing and removing what is mine comes out alike.
-/

namespace Newsreel.Files

/-- Shared directories, none in another one, with a name of mine and a name of theirs in each. -/
structure Grounds (ι : Type) where
  shared : ι → Place
  mine : ι → String
  theirs : ι → String
  distinct : ∀ i, mine i ≠ theirs i
  apart : ∀ i j, shared i <+: shared j → i = j

namespace Grounds

variable {ι : Type} {grounds : Grounds ι} {place other : Place} {name : String}

/-- Below a name of mine. -/
def Mine (grounds : Grounds ι) (place : Place) : Prop :=
  ∃ i, grounds.shared i ++ [grounds.mine i] <+: place

/-- Below a name of theirs. -/
def Theirs (grounds : Grounds ι) (place : Place) : Prop :=
  ∃ i, grounds.shared i ++ [grounds.theirs i] <+: place

/-- A shared directory, or one above it. -/
def Above (grounds : Grounds ι) (place : Place) : Prop := ∃ i, place <+: grounds.shared i

/-- A place that the others have nothing to do with. -/
structure Clear (grounds : Grounds ι) (place : Place) : Prop where
  notTheirs : ¬grounds.Theirs place
  notAbove : ¬grounds.Above place

theorem Mine.below (mine : grounds.Mine place) (below : place <+: other) : grounds.Mine other := by
  obtain ⟨i, mine⟩ := mine
  exact ⟨i, mine.trans below⟩

theorem Theirs.below (theirs : grounds.Theirs place) (below : place <+: other) :
    grounds.Theirs other := by
  obtain ⟨i, theirs⟩ := theirs
  exact ⟨i, theirs.trans below⟩

theorem Above.above (above : grounds.Above other) (below : place <+: other) :
    grounds.Above place := by
  obtain ⟨i, above⟩ := above
  exact ⟨i, below.trans above⟩

/-- A place lies in one shared directory only. -/
theorem eq_of_below {i j : ι} (first : grounds.shared i <+: place)
    (second : grounds.shared j <+: place) : i = j := by
  rcases List.prefix_or_prefix_of_prefix first second with inside | inside
  · exact grounds.apart i j inside
  · exact (grounds.apart j i inside).symm

theorem not_concat_prefix (place : Place) (name : String) : ¬place ++ [name] <+: place := by
  intro inside
  have longer := inside.length_le
  rw [List.length_append, List.length_singleton] at longer
  exact absurd longer (Nat.not_succ_le_self _)

theorem not_theirs_of_above (above : grounds.Above place) : ¬grounds.Theirs place := by
  obtain ⟨i, above⟩ := above
  rintro ⟨j, theirs⟩
  have inside := theirs.trans above
  obtain rfl := grounds.apart j i ((List.prefix_append _ _).trans inside)
  exact not_concat_prefix _ _ inside

theorem Mine.clear (mine : grounds.Mine place) : grounds.Clear place := by
  obtain ⟨i, mine⟩ := mine
  constructor
  · rintro ⟨j, theirs⟩
    obtain rfl := eq_of_below ((List.prefix_append _ _).trans mine)
      ((List.prefix_append _ _).trans theirs)
    have inside := List.prefix_of_prefix_length_le mine theirs (by simp)
    have same := List.append_cancel_left (inside.eq_of_length (by simp))
    exact grounds.distinct i (List.cons.inj same).1
  · rintro ⟨j, above⟩
    have inside := mine.trans above
    obtain rfl := grounds.apart i j ((List.prefix_append _ _).trans inside)
    exact not_concat_prefix _ _ inside

/-- A place apart from all shared directories, and what lies below it. -/
theorem clear_of_apart (apart : ∀ i, ¬grounds.shared i <+: other ∧ ¬other <+: grounds.shared i)
    (below : other <+: place) : grounds.Clear place := by
  constructor
  · rintro ⟨i, theirs⟩
    rcases List.prefix_or_prefix_of_prefix ((List.prefix_append _ _).trans theirs) below with
      inside | inside
    · exact (apart i).1 inside
    · exact (apart i).2 inside
  · rintro ⟨i, above⟩
    exact (apart i).2 (below.trans above)

theorem Clear.concat (clear : grounds.Clear place) (name : String) :
    grounds.Clear (place ++ [name]) := by
  constructor
  · rintro ⟨i, theirs⟩
    rcases List.prefix_concat_iff.mp theirs with same | inside
    · have shared := (List.append_inj' same rfl).1
      exact clear.notAbove ⟨i, shared ▸ List.prefix_rfl⟩
    · exact clear.notTheirs ⟨i, inside⟩
  · exact fun above => clear.notAbove (above.above (List.prefix_append _ _))

end Grounds

/-! Trees side by side. -/

namespace Tree

variable {ι : Type} {grounds : Grounds ι} {kept shared alone after tree : Tree}
  {place other here : Place} {path name content : String} {parts : List String} {entry : Entry}

theorem mem_places_iff (free : place.isStart = false) :
    place ∈ tree.places ↔ tree.entry? place ≠ none := by
  rw [places, List.mem_map, entry?, free, if_neg Bool.false_ne_true, ne_eq,
    Option.map_eq_none_iff, List.find?_eq_none]
  simp only [decide_eq_true_eq, not_forall, not_not, exists_prop]

/-- What lies in a sound tree goes by a name that is short enough. -/
theorem Sound.isName_of_there (sound : tree.Sound)
    (there : tree.entry? (place ++ [name]) = some entry) (isPart : IsPart name) : IsName name := by
  obtain ⟨above, last, split, isName, -⟩ := sound.held _ (by simp [there]) (isPart.isStart place)
  obtain rfl : name = last := (List.cons.inj (List.append_inj' split rfl).2).1
  exact isName

theorem follow_nil (tree : Tree) (here : Place) :
    tree.follow here [] = ( tree.entry? here).elim (.error .notFound) .ok := by
  rw [follow, walk]
  rcases there : tree.entry? here with _ | entry <;>
    simp only [bind, Except.bind, there] <;> rfl

/-- A tree that others have worked in is like one that nobody else has worked in, as far as they have
nothing to do with it. Directories that are kept are there in both. -/
structure Alike (grounds : Grounds ι) (kept shared alone : Tree) : Prop where
  entries : ∀ place, grounds.Theirs place ∨ shared.entry? place = alone.entry? place ∨
    (grounds.Above place ∧ shared.entry? place = some .directory ∧ alone.entry? place = none)
  names : ∀ place, grounds.Mine place → shared.namesIn place = alone.namesIn place
  keeps : ∀ place, kept.entry? place = some .directory →
    shared.entry? place = some .directory ∧ alone.entry? place = some .directory
  sound : shared.Sound
  soundAlone : alone.Sound

namespace Alike

theorem refl (grounds : Grounds ι) (sound : tree.Sound)
    (keeps : ∀ place, kept.entry? place = some .directory → tree.entry? place = some .directory) :
    Alike grounds kept tree tree :=
  ⟨fun _ => Or.inr (Or.inl rfl), fun _ _ => rfl, fun place holds => ⟨keeps place holds, keeps place holds⟩,
    sound, sound⟩

/-! What paths lead to. -/

theorem entry?_eq (alike : Alike grounds kept shared alone) (clear : grounds.Clear place) :
    shared.entry? place = alone.entry? place := by
  rcases alike.entries place with theirs | same | ⟨above, -, -⟩
  · exact absurd theirs clear.notTheirs
  · exact same
  · exact absurd above clear.notAbove

/-- Where nothing is without the others, a way leads to nothing, also through what they have made. -/
theorem follow_of_missing (alike : Alike grounds kept shared alone)
    (missing : alone.entry? here = none) (down : Descends parts)
    (clear : grounds.Clear (parts.foldl Place.next here)) :
    shared.follow here parts = .error .notFound := by
  induction parts generalizing here with
  | nil =>
    rw [List.foldl_nil] at clear
    rw [follow_nil, alike.entry?_eq clear, missing]
    rfl
  | cons part rest ih =>
    obtain ⟨⟨notUp, short⟩, downRest⟩ := List.forall_mem_cons.mp down
    rw [follow_cons]
    rcases alike.entries here with theirs | same | ⟨-, there, -⟩
    · exact absurd (theirs.below (Place.prefix_foldl_next here down.goesDown)) clear.notTheirs
    · rw [same, missing]
    · rw [there]
      simp only [Nat.not_lt.mpr short, if_false]
      have further := Place.prefix_next here notUp
      exact ih (alike.soundAlone.nothing_below missing further) downRest clear

theorem follow_eq (alike : Alike grounds kept shared alone) (down : Descends parts)
    (clear : grounds.Clear (parts.foldl Place.next here)) :
    shared.follow here parts = alone.follow here parts := by
  induction parts generalizing here with
  | nil =>
    rw [List.foldl_nil] at clear
    rw [follow_nil, follow_nil, alike.entry?_eq clear]
  | cons part rest ih =>
    obtain ⟨⟨notUp, short⟩, downRest⟩ := List.forall_mem_cons.mp down
    rcases alike.entries here with theirs | same | ⟨-, -, missing⟩
    · exact absurd (theirs.below (Place.prefix_foldl_next here down.goesDown)) clear.notTheirs
    · rw [follow_cons, follow_cons, same]
      rcases alone.entry? here with _ | ⟨_ | content⟩
      · rfl
      · simp only [Nat.not_lt.mpr short, if_false]
        exact ih downRest clear
      · rfl
    · rw [alike.follow_of_missing missing down clear, follow_cons, missing]

theorem lookup_eq (alike : Alike grounds kept shared alone) (reaches : kept.Reaches path)
    (clear : grounds.Clear (Place.ofPath path)) : shared.lookup path = alone.lookup path := by
  obtain ⟨front, back, place, split, walked, there, down⟩ := reaches
  have target : back.foldl Place.next place = Place.ofPath path := by
    rw [walk_ok walked, ← List.foldl_append, ← split]
    rfl
  rw [Tree.lookup_eq, Tree.lookup_eq, split,
    follow_append (walk_of_keeps (fun place there => (alike.keeps place there).1) walked),
    follow_append (walk_of_keeps (fun place there => (alike.keeps place there).2) walked),
    alike.follow_eq down (target ▸ clear)]

theorem list_eq (alike : Alike grounds kept shared alone)
    (same : shared.lookup path = alone.lookup path) (mine : grounds.Mine (Place.ofPath path)) :
    shared.list path = alone.list path := by
  rw [Tree.list_eq, Tree.list_eq, same, alike.names _ mine]

end Alike

/-! The last part of a path. -/

/-- Where a name leads from what has been found at a place. -/
def descend (place : Place) (name : String) : Entry → Except FileFault Place
  | .file _ => .error .notADirectory
  | .directory =>
    if Place.nameLimit < name.utf8ByteSize then .error .nameTooLong else .ok (place.next name)

theorem walk_concat (tree : Tree) (here : Place) (front : List String) (part : String) :
    tree.walk here (front ++ [part]) =
      tree.follow here front >>= descend (front.foldl Place.next here) part := by
  induction front generalizing here with
  | nil =>
    rw [List.nil_append, walk, follow_nil]
    rcases tree.entry? here with _ | ⟨_ | content⟩ <;> rfl
  | cons first rest ih =>
    rw [List.cons_append, walk, follow_cons]
    rcases tree.entry? here with _ | ⟨_ | content⟩
    · rfl
    · dsimp only
      split
      · rfl
      · exact ih _
    · rfl

/-- A slash at the end of a path to a directory leads nowhere else. -/
theorem follow_slash (tree : Tree) (here : Place) (front : List String) (name : String) :
    tree.follow here (front ++ [""]) >>= descend ((front ++ [""]).foldl Place.next here) name =
      tree.follow here front >>= descend (front.foldl Place.next here) name := by
  rw [List.foldl_append, follow, walk_concat]
  rcases ended : tree.follow here front with fault | ⟨_ | content⟩
  · rfl
  · have stays : (front.foldl Place.next here).next "" = front.foldl Place.next here := by
      simp [Place.next]
    have there : tree.entry? (front.foldl Place.next here) = some .directory := by
      rw [follow] at ended
      obtain ⟨place, walked, found⟩ := Outcome.bind_ok_iff.mp ended
      obtain rfl := walk_ok walked
      split at found
      · cases found
      · next there =>
        cases found
        exact there
    have short : ¬Place.nameLimit < "".utf8ByteSize := by decide
    simp only [bind, Except.bind, descend, if_neg short, stays, there, List.foldl_cons,
      List.foldl_nil, pure, Except.pure]
  · rfl

/-- A name is looked up in what the path before it leads to. -/
theorem locate_join_eq (tree : Tree) (some : path ≠ "") (isPart : IsPart name) :
    tree.locate (join path name) = tree.lookup path >>= descend (Place.ofPath path) name := by
  obtain ⟨base, joined, path_eq⟩ := join_eq some isPart.noSlash
  have start : Place.startOf (base ++ "/" ++ name) = Place.startOf path := by
    rcases path_eq with rfl | rfl
    · rw [String.append_assoc, Place.startOf_append some]
    · rw [Place.startOf_append some]
  have nul : (base ++ "/" ++ name).toList.contains (Char.ofNat 0) =
      path.toList.contains (Char.ofNat 0) := by
    have whole : Char.ofNat 0 ∈ (base ++ "/" ++ name).toList ↔ Char.ofNat 0 ∈ path.toList := by
      rcases path_eq with rfl | rfl <;> simp [isPart.noNul]
    rw [Bool.eq_iff_iff, List.contains_iff_mem, List.contains_iff_mem, whole]
  have ways : tree.walk (Place.startOf path) (Files.parts base ++ [name]) =
      tree.follow (Place.startOf path) (Files.parts path) >>= descend (Place.ofPath path) name := by
    rcases path_eq with rfl | same
    · exact walk_concat _ _ _ _
    · have cut := Place.parts_append base ""
      rw [String.append_empty, ← same] at cut
      have parts : Files.parts path = Files.parts base ++ [""] := cut
      rw [Place.ofPath, parts, follow_slash, walk_concat]
  rw [joined, locate, Tree.lookup_eq, nul, start, Place.parts_append,
    Place.parts_of_plain isPart.noSlash, ways, if_neg (by simp : base ++ "/" ++ name ≠ ""),
    if_neg some]
  split <;> rfl

theorem list_of_error {fault : FileFault} (failed : tree.lookup path = .error fault) :
    tree.list path = .error fault := by
  rw [list_eq, failed]
  rfl

theorem lookup_join_error {fault : FileFault} (some : path ≠ "") (isPart : IsPart name)
    (failed : tree.lookup path = .error fault) : tree.lookup (join path name) = .error fault := by
  rw [lookup, locate_join_eq tree some isPart, failed]
  rfl

/-- That a name is too long is found out in a directory that is there. -/
theorem lookup_join_long (some : path ≠ "") (isPart : IsPart name)
    (there : tree.lookup path = .ok .directory) (long : Place.nameLimit < name.utf8ByteSize) :
    tree.lookup (join path name) = .error .nameTooLong := by
  have ended : descend (Place.ofPath path) name .directory = .error .nameTooLong := if_pos long
  rw [lookup, locate_join_eq tree some isPart, there]
  simp only [bind, Except.bind, ended]

theorem locate_join_congr (same : shared.lookup path = alone.lookup path) (isPart : IsPart name) :
    shared.locate (join path name) = alone.locate (join path name) := by
  by_cases empty : path = ""
  · have joined : join path name = name := by
      rw [empty, join]
      split <;> rfl
    have start : (Place.startOf name).isStart = true := by
      rw [Place.startOf]
      split <;> rfl
    rw [joined, locate, locate, Place.parts_of_plain isPart.noSlash]
    simp only [walk, entry?_of_isStart start]
  · rw [locate_join_eq shared empty isPart, locate_join_eq alone empty isPart, same]

/-- A name in a directory that they have nothing to do with leads to the same, also one that is longer
than names may be. -/
theorem Alike.lookup_join (alike : Alike grounds kept shared alone)
    (same : shared.lookup path = alone.lookup path) (clear : grounds.Clear (Place.ofPath path))
    (isPart : IsPart name) : shared.lookup (join path name) = alone.lookup (join path name) := by
  rw [lookup, lookup, locate_join_congr same isPart]
  rcases found : alone.locate (join path name) with fault | place
  · rfl
  · have entries : shared.entry? place = alone.entry? place :=
      alike.entry?_eq (locate_ok found ▸ isPart.ofPath_join path ▸ clear.concat name)
    simp only [bind, Except.bind, entries]

theorem Alike.read_join (alike : Alike grounds kept shared alone)
    (same : shared.lookup path = alone.lookup path) (clear : grounds.Clear (Place.ofPath path))
    (isPart : IsPart name) : shared.read (join path name) = alone.read (join path name) := by
  rw [read_eq, read_eq, alike.lookup_join same clear isPart]

/-! My own work, done beside theirs and alone. -/

theorem entry?_prune_inside (notStart : other.isStart = false) (inside : place <+: other) :
    Tree.entry? (tree.prune place) other = none := by
  rw [ entry?, notStart, if_neg Bool.false_ne_true, Option.map_eq_none_iff, prune,
    List.find?_eq_none]
  intro found kept same
  obtain ⟨-, apart⟩ := List.mem_filter.mp kept
  rw [of_decide_eq_true same, List.isPrefixOf_iff_prefix.mpr inside] at apart
  cases apart

theorem entry?_prune_outside (outside : ¬place <+: other) :
    Tree.entry? (tree.prune place) other = tree.entry? other := by
  rw [ entry?, entry?, prune, List.find?_filter]
  congr 3
  funext found
  by_cases same : found.1 = other
  · have free : place.isPrefixOf other = false :=
      Bool.eq_false_iff.mpr fun above => outside (List.isPrefixOf_iff_prefix.mp above)
    simp [same, free]
  · simp [same]

/-- A directory lists what is left in it. -/
theorem namesIn_prune (tree : Tree) (place other : Place) : (tree.prune place).namesIn other =
    (tree.namesIn other).filter fun name => !place.isPrefixOf (other ++ [name]) := by
  have left : (tree.prune place).places = tree.places.filter fun found => !place.isPrefixOf found := by
    rw [places, places, prune, List.filter_map]
    rfl
  rw [namesIn_eq, namesIn_eq, left, List.filterMap_filter, List.filter_filterMap]
  refine List.filterMap_congr fun found _ => ?_
  rcases named : nameIn? other found with _ | name
  · rw [ite_self]
    rfl
  · have split : found = other ++ [name] := by
      rw [nameIn?] at named
      split at named
      · next last ends =>
        split at named
        · next inside =>
          cases named
          rw [← inside.1, List.dropLast_append_getLast? _ ends]
        · cases named
      · cases named
    rw [split, Option.filter_some]

theorem Sound.prune (sound : tree.Sound) (place : Place) : (tree.prune place).Sound where
  held other present notStart := by
    have outside : ¬place <+: other := fun inside =>
      present (entry?_prune_inside notStart inside)
    rw [entry?_prune_outside outside] at present
    obtain ⟨above, name, rfl, isName, there⟩ := sound.held other present notStart
    refine ⟨above, name, rfl, isName, ?_⟩
    rw [entry?_prune_outside fun inside => outside (inside.trans (List.prefix_append _ _)), there]

/-- What has been found is a directory and can be removed. -/
def removable : Except FileFault Entry → Except FileFault Unit
  | .error fault => .error fault
  | .ok (.file _) => .error .notADirectory
  | .ok .directory => .ok ()

theorem removeDirectory_eq (path : String) (tree : Tree) : Work.removeDirectory path tree =
    (removable (tree.lookup path),
      if (removable (tree.lookup path)).isOk then tree.prune (Place.ofPath path) else tree) := by
  rw [Work.removeDirectory, lookup]
  rcases located : tree.locate path with fault | place
  · rfl
  · rw [← locate_ok located]
    rcases there : tree.entry? place with _ | ⟨_ | content⟩ <;>
      simp only [bind, Except.bind, there] <;> rfl

namespace Alike

/-- The same put in both trees. -/
theorem insert (alike : Alike grounds kept shared alone)
    (same : shared.entry? place = alone.entry? place)
    (notDirectory : alone.entry? place ≠ some .directory) (entry : Entry)
    (sound : (shared.insert place entry).Sound) (soundAlone : (alone.insert place entry).Sound) :
    Alike grounds kept (shared.insert place entry) (alone.insert place entry) where
  sound := sound
  soundAlone := soundAlone
  entries other := by
    have free := free_of_not_directory notDirectory
    rw [entry?_insert free, entry?_insert free]
    by_cases here : other = place
    · rw [if_pos here, if_pos here]
      exact Or.inr (Or.inl rfl)
    · rw [if_neg here, if_neg here]
      exact alike.entries other
  names other mine := by
    have free := free_of_not_directory notDirectory
    have there : place ∈ shared.places ↔ place ∈ alone.places := by
      rw [mem_places_iff free, mem_places_iff free, same]
    have names := alike.names other mine
    rw [namesIn_eq, namesIn_eq] at names ⊢
    rw [places_insert, places_insert]
    by_cases listed : place ∈ alone.places
    · rw [if_pos listed, if_pos (there.mpr listed), names]
    · rw [if_neg listed, if_neg (mt there.mp listed), List.filterMap_append, List.filterMap_append,
        names]
  keeps other holds := by
    have free := free_of_not_directory notDirectory
    obtain ⟨first, second⟩ := alike.keeps other holds
    have apart : other ≠ place := by
      rintro rfl
      exact notDirectory second
    rw [entry?_insert free, entry?_insert free, if_neg apart, if_neg apart]
    exact ⟨first, second⟩

/-- A directory that the others have made already, made alone. -/
theorem insert_alone (alike : Alike grounds kept shared alone)
    (above : grounds.Above (here ++ [name])) (isName : IsName name)
    (there : shared.entry? (here ++ [name]) = some .directory)
    (missing : alone.entry? (here ++ [name]) = none) (holds : alone.entry? here = some .directory) :
    Alike grounds kept shared (alone.insert (here ++ [name]) .directory) where
  sound := alike.sound
  soundAlone := alike.soundAlone.insert holds isName (by simp [missing]) .directory
  entries other := by
    rw [entry?_insert (isName.isStart here)]
    by_cases same : other = here ++ [name]
    · rw [if_pos same, same]
      exact Or.inr (Or.inl there)
    · rw [if_neg same]
      exact alike.entries other
  names other mine := by
    rw [alike.names other mine, namesIn_insert_elsewhere fun last same => ?_]
    have parents : here = other := (List.append_inj' same rfl).1
    exact mine.clear.notAbove (parents ▸ above.above (List.prefix_append _ _))
  keeps other holds := by
    obtain ⟨first, second⟩ := alike.keeps other holds
    have apart : other ≠ here ++ [name] := by
      rintro rfl
      rw [missing] at second
      cases second
    rw [entry?_insert (isName.isStart here), if_neg apart]
    exact ⟨first, second⟩

/-- Directories on the way down to a place that is not theirs are made alike. -/
theorem makeDirectoriesFrom (alike : Alike grounds kept shared alone)
    (there : shared.entry? here = some .directory) (thereAlone : alone.entry? here = some .directory)
    (down : GoesDown parts) (plain : ∀ part ∈ parts, '/' ∉ part.toList ∧ Char.ofNat 0 ∉ part.toList)
    (notTheirs : ¬grounds.Theirs (parts.foldl Place.next here)) :
    (Work.makeDirectoriesFrom here parts shared).1 = (Work.makeDirectoriesFrom here parts alone).1 ∧
      Alike grounds kept (Work.makeDirectoriesFrom here parts shared).2
        (Work.makeDirectoriesFrom here parts alone).2 := by
  induction parts generalizing here shared alone with
  | nil => exact ⟨rfl, alike⟩
  | cons part rest ih =>
    have downRest := (List.forall_mem_cons.mp down).2
    obtain ⟨⟨noSlash, noNul⟩, plainRest⟩ := List.forall_mem_cons.mp plain
    have below : here.next part <+: rest.foldl Place.next (here.next part) :=
      Place.prefix_foldl_next _ downRest
    have named (missing : alone.entry? (here.next part) = none) :
        here.next part = here ++ [part] ∧ IsPart part := by
      have notThere : alone.entry? (here.next part) ≠ some .directory := by simp [missing]
      obtain ⟨next, proper⟩ := alike.soundAlone.next_of_missing thereAlone notThere
      exact ⟨next, noSlash, noNul, proper⟩
    rcases alike.entries (here.next part) with theirs | same | ⟨above, made, missing⟩
    · exact absurd (theirs.below below) notTheirs
    · rcases found : alone.entry? (here.next part) with _ | ⟨_ | content⟩
      · rw [found] at same
        simp only [Work.makeDirectoriesFrom, found, same]
        split
        · exact ⟨rfl, alike⟩
        next short =>
        obtain ⟨next, isPart⟩ := named found
        have isName : IsName part := isPart.isName (Nat.not_lt.mp short)
        rw [List.foldl_cons] at notTheirs
        rw [next] at found same notTheirs ⊢
        have inserted := alike.insert (same.trans found.symm) (by simp [found]) .directory
          (alike.sound.insert there isName (by simp [same]) _)
          (alike.soundAlone.insert thereAlone isName (by simp [found]) _)
        have put {tree : Tree} : Tree.entry? (tree.insert (here ++ [part]) .directory)
            (here ++ [part]) = some .directory := by
          rw [entry?_insert (isName.isStart here), if_pos rfl]
        exact ih inserted put put downRest plainRest notTheirs
      · rw [found] at same
        simp only [Work.makeDirectoriesFrom, found, same]
        exact ih alike same found downRest plainRest notTheirs
      · rw [found] at same
        simp only [Work.makeDirectoriesFrom, found, same]
        exact ⟨trivial, alike⟩
    · obtain ⟨next, isPart⟩ := named missing
      rw [List.foldl_cons] at notTheirs
      rw [next] at above made missing notTheirs
      -- What the others have made goes by a name that is short enough.
      have isName : IsName part := alike.sound.isName_of_there made isPart
      simp only [Work.makeDirectoriesFrom, next, made, missing, Nat.not_lt.mpr isName.short, if_false]
      have inserted := alike.insert_alone above isName made missing thereAlone
      have put : Tree.entry? (alone.insert (here ++ [part]) .directory) (here ++ [part]) =
          some .directory := by
        rw [entry?_insert (isName.isStart here), if_pos rfl]
      exact ih inserted made put downRest plainRest notTheirs

theorem makeDirectories (alike : Alike grounds kept shared alone) (heads : kept.Heads path)
    (notTheirs : ¬grounds.Theirs (Place.ofPath path)) :
    (Work.makeDirectories path shared).1 = (Work.makeDirectories path alone).1 ∧
      Alike grounds kept (Work.makeDirectories path shared).2
        (Work.makeDirectories path alone).2 := by
  obtain ⟨front, back, place, split, walked, there, down⟩ := heads
  have target : back.foldl Place.next place = Place.ofPath path := by
    rw [walk_ok walked, ← List.foldl_append, ← split]
    rfl
  obtain ⟨holds, holdsAlone⟩ := alike.keeps place there
  rw [Work.makeDirectories, Work.makeDirectories]
  split_ifs with nul
  · exact ⟨rfl, alike⟩
  · rw [split,
      Work.makeDirectoriesFrom_append back
        (walk_of_keeps (fun place there => (alike.keeps place there).1) walked) holds,
      Work.makeDirectoriesFrom_append back
        (walk_of_keeps (fun place there => (alike.keeps place there).2) walked) holdsAlone]
    refine alike.makeDirectoriesFrom holds holdsAlone down (fun part member => ?_)
      (target ▸ notTheirs)
    exact Work.part_of_path (Bool.not_eq_true _ ▸ nul) (split ▸ List.mem_append_right _ member)

/-- A file in a directory that they have nothing to do with is written alike. -/
theorem write_join (alike : Alike grounds kept shared alone)
    (leads : shared.lookup path = alone.lookup path) (clear : grounds.Clear (Place.ofPath path))
    (isPart : IsPart name) (content : String) :
    (Work.write (join path name) content shared).1 = (Work.write (join path name) content alone).1 ∧
      Alike grounds kept (Work.write (join path name) content shared).2
        (Work.write (join path name) content alone).2 := by
  have same := locate_join_congr leads isPart
  have sound := Work.write_sound alike.sound (join path name) content
  have soundAlone := Work.write_sound alike.soundAlone (join path name) content
  rw [Work.write] at sound soundAlone ⊢
  rw [Work.write]
  rw [same] at sound ⊢
  rcases found : alone.locate (join path name) with fault | place
  · exact ⟨rfl, alike⟩
  · have target : place = Place.ofPath path ++ [name] := by
      rw [locate_ok found, isPart.ofPath_join]
    have entries : shared.entry? place = alone.entry? place :=
      alike.entry?_eq (target ▸ clear.concat name)
    rw [found] at sound soundAlone
    dsimp only at sound soundAlone ⊢
    rw [entries] at sound ⊢
    rcases there : alone.entry? place with _ | ⟨_ | old⟩
    · rw [there] at sound soundAlone
      exact ⟨rfl, alike.insert entries (by simp [there]) _ sound soundAlone⟩
    · exact ⟨rfl, alike⟩
    · rw [there] at sound soundAlone
      exact ⟨rfl, alike.insert entries (by simp [there]) _ sound soundAlone⟩

/-- A directory of mine is removed alike. -/
theorem prune (alike : Alike grounds kept shared alone)
    (gone : ∀ other, kept.entry? other = some .directory → ¬place <+: other) :
    Alike grounds kept (shared.prune place) (alone.prune place) where
  sound := alike.sound.prune place
  soundAlone := alike.soundAlone.prune place
  entries other := by
    by_cases start : other.isStart = true
    · exact Or.inr (Or.inl (by rw [entry?_of_isStart start, entry?_of_isStart start]))
    · by_cases inside : place <+: other
      · have free := Bool.eq_false_iff.mpr start
        rw [entry?_prune_inside free inside, entry?_prune_inside free inside]
        exact Or.inr (Or.inl rfl)
      · rw [entry?_prune_outside inside, entry?_prune_outside inside]
        exact alike.entries other
  names other mine := by rw [namesIn_prune, namesIn_prune, alike.names other mine]
  keeps other holds := by
    rw [entry?_prune_outside (gone other holds), entry?_prune_outside (gone other holds)]
    exact alike.keeps other holds

theorem removeDirectory (alike : Alike grounds kept shared alone) (reaches : kept.Reaches path)
    (clear : grounds.Clear (Place.ofPath path))
    (gone : ∀ other, kept.entry? other = some .directory → ¬Place.ofPath path <+: other) :
    (Work.removeDirectory path shared).1 = (Work.removeDirectory path alone).1 ∧
      Alike grounds kept (Work.removeDirectory path shared).2
        (Work.removeDirectory path alone).2 := by
  rw [removeDirectory_eq, removeDirectory_eq, alike.lookup_eq reaches clear]
  refine ⟨rfl, ?_⟩
  dsimp only
  split
  · exact alike.prune gone
  · exact alike

/-! Their work, which is not done alone. -/

theorem changed (alike : Alike grounds kept shared alone) (theirs : grounds.Theirs place)
    (changed : ChangedIn place shared after) (sound : after.Sound) :
    Alike grounds kept after alone where
  sound := sound
  soundAlone := alike.soundAlone
  entries other := by
    rcases changed.entries other with same | ⟨above, missing, made⟩ | inside
    · rw [same]
      exact alike.entries other
    · obtain ⟨i, theirs⟩ := theirs
      -- A directory made on the way to their place is theirs itself, or above their name.
      rcases List.prefix_or_prefix_of_prefix theirs above with inside | outside
      · exact Or.inl ⟨i, inside⟩
      · rcases List.prefix_concat_iff.mp outside with same | outside
        · exact Or.inl ⟨i, same ▸ List.prefix_rfl⟩
        · rcases alike.entries other with inside | same | ⟨-, there, -⟩
          · exact Or.inl inside
          · exact Or.inr (Or.inr ⟨⟨i, outside⟩, made, same.symm.trans missing⟩)
          · rw [missing] at there
            cases there
    · exact Or.inl (theirs.below inside)
  names other mine := by
    rw [changed.names other (fun above => (mine.below above).clear.notTheirs theirs)
      fun inside => mine.clear.notTheirs (theirs.below inside), alike.names other mine]
  keeps other holds := ⟨changed.keeps other (alike.keeps other holds).1, (alike.keeps other holds).2⟩

theorem pruned (alike : Alike grounds kept shared alone) (theirs : grounds.Theirs place)
    (gone : ∀ other, kept.entry? other = some .directory → ¬place <+: other) :
    Alike grounds kept (shared.prune place) alone where
  sound := alike.sound.prune place
  soundAlone := alike.soundAlone
  entries other := by
    by_cases inside : place <+: other
    · exact Or.inl (theirs.below inside)
    · rw [entry?_prune_outside inside]
      exact alike.entries other
  names other mine := by
    rw [namesIn_prune, ← alike.names other mine, List.filter_eq_self]
    intro name _
    have outside : ¬place <+: other ++ [name] := fun inside =>
      (mine.below (List.prefix_append other [name])).clear.notTheirs (theirs.below inside)
    rw [Bool.not_eq_true', ← Bool.not_eq_true, List.isPrefixOf_iff_prefix]
    exact outside
  keeps other holds := by
    rw [entry?_prune_outside (gone other holds)]
    exact alike.keeps other holds

theorem removed (alike : Alike grounds kept shared alone)
    (theirs : grounds.Theirs (Place.ofPath path))
    (gone : ∀ other, kept.entry? other = some .directory → ¬Place.ofPath path <+: other) :
    Alike grounds kept (Work.removeDirectory path shared).2 alone := by
  rw [removeDirectory_eq]
  dsimp only
  split
  · exact alike.pruned theirs gone
  · exact alike

end Alike

end Tree

end Newsreel.Files
