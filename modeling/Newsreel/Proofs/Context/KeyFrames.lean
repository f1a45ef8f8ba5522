import Newsreel.Proofs.Context.Aliases
import Newsreel.Proofs.Context.ReadWrite

/-!
Frames that a path does not see.

A search looks at a scope only where it comes to one of the heads `_idx`, `_key` and `_loop`, and each of
them asks for something else: the innermost frame, the innermost frame with a key and the innermost one
with a value. So a frame that binds only a key is not seen by a path that comes to neither `_idx` nor
`_key`, and what lies outside the frames that are asked for is not seen by any path.
-/

namespace Newsreel

namespace Scope

/-- A scope inside another one, behind some keys that have been bound in its frame. -/
def keyed (scope : Scope) (frame : Frame) (saves : List (Nat × String)) : Scope :=
  saves.foldl (fun inner save => inner.saveKey save.1 save.2) (scope.child frame)

/-- Keys are bound in the frame of the scope itself; it binds no value through them. -/
theorem frames_keyed (scope : Scope) {frame : Frame} (unbound : frame.value = none)
    (saves : List (Nat × String)) :
    ∃ own : Frame, own.value = none ∧ (scope.keyed frame saves).frames = own :: scope.frames := by
  suffices kept : ∀ inner : Scope, ∀ own : Frame, inner.own = some own → own.value = none →
      ∃ last : Frame, last.value = none ∧
        (saves.foldl (fun inner save => inner.saveKey save.1 save.2) inner).frames =
          last :: inner.outer from kept (scope.child frame) frame rfl unbound
  induction saves with
  | nil =>
    intro inner own held none
    exact ⟨own, none, by simp [frames, held]⟩
  | cons save saves ih =>
    intro inner own held none
    exact ih (inner.saveKey save.1 save.2) { own with index := save.1, key := some save.2 }
      (by simp [saveKey, held]) none

theorem valueFrame?_keyed (scope : Scope) {frame : Frame} (unbound : frame.value = none)
    (saves : List (Nat × String)) : (scope.keyed frame saves).valueFrame? = scope.valueFrame? := by
  obtain ⟨own, none, shape⟩ := scope.frames_keyed unbound saves
  simp [valueFrame?, shape, none]

variable {scope other : Scope} {near far apart : List Frame}

/-! What is asked for is found in the frames in front, whatever the others are. -/

theorem index?_of_near (here : scope.frames = near ++ far) (there : other.frames = near ++ apart)
    (found : near ≠ []) : scope.index? = other.index? := by
  obtain ⟨innermost, rest, rfl⟩ := List.exists_cons_of_ne_nil found
  simp [index?, here, there]

theorem key?_of_near (here : scope.frames = near ++ far) (there : other.frames = near ++ apart)
    (found : ∃ frame ∈ near, frame.key.isSome) : scope.key? = other.key? := by
  have bound : (near.findSome? (·.key)).isSome := by
    simpa [List.findSome?_isSome_iff] using found
  obtain ⟨key, first⟩ := Option.isSome_iff_exists.mp bound
  simp [key?, here, there, List.findSome?_append, first]

theorem valueFrame?_of_near (here : scope.frames = near ++ far)
    (there : other.frames = near ++ apart) (found : ∃ frame ∈ near, frame.value.isSome) :
    scope.valueFrame? = other.valueFrame? := by
  have bound : (near.find? (·.value.isSome)).isSome := by
    simpa [List.find?_isSome] using found
  obtain ⟨frame, first⟩ := Option.isSome_iff_exists.mp bound
  simp [valueFrame?, here, there, List.find?_append, first]

/-- The innermost frame with a key decides about `_key`. -/
theorem key?_of_innermost {nearer outside : List Frame} {frame : Frame} {key : String}
    (here : scope.frames = nearer ++ frame :: outside) (none : ∀ f ∈ nearer, f.key = none)
    (bound : frame.key = some key) : scope.key? = some key := by
  have before : nearer.findSome? (·.key) = .none := List.findSome?_eq_none_iff.mpr none
  simp [key?, here, List.findSome?_append, before, bound]

end Scope

namespace Context

/-- The search for a path comes to some segments, perhaps after aliases have been replaced. -/
inductive ComesTo (context : Context) (path : String) (scope : Scope) : List String → Prop where
  | start {segments : List String} (read : Path.split path = .ok segments) :
      ComesTo context path scope segments
  | next {segments next : List String} (before : ComesTo context path scope segments)
      (replaced : context.expand path scope segments = .replaced next) :
      ComesTo context path scope next

/-- The search for a path comes to segments with the given head. -/
def Meets (context : Context) (path : String) (scope : Scope) (head : String) : Prop :=
  ∃ rest, context.ComesTo path scope (head :: rest)

variable {context : Context} {path : String} {scope other : Scope}

/-- Only what a head asks for is looked at. -/
theorem expand_congr_scope {segments : List String}
    (index : segments.head? = some "_idx" → scope.index? = other.index?)
    (key : segments.head? = some "_key" → scope.key? = other.key?)
    (value : segments.head? = some "_loop" → scope.valueFrame? = other.valueFrame?) :
    context.expand path scope segments = context.expand path other segments := by
  unfold expand
  split
  · rfl
  · rw [index rfl]
  · rw [key rfl]
  · rw [value rfl]
  all_goals rfl

/-- Scopes that agree on what the search for a path asks for lead it to the same place. -/
theorem locate_congr_scope
    (index : context.Meets path scope "_idx" → scope.index? = other.index?)
    (key : context.Meets path scope "_key" → scope.key? = other.key?)
    (value : context.Meets path scope "_loop" → scope.valueFrame? = other.valueFrame?) :
    context.locate path scope = context.locate path other := by
  have meets {segments : List String} {head : String}
      (comes : context.ComesTo path scope segments) (first : segments.head? = some head) :
      context.Meets path scope head := by
    obtain ⟨rest, rfl⟩ := List.head?_eq_some_iff.mp first
    exact ⟨rest, comes⟩
  have within (steps : Nat) {segments : List String}
      (comes : context.ComesTo path scope segments) :
      context.locateWithin path scope steps segments =
        context.locateWithin path other steps segments := by
    induction steps generalizing segments with
    | zero => rfl
    | succ steps ih =>
      have same : context.expand path scope segments = context.expand path other segments :=
        expand_congr_scope (fun first => index (meets comes first))
          (fun first => key (meets comes first)) (fun first => value (meets comes first))
      rw [locateWithin, locateWithin, ← same]
      cases expanded : context.expand path scope segments with
      | found => rfl
      | failed => rfl
      | replaced next => exact ih (.next comes expanded)
  cases read : Path.split path with
  | error error => rw [locate_of_split_error read, locate_of_split_error read]
  | ok segments =>
    rw [locate_of_split read, locate_of_split read]
    exact within _ (.start read)

/-- A path is read and written alike in two scopes. -/
def AccessAlike (context : Context) (path : String) (scope other : Scope) : Prop :=
  context.get path scope = context.get path other ∧
    ∀ value, context.insert path value scope = context.insert path value other

theorem accessAlike_of_locate (same : context.locate path scope = context.locate path other) :
    context.AccessAlike path scope other := by
  constructor
  · rw [get, get, same]
  · intro value
    rw [insert, insert, same]

/-- Where the search comes to the end, it ends there. -/
theorem ComesTo.locate_eq {segments : List String} {count : Nat}
    {outcome : Except StepError Location} (comes : context.ComesTo path scope segments)
    (settles : context.Settles path scope count segments outcome) :
    context.locate path scope = outcome := by
  induction comes generalizing count with
  | start read => exact (Ends.settled read settles).locate_eq
  | next before replaced ih => exact ih (.replaced replaced settles)

theorem ComesTo.index {innermost : Frame} {outside : List Frame}
    (here : scope.frames = innermost :: outside) (comes : context.ComesTo path scope ["_idx"]) :
    context.locate path scope = .ok (.index innermost.index) := by
  have found : context.expand path scope ["_idx"] = .found (.index innermost.index) := by
    simp [expand, Scope.index?, here]
  exact comes.locate_eq (.found found)

theorem expand_key {key : String} (bound : scope.key? = some key) (rest : List String) :
    context.expand path scope ("_key" :: rest) = replaceHead key rest := by
  simp [expand, bound]

/-- A frame that binds no value is not seen by a path that comes to neither `_idx` nor `_key`, whatever
keys are bound in it. Of the frames of a scope a path sees no more than the first ones, up to those that
bind what it asks for; `_idx` is the index of the innermost frame, and `_key` is replaced by the key of
the innermost frame that has one. -/
theorem key_frames_transparent (context : Context) (path : String) :
    (∀ (scope : Scope) (frame : Frame) (saves : List (Nat × String)), frame.value = none →
      ¬context.Meets path (scope.keyed frame saves) "_idx" →
      ¬context.Meets path (scope.keyed frame saves) "_key" →
      context.AccessAlike path (scope.keyed frame saves) scope) ∧
    (∀ (scope other : Scope) (near far apart : List Frame),
      scope.frames = near ++ far → other.frames = near ++ apart →
      (context.Meets path scope "_idx" → near ≠ []) →
      (context.Meets path scope "_key" → ∃ frame ∈ near, frame.key.isSome) →
      (context.Meets path scope "_loop" → ∃ frame ∈ near, frame.value.isSome) →
      context.AccessAlike path scope other) ∧
    (∀ (scope : Scope) (innermost : Frame) (outside : List Frame),
      scope.frames = innermost :: outside → context.ComesTo path scope ["_idx"] →
      context.get path scope = .ok (.ofNat innermost.index) ∧
        ∀ value, context.insert path value scope = (.error (.invalidValue path .readOnly), context)) ∧
    ∀ (scope : Scope) (nearer outside : List Frame) (frame : Frame) (key : String)
      (rest : List String), scope.frames = nearer ++ frame :: outside →
      (∀ f ∈ nearer, f.key = none) → frame.key = some key →
      context.ComesTo path scope ("_key" :: rest) →
      (∀ segments, Path.split key = .ok segments →
        context.ComesTo path scope (segments ++ rest)) ∧
      ∀ error, Path.split key = .error error →
        context.get path scope = .error error ∧
          ∀ value, context.insert path value scope = (.error error, context) := by
  refine ⟨?_, ?_, ?_, ?_⟩
  · intro scope frame saves unbound noIndex noKey
    apply accessAlike_of_locate
    apply locate_congr_scope
    · exact fun meets => absurd meets noIndex
    · exact fun meets => absurd meets noKey
    · exact fun _ => scope.valueFrame?_keyed unbound saves
  · intro scope other near far apart here there index key value
    apply accessAlike_of_locate
    apply locate_congr_scope
    · exact fun meets => Scope.index?_of_near here there (index meets)
    · exact fun meets => Scope.key?_of_near here there (key meets)
    · exact fun meets => Scope.valueFrame?_of_near here there (value meets)
  · intro scope innermost outside here comes
    have located := comes.index here
    constructor
    · simp [get, located, read, bind, Except.bind]
    · intro value
      simp [insert, located]
  · intro scope nearer outside frame key rest here none bound comes
    have expanded : context.expand path scope ("_key" :: rest) = replaceHead key rest :=
      expand_key (Scope.key?_of_innermost here none bound) rest
    constructor
    · intro segments readable
      rw [replaceHead, readable] at expanded
      exact .next comes expanded
    · intro error fault
      rw [replaceHead, fault] at expanded
      have located := comes.locate_eq (.failed expanded)
      constructor
      · simp [get, located, bind, Except.bind]
      · intro value
        simp [insert, located]

/-- A frame for keys, as a transform opens it. -/
def replaceFrame : Frame := ⟨"replace", 0, none, none, none⟩

/-- The second key of a transform inside the loop over the days. -/
def secondKey : Scope := secondDay.keyed replaceFrame [(0, "days"), (1, "_loop.text")]

/-- Where the search for the text at hand goes, inside one more frame. -/
theorem comesTo_text {segments : List String}
    (comes : forecast.ComesTo "_loop.text" (secondKey.keyed replaceFrame [(4, "days")]) segments) :
    segments = ["_loop", "text"] ∨ segments = ["days", "1", "text"] := by
  induction comes with
  | start read => exact .inl (Except.ok.inj read).symm
  | next before replaced ih =>
    rcases ih with rfl | rfl
    · exact .inr (Expansion.replaced.inj replaced).symm
    · cases replaced

/-- The text of the second day is read through a frame for keys and one more inside it; the key
leads to it whatever loops lie around the one over the days; its index is that of the frame, and a
key that is no path is a fault. -/
theorem key_frames_transparent_forecast :
    forecast.AccessAlike "_loop.text" (secondKey.keyed replaceFrame [(4, "days")]) secondKey ∧
    (∀ around : Scope, around.frames = secondKey.frames ++ [replaceFrame] →
      forecast.AccessAlike "_key" secondKey around) ∧
    forecast.get "_idx" secondKey = .ok (.ofNat 1) ∧
    forecast.ComesTo "_key" secondKey ["_loop", "text"] ∧
    forecast.get "_key" (secondDay.keyed replaceFrame [(0, "a..b")]) =
      .error (.invalidValue "a..b" .emptySegment) := by
  refine ⟨?_, ?_, ?_, ?_, ?_⟩
  · refine (key_frames_transparent forecast "_loop.text").1 secondKey replaceFrame [(4, "days")] rfl
      ?_ ?_
    · rintro ⟨rest, comes⟩
      simpa using comesTo_text comes
    · rintro ⟨rest, comes⟩
      simpa using comesTo_text comes
  · intro around frames
    refine (key_frames_transparent forecast "_key").2.1 secondKey around secondKey.frames []
      [replaceFrame] (List.append_nil _).symm frames (fun _ => ?_) (fun _ => ?_) (fun _ => ?_)
    · exact List.cons_ne_nil _ _
    · exact ⟨_, List.mem_cons_self, rfl⟩
    · exact ⟨_, List.mem_cons_of_mem _ List.mem_cons_self, rfl⟩
  · exact ((key_frames_transparent forecast "_idx").2.2.1 secondKey _ _ rfl (.start rfl)).1
  · exact ((key_frames_transparent forecast "_key").2.2.2 secondKey [] _ _ _ [] rfl (by simp) rfl
      (.start rfl)).1 _ rfl
  · exact (((key_frames_transparent forecast "_key").2.2.2
      (secondDay.keyed replaceFrame [(0, "a..b")]) [] _ _ _ [] rfl (by simp) rfl
      (.start rfl)).2 _ rfl).1

end Context

end Newsreel
