import Newsreel.Proofs.Context.Loop
import Newsreel.Proofs.Template.Printing

/-!
Paths in braces.

The text of a path is read in three ways: a key as it stands, the array of a loop without the braces
around it, and a placeholder up to its first colon, behind which the decimal places stand. The three
agree on texts without a colon. A field whose name has a colon in it is read by a key and by a loop,
but a placeholder never comes to it.
-/

namespace Newsreel

theorem Outcome.toOption_eq_some_iff {ε α : Type} {outcome : Except ε α} {a : α} :
    outcome.toOption = some a ↔ outcome = .ok a := by
  cases outcome with
  | error error => constructor <;> nofun
  | ok b => simp [Except.toOption]

theorem Outcome.map_ok_iff {ε α β : Type} {outcome : Except ε α} {f : α → β} {b : β} :
    outcome.map f = .ok b ↔ ∃ a, outcome = .ok a ∧ f a = b := by
  cases outcome with
  | error error => simp [Except.map]
  | ok a => simp [Except.map]

namespace Template

/-- A text between braces. -/
def inBraces (text : String) : String := "\x7b" ++ text ++ "\x7d"

variable {text : String}

theorem toList_inBraces (text : String) :
    (inBraces text).toList = '\x7b' :: (text.toList ++ ['\x7d']) := by
  simp [inBraces]

theorem stripBraces_inBraces (noBrace : ∀ c ∈ text.toList, c ≠ '\x7b' ∧ c ≠ '\x7d') :
    stripBraces (inBraces text) = text := by
  have none : (text.toList.reverse.any fun c => c = '\x7b' || c = '\x7d') = false := by
    simpa using fun c member => noBrace c member
  rw [stripBraces, toList_inBraces]
  simp only [List.reverse_append, List.reverse_singleton, List.singleton_append, none,
    Bool.false_eq_true, if_false, List.reverse_reverse, String.ofList_toList]

/-- A text without braces makes one placeholder, or none can be read from it. -/
theorem parse_inBraces (noBrace : ∀ c ∈ text.toList, c ≠ '\x7b' ∧ c ≠ '\x7d') :
    parse (inBraces text) = match Placeholder.read text.toList with
      | .ok p => .ok [.placeholder p]
      | .error fault => .error (.invalidValue (inBraces text) fault) := by
  have single : ∀ more, text.toList ++ ['\x7d'] = '\x7b' :: more → False := by
    intro more opening
    cases chars : text.toList with
    | nil =>
      rw [chars] at opening
      cases opening
    | cons c rest =>
      rw [chars] at opening
      cases opening
      exact (noBrace '\x7b' (chars ▸ List.mem_cons_self)).1 rfl
  have scanned : scan [] none (inBraces text).toList = (do
      let p ← Placeholder.read text.toList
      return [.placeholder p]) := by
    rw [toList_inBraces, scan_begins [] single, scan_inner [] [] noBrace, scan, List.append_nil,
      List.reverse_reverse]
    rfl
  rw [parse, scanned]
  cases Placeholder.read text.toList <;> rfl

end Template

namespace Placeholder

/-- Without a colon the whole text is the path. -/
theorem read_of_noColon {cs : List Char} (noColon : ':' ∉ cs) :
    read cs = if Text.trim (String.ofList cs) = "" then .error .emptyPlaceholder
      else .ok ⟨Text.trim (String.ofList cs), none⟩ := by
  rw [read, Text.splitAtChar?_of_not_mem noColon]
  rfl

/-- The path ends at the first colon. -/
theorem read_of_colon {front : List Char} (noColon : ':' ∉ front) (back : List Char) :
    read (front ++ ':' :: back) =
      if Text.trim (String.ofList front) = "" then .error .emptyPlaceholder
      else (readPrecision (Text.trim (String.ofList back))).map
        fun precision => ⟨Text.trim (String.ofList front), precision⟩ := by
  rw [read, Text.splitAtChar?_append noColon]

end Placeholder

theorem Path.split_trim_ok_iff {path : String} {segments : List String} :
    Path.split (Text.trim path) = .ok segments ↔ Path.split path = .ok segments := by
  have again : Text.trimChars (Text.trim path).toList = Text.trimChars path.toList := by
    rw [Text.trim, String.toList_ofList, Text.trimChars_of_trimmed (Text.trimmed_trimChars _)]
  rw [Path.split, Path.split, again]
  split
  · simp only [reduceCtorEq]
  · exact Iff.rfl

theorem Path.split_of_blank {path : String} (blank : Text.trim path = "") :
    Path.split path = .error (.invalidValue path .emptySegment) := by
  have none : Text.trimChars path.toList = [] := by
    rw [← String.toList_ofList (l := Text.trimChars path.toList)]
    exact String.toList_eq_nil_iff.mpr blank
  rw [Path.split, none]
  rfl

namespace Context

variable {context : Context} {path other : String} {scope : Scope}

/-! The text of a path is named in faults and has no other say than by its segments. -/

theorem expand_named (context : Context) (path other : String) (scope : Scope)
    (segments : List String) :
    context.expand path scope segments = context.expand other scope segments ∨
      (∃ error, context.expand path scope segments = .failed error) ∧
        ∃ error, context.expand other scope segments = .failed error := by
  unfold expand
  split
  · exact Or.inl rfl
  · split
    · exact Or.inl rfl
    · exact Or.inr ⟨⟨_, rfl⟩, _, rfl⟩
  · split
    · exact Or.inl rfl
    · exact Or.inr ⟨⟨_, rfl⟩, _, rfl⟩
  · split
    · exact Or.inr ⟨⟨_, rfl⟩, _, rfl⟩
    · split
      · exact Or.inl rfl
      · exact Or.inl rfl
      · exact Or.inr ⟨⟨_, rfl⟩, _, rfl⟩
  · exact Or.inl rfl
  · exact Or.inl rfl
  · exact Or.inl rfl

theorem locateWithin_named (context : Context) (path other : String) (scope : Scope) (steps : Nat)
    (segments : List String) :
    (context.locateWithin path scope steps segments).toOption =
      (context.locateWithin other scope steps segments).toOption := by
  induction steps generalizing segments with
  | zero => rfl
  | succ steps ih =>
    rw [locateWithin, locateWithin]
    rcases context.expand_named path other scope segments with
      same | ⟨⟨first, failed⟩, second, failedOther⟩
    · rw [same]
      split
      · rfl
      · rfl
      · exact ih _
    · rw [failed, failedOther]
      rfl

theorem read_named (context : Context) (path other : String) (location : Location) :
    (context.read path location).toOption = (context.read other location).toOption := by
  cases location with
  | data segments =>
    rw [read, read]
    split <;> rfl
  | detached value rest =>
    rw [read, read]
    split <;> rfl
  | index n => rfl

theorem toOption_get (context : Context) (path : String) (scope : Scope) :
    (context.get path scope).toOption = (context.locate path scope).toOption.bind
      fun location => (context.read path location).toOption := by
  rw [get]
  cases context.locate path scope <;> rfl

/-- White space around a path makes no difference to what is read. -/
theorem toOption_get_trim (context : Context) (path : String) (scope : Scope) :
    (context.get (Text.trim path) scope).toOption = (context.get path scope).toOption := by
  have located : (context.locate (Text.trim path) scope).toOption =
      (context.locate path scope).toOption := by
    cases read : Path.split path with
    | error error =>
      cases trimmed : Path.split (Text.trim path) with
      | error other =>
        rw [locate_of_split_error read, locate_of_split_error trimmed]
        rfl
      | ok segments =>
        rw [Path.split_trim_ok_iff, read] at trimmed
        cases trimmed
    | ok segments =>
      rw [locate_of_split read, locate_of_split (Path.split_trim_ok_iff.mpr read)]
      exact context.locateWithin_named _ _ scope _ segments
  have reads : (fun location => (context.read (Text.trim path) location).toOption) =
      fun location => (context.read path location).toOption :=
    funext fun location => context.read_named _ _ location
  rw [toOption_get, toOption_get, located, reads]

theorem get_trim_ok_iff {value : Value} :
    context.get (Text.trim path) scope = .ok value ↔ context.get path scope = .ok value := by
  rw [← Outcome.toOption_eq_some_iff, toOption_get_trim, Outcome.toOption_eq_some_iff]

theorem get_of_blank (blank : Text.trim path = "") (value : Value) :
    context.get path scope ≠ .ok value := by
  rw [get, locate_of_split_error (Path.split_of_blank blank)]
  intro found
  cases found

/-! What a path in braces stands for. -/

theorem partsText_single (apiKeyName : Option String) (part : Part) :
    context.partsText apiKeyName scope [part] = context.partText apiKeyName scope part := by
  rw [partsText, partsText]
  cases context.partText apiKeyName scope part with
  | error error => rfl
  | ok text => exact congrArg Except.ok String.append_empty

theorem hasBrace_inBraces (path : String) :
    ((Template.inBraces path).toList.any fun c => c = '\x7b' || c = '\x7d') = true := by
  rw [Template.toList_inBraces]
  rfl

theorem format_inBraces_of_error (noBrace : ∀ c ∈ path.toList, c ≠ '\x7b' ∧ c ≠ '\x7d')
    {fault : ValueFault} (unread : Placeholder.read path.toList = .error fault) :
    context.format scope (.string (Template.inBraces path)) =
      .error (.invalidValue (Template.inBraces path) fault) := by
  have parsed := Template.parse_inBraces noBrace
  rw [unread] at parsed
  rw [format, formatWithKey, formatTemplate, if_pos (hasBrace_inBraces path), parsed]
  rfl

/-- A placeholder alone stands for the value itself, or with decimal places for its text. -/
theorem format_inBraces_of_ok (noBrace : ∀ c ∈ path.toList, c ≠ '\x7b' ∧ c ≠ '\x7d')
    {p : Placeholder} (read : Placeholder.read path.toList = .ok p) :
    context.format scope (.string (Template.inBraces path)) = match p.precision with
      | none => context.resolve none scope p
      | some _ => (context.partText none scope (.placeholder p)).map .string := by
  have parsed := Template.parse_inBraces noBrace
  rw [read] at parsed
  rw [format, formatWithKey, formatTemplate, if_pos (hasBrace_inBraces path), parsed]
  cases counted : p.precision with
  | none => simp only [bind, Except.bind, Template.single?, counted, Option.isNone_none, if_true]
  | some places =>
    simp only [bind, Except.bind, Template.single?, counted, Option.isNone_some,
      Bool.false_eq_true, if_false, partsText_single]
    cases context.partText none scope (.placeholder p) <;> rfl

/-- What a placeholder makes of the value at its path: the value itself, or a text if the
placeholder asks for decimal places. -/
def Shows (p : Placeholder) (found value : Value) : Prop := match p.precision with
  | none => value = found
  | some _ => ∃ text, p.render found = .ok text ∧ value = .string text

theorem resolve_trim_ok_iff (notKey : Text.trim path ≠ apiKeyPath) (apiKeyName : Option String)
    (precision : Option Nat) {value : Value} :
    context.resolve apiKeyName scope ⟨Text.trim path, precision⟩ = .ok value ↔
      context.get path scope = .ok value := by
  unfold resolve
  rw [if_neg notKey, get_trim_ok_iff]

theorem format_inBraces_ok_iff (noBrace : ∀ c ∈ path.toList, c ≠ '\x7b' ∧ c ≠ '\x7d')
    {front spec : String} (reads : Placeholder.read path.toList =
      if Text.trim front = "" then .error .emptyPlaceholder
      else (Placeholder.readPrecision spec).map fun precision => ⟨Text.trim front, precision⟩)
    (notKey : Text.trim front ≠ apiKeyPath) {value : Value} :
    context.format scope (.string (Template.inBraces path)) = .ok value ↔
      ∃ precision found, Placeholder.readPrecision spec = .ok precision ∧
        context.get front scope = .ok found ∧ Shows ⟨Text.trim front, precision⟩ found value := by
  by_cases blank : Text.trim front = ""
  -- The placeholder refuses a blank path, and a key finds nothing there.
  · rw [if_pos blank] at reads
    rw [format_inBraces_of_error noBrace reads]
    refine iff_of_false nofun ?_
    rintro ⟨_, found, -, there, -⟩
    exact get_of_blank blank found there
  · rw [if_neg blank] at reads
    cases counted : Placeholder.readPrecision spec with
    | error fault =>
      rw [counted] at reads
      rw [format_inBraces_of_error noBrace reads]
      exact iff_of_false nofun (by rintro ⟨_, _, ⟨⟩, -⟩)
    | ok precision =>
      rw [counted] at reads
      rw [format_inBraces_of_ok noBrace reads]
      have resolved {found : Value} :
          context.resolve none scope ⟨Text.trim front, precision⟩ = .ok found ↔
            context.get front scope = .ok found := resolve_trim_ok_iff notKey none precision
      cases precision with
      | none =>
        dsimp only
        rw [resolved]
        constructor
        · exact fun there => ⟨none, value, rfl, there, rfl⟩
        · rintro ⟨_, found, ⟨⟩, there, rfl⟩
          exact there
      | some places =>
        dsimp only
        rw [Outcome.map_ok_iff, partText]
        simp only [Outcome.bind_ok_iff, resolved]
        constructor
        · rintro ⟨text, ⟨found, there, rendered⟩, shown⟩
          exact ⟨some places, found, rfl, there, text, rendered, shown.symm⟩
        · rintro ⟨_, found, ⟨⟩, there, text, rendered, shown⟩
          exact ⟨text, ⟨found, there, rendered⟩, shown.symm⟩

/-! What a loop over a path in braces goes through. -/

/-- The iterations go through the items in order, and each one binds its item. -/
structure Iterates (iterations : List Iteration) (items : List Value) : Prop where
  elements : iterations.map (·.item) = items
  indices : iterations.map (·.index) = List.range items.length
  bound : ∀ iteration ∈ iterations, iteration.scope.index? = some iteration.index ∧
    iteration.scope.valueFrame?.bind (·.value) = some iteration.item

theorem map_item_iterationsFrom (loopId : String) (base : Option String) (scope : Scope)
    (start : Nat) (items : List Value) :
    (iterationsFrom loopId base scope start items).map (·.item) = items := by
  induction items generalizing start with
  | nil => rfl
  | cons item rest ih => rw [iterationsFrom, List.map_cons, ih]

theorem map_index_iterationsFrom (loopId : String) (base : Option String) (scope : Scope)
    (start : Nat) (items : List Value) :
    (iterationsFrom loopId base scope start items).map (·.index) =
      List.range' start items.length := by
  induction items generalizing start with
  | nil => rfl
  | cons item rest ih => rw [iterationsFrom, List.map_cons, ih, List.length_cons, List.range'_succ]

theorem index?_of_mem_iterationsFrom {loopId : String} {base : Option String} {start : Nat}
    {items : List Value} {iteration : Iteration}
    (member : iteration ∈ iterationsFrom loopId base scope start items) :
    iteration.scope.index? = some iteration.index := by
  induction items generalizing start with
  | nil => cases member
  | cons item rest ih =>
    rw [iterationsFrom, List.mem_cons] at member
    rcases member with rfl | later
    · rfl
    · exact ih later

theorem iterates_iterationsFrom (loopId : String) (base : Option String) (scope : Scope)
    (items : List Value) : Iterates (iterationsFrom loopId base scope 0 items) items where
  elements := map_item_iterationsFrom loopId base scope 0 items
  indices := by rw [map_index_iterationsFrom, List.range_eq_range']
  bound iteration member := by
    obtain ⟨frame, found, held, -⟩ := valueFrame?_of_mem_iterationsFrom member
    exact ⟨index?_of_mem_iterationsFrom member, by rw [found, Option.bind_some, held]⟩

/-- A loop goes through the items of an array that has been found, and where none has been found it
does not begin. -/
structure LoopsOver (context : Context) (scope : Scope) (array : Value)
    (found : Except StepError Value) : Prop where
  begins : ∀ loopId, (∃ iterations, context.iterations array loopId scope = .ok iterations) ↔
    ∃ items, found = .ok (.array items)
  goes : ∀ loopId iterations items, context.iterations array loopId scope = .ok iterations →
    found = .ok (.array items) → Iterates iterations items

theorem arrayItems_ok {spec : String} {value : Value} {base : Option String}
    (success : context.arrayItems (.string spec) scope = .ok (value, base)) :
    context.get (Template.stripBraces spec) scope = .ok value := by
  simp only [arrayItems] at success
  obtain ⟨location, -, success⟩ := Outcome.bind_ok_iff.mp success
  obtain ⟨read, got, success⟩ := Outcome.bind_ok_iff.mp success
  cases success
  exact got

theorem arrayItems_of_get {spec : String} {value : Value}
    (got : context.get (Template.stripBraces spec) scope = .ok value) :
    ∃ base, context.arrayItems (.string spec) scope = .ok (value, base) := by
  obtain ⟨location, located, -⟩ := Outcome.bind_ok_iff.mp got
  simp only [arrayItems, located, got]
  exact ⟨_, rfl⟩

/-- A loop over a text reads its array where a key without the braces does. -/
theorem loopsOver_get (context : Context) (scope : Scope) (spec : String) :
    LoopsOver context scope (.string spec) (context.get (Template.stripBraces spec) scope) where
  begins loopId := by
    constructor
    · rintro ⟨iterations, begun⟩
      obtain ⟨items, base, given, -⟩ := iterations_ok begun
      exact ⟨items, arrayItems_ok given⟩
    · rintro ⟨items, got⟩
      obtain ⟨base, given⟩ := arrayItems_of_get got
      refine ⟨iterationsFrom loopId base scope 0 items, ?_⟩
      rw [iterations, given]
      rfl
  goes loopId iterations items begun got := by
    obtain ⟨gone, base, given, rfl⟩ := iterations_ok begun
    rw [arrayItems_ok given] at got
    cases got
    exact iterates_iterationsFrom loopId base scope items

theorem LoopsOver.congr {array : Value} {found other : Except StepError Value}
    (loops : LoopsOver context scope array found)
    (same : ∀ items, other = .ok (.array items) ↔ found = .ok (.array items)) :
    LoopsOver context scope array other where
  begins loopId := by simp only [loops.begins, same]
  goes loopId iterations items begun read :=
    loops.goes loopId iterations items begun ((same items).mp read)

theorem get_insert {value : Value} (success : (context.insert path value scope).1 = .ok ()) :
    (context.insert path value scope).2.get path scope = .ok value := by
  by_cases inData : ∃ segments, context.locate path scope = .ok (.data segments)
  · obtain ⟨segments, located⟩ := inData
    rw [insert_data located] at success ⊢
    have stays (data : Value) :
        ({ context with data } : Context).locate path scope = .ok (.data segments) :=
      (locate_congr rfl rfl path scope).trans located
    rw [get_data (stays _), Value.at?_put success]
  · obtain ⟨error, refused⟩ := insert_elsewhere (not_exists.mp inData) value
    rw [refused] at success
    cases success

/-- A path in braces without a colon is read by a template as by a key, and so is what has been
written there. A loop goes through what a key reads, colon or not; a template takes what stands
before the first colon for the path, and what stands behind it for the decimal places. -/
theorem braces_read_path (context : Context) (scope : Scope) {path : String}
    (noBrace : ∀ c ∈ path.toList, c ≠ '\x7b' ∧ c ≠ '\x7d') :
    (':' ∉ path.toList → Text.trim path ≠ apiKeyPath →
      (∀ value, context.format scope (.string (Template.inBraces path)) = .ok value ↔
        context.get path scope = .ok value) ∧
      LoopsOver context scope (.string (Template.inBraces path))
        (context.format scope (.string (Template.inBraces path))) ∧
      ∀ value, (context.insert path value scope).1 = .ok () →
        (context.insert path value scope).2.format scope (.string (Template.inBraces path)) =
          .ok value) ∧
    LoopsOver context scope (.string (Template.inBraces path)) (context.get path scope) ∧
    (∀ front back, path = front ++ ":" ++ back → ':' ∉ front.toList →
      Text.trim front ≠ apiKeyPath → ∀ value,
        context.format scope (.string (Template.inBraces path)) = .ok value ↔
          ∃ precision found, Placeholder.readPrecision (Text.trim back) = .ok precision ∧
            context.get front scope = .ok found ∧
            Shows ⟨Text.trim front, precision⟩ found value) := by
  have withoutColon (noColon : ':' ∉ path.toList) (notKey : Text.trim path ≠ apiKeyPath)
      (live : Context) (value : Value) :
      live.format scope (.string (Template.inBraces path)) = .ok value ↔
        live.get path scope = .ok value := by
    have reads : Placeholder.read path.toList =
        if Text.trim path = "" then .error .emptyPlaceholder
        else (Placeholder.readPrecision "").map fun precision => ⟨Text.trim path, precision⟩ := by
      rw [Placeholder.read_of_noColon noColon, String.ofList_toList]
      rfl
    rw [format_inBraces_ok_iff noBrace reads notKey]
    constructor
    · rintro ⟨_, found, ⟨⟩, there, rfl⟩
      exact there
    · exact fun there => ⟨none, value, rfl, there, rfl⟩
  have loops : LoopsOver context scope (.string (Template.inBraces path))
      (context.get path scope) := by
    have around := context.loopsOver_get scope (Template.inBraces path)
    rwa [Template.stripBraces_inBraces noBrace] at around
  refine ⟨fun noColon notKey => ⟨withoutColon noColon notKey context, ?_, ?_⟩, loops, ?_⟩
  · exact loops.congr fun items => withoutColon noColon notKey context (.array items)
  · intro value written
    exact (withoutColon noColon notKey _ value).mpr (get_insert written)
  · rintro front back rfl noColon notKey value
    have reads := Placeholder.read_of_colon noColon back.toList
    rw [String.ofList_toList, String.ofList_toList] at reads
    refine format_inBraces_ok_iff noBrace ?_ notKey
    simpa using reads

/-- The wind of a day, and that of its noon in a field with a colon in its name. -/
def windyNoon : Context where
  data := .object [("wind", .array [.string "west", .string "calm"]),
    ("wind:noon", .array [.string "north"])]
  config := JobConfig.named "news"
  runId := "11111111-2222-4333-8444-555555555555"

theorem braces_read_path_windyNoon :
    (∀ c ∈ " wind ".toList, c ≠ '\x7b' ∧ c ≠ '\x7d') ∧ ':' ∉ " wind ".toList ∧
      Text.trim " wind " ≠ apiKeyPath ∧
      windyNoon.format Scope.root (.string (Template.inBraces " wind ")) =
        .ok (.array [.string "west", .string "calm"]) ∧
      (∃ iterations, windyNoon.iterations (.string (Template.inBraces " wind ")) "loop" Scope.root =
          .ok iterations ∧ Iterates iterations [.string "west", .string "calm"]) ∧
      (windyNoon.insert " wind " (.string "gale") Scope.root).2.format Scope.root
        (.string (Template.inBraces " wind ")) = .ok (.string "gale") := by
  have noBrace : ∀ c ∈ " wind ".toList, c ≠ '\x7b' ∧ c ≠ '\x7d' := by simp
  have noColon : ':' ∉ " wind ".toList := by decide
  have notKey : Text.trim " wind " ≠ apiKeyPath := by decide
  obtain ⟨plain, -, -⟩ := braces_read_path windyNoon Scope.root noBrace
  obtain ⟨reads, loops, writes⟩ := plain noColon notKey
  have found := (reads (.array [.string "west", .string "calm"])).mpr rfl
  obtain ⟨iterations, begun⟩ := (loops.begins "loop").mpr ⟨_, found⟩
  exact ⟨noBrace, noColon, notKey, found, ⟨iterations, begun, loops.goes _ _ _ begun found⟩,
    writes _ rfl⟩

/-- The wind of noon is there for a key and for a loop, but no template comes to it: what stands
behind the colon is no count of decimal places. -/
theorem colon_hides_field :
    (∀ c ∈ "wind:noon".toList, c ≠ '\x7b' ∧ c ≠ '\x7d') ∧ Text.trim "wind:noon" ≠ apiKeyPath ∧
      windyNoon.get "wind:noon" Scope.root = .ok (.array [.string "north"]) ∧
      (∃ iterations, windyNoon.iterations (.string (Template.inBraces "wind:noon")) "loop"
        Scope.root = .ok iterations) ∧
      windyNoon.format Scope.root (.string (Template.inBraces "wind:noon")) =
        .error (.invalidValue (Template.inBraces "wind:noon") (.unsupportedFormat "noon")) ∧
      ¬∀ value, windyNoon.format Scope.root (.string (Template.inBraces "wind:noon")) = .ok value ↔
        windyNoon.get "wind:noon" Scope.root = .ok value := by
  have found : windyNoon.get "wind:noon" Scope.root = .ok (.array [.string "north"]) := rfl
  have failed : windyNoon.format Scope.root (.string (Template.inBraces "wind:noon")) =
      .error (.invalidValue (Template.inBraces "wind:noon") (.unsupportedFormat "noon")) := rfl
  refine ⟨by simp, by decide, found, ⟨_, rfl⟩, failed, fun alike => ?_⟩
  have read := (alike (.array [.string "north"])).mpr found
  rw [failed] at read
  cases read

end Context

end Newsreel
