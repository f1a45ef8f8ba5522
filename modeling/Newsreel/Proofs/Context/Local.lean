import Newsreel.Proofs.Context.Format
import Newsreel.Proofs.Context.Locate

/-!
Reading and writing at the item at hand.

Paths with a reserved head see no more of the data than the item that `_loop` leads to. Two loops at
work on equal items, each item at a place of its own and in data of its own, read the same at such
paths, run into the same errors, and what they write through `_loop` does the same to both items.
-/

namespace Newsreel

/-- The path, if it is one, has one of the given heads. -/
def Path.HeadIn (heads : List String) (path : String) : Prop :=
  ∀ head rest, Path.split path = .ok (head :: rest) → head ∈ heads

theorem Path.headIn_of_split {heads rest : List String} {path head : String}
    (read : Path.split path = .ok (head :: rest)) (among : head ∈ heads) :
    Path.HeadIn heads path := by
  intro other more readOther
  rw [read] at readOther
  cases readOther
  exact among

/-- `_loop` leads to a place in the data, and `_key` and `_idx` are bound to a key and its index. -/
structure Scope.AtKey (scope : Scope) (place : List String) (key : String) (index : Nat) : Prop
    extends scope.AtPlace place where
  key : scope.key? = some key
  index : scope.index? = some index

namespace Context

/-- The context with another value at a place in its data. -/
def overwrite (context : Context) (place : List String) (value : Value) : Context :=
  { context with data := (Value.put (Path.join place) value place context.data).2 }

/-- Two contexts of one run hold the same item, each at a place of its own. -/
structure SameItem (context other : Context) (place otherPlace : List String) (item : Value) :
    Prop where
  config : context.config = other.config
  runId : context.runId = other.runId
  held : context.data.at? place = some item
  heldOther : other.data.at? otherPlace = some item

section Overwrite

variable {context : Context} {place : List String} {item : Value}

theorem overwrite_held (held : context.data.at? place = some item) :
    context.overwrite place item = context := by
  rw [overwrite, Value.put_of_at? held]

theorem overwrite_overwrite (context : Context) (place : List String) (first second : Value) :
    (context.overwrite place first).overwrite place second = context.overwrite place second := by
  simp only [overwrite, Value.put_put]

theorem at?_overwrite (held : context.data.at? place = some item) (new : Value) :
    (context.overwrite place new).data.at? place = some new := by
  refine Value.at?_put ?_
  rw [Value.put_outcome _ new item, Value.put_of_at? held]

/-- A write below a place is a write into what lies there. -/
theorem overwrite_append (held : context.data.at? place = some item) (back : List String)
    (new : Value) : context.overwrite (place ++ back) new =
      context.overwrite place (Value.put (Path.join back) new back item).2 := by
  simp only [overwrite]
  rw [Value.put_append held, (Value.put_path _ (Path.join back) new back item).2,
    (Value.put_path _ (Path.join place) _ place context.data).2]

/-- A write at an item of an array changes that item of it. -/
theorem overwrite_item {items : List Value} {index : Nat}
    (held : context.data.at? place = some (.array items)) (inside : index < items.length)
    (counted : index < Text.countLimit) (new : Value) :
    context.overwrite (place ++ [Text.natural index]) new =
      context.overwrite place (.array (items.set index new)) := by
  rw [overwrite_append held, Value.put_item (Text.count?_natural counted)
    (List.getElem?_eq_getElem inside), Value.put_nil]

theorem at?_item {items : List Value} {index : Nat}
    (held : context.data.at? place = some (.array items)) (counted : index < Text.countLimit) :
    context.data.at? (place ++ [Text.natural index]) = items[index]? := by
  rw [Value.at?_append, held, Option.bind_some, Value.at?_item (Text.count?_natural counted)]
  cases items[index]? <;> simp

theorem SameItem.overwrite {other : Context} {otherPlace : List String}
    (same : SameItem context other place otherPlace item) (new : Value) :
    SameItem (context.overwrite place new) (other.overwrite otherPlace new) place otherPlace new where
  config := same.config
  runId := same.runId
  held := at?_overwrite same.held new
  heldOther := at?_overwrite same.heldOther new

end Overwrite

section Alike

variable {context other : Context} {scope otherScope : Scope} {place otherPlace : List String}
  {item : Value} {key : String} {index : Nat}

/-- A path through `_loop` leads below both places in the same way, or nowhere in the same way. -/
theorem locate_loop_alike (here : scope.AtPlace place) (there : otherScope.AtPlace otherPlace)
    {path : String} (isLocal : Path.HeadIn ["_loop"] path) (context other : Context) :
    (∃ rest, context.locate path scope = .ok (.data (place ++ rest)) ∧
      other.locate path otherScope = .ok (.data (otherPlace ++ rest))) ∨
    ∃ error, context.locate path scope = .error error ∧
      other.locate path otherScope = .error error := by
  cases parts : Path.split path with
  | error error =>
    exact Or.inr ⟨error, locate_of_split_error parts _ _, locate_of_split_error parts _ _⟩
  | ok segments =>
    have settled := Path.split_settled parts
    obtain ⟨head, rest, rfl⟩ := List.exists_cons_of_ne_nil settled.ne_nil
    obtain rfl := List.mem_singleton.mp (isLocal head rest parts)
    have plain := settled.plain_tail
    refine Or.inl ⟨rest, ?_, ?_⟩
    · rw [locate_of_split parts]
      exact locateWithin_loop here context path plain 15
    · rw [locate_of_split parts]
      exact locateWithin_loop there other path plain 15

/-- A path with a reserved head leads below both places in the same way, or to the same end outside
the data. -/
theorem locate_alike (same : SameItem context other place otherPlace item)
    (here : scope.AtKey place key index) (there : otherScope.AtKey otherPlace key index)
    (keyLocal : Path.HeadIn ["_loop"] key) {path : String}
    (isLocal : Path.HeadIn reservedHeads path) :
    (∃ rest, context.locate path scope = .ok (.data (place ++ rest)) ∧
      other.locate path otherScope = .ok (.data (otherPlace ++ rest))) ∨
    (context.locate path scope = other.locate path otherScope ∧
      ∀ segments, other.locate path otherScope ≠ .ok (.data segments)) := by
  cases parts : Path.split path with
  | error error =>
    rw [locate_of_split_error parts, locate_of_split_error parts]
    exact Or.inr ⟨rfl, fun segments => by simp⟩
  | ok segments =>
    have settled := Path.split_settled parts
    obtain ⟨head, rest, rfl⟩ := List.exists_cons_of_ne_nil settled.ne_nil
    have plain := settled.plain_tail
    rw [locate_of_split parts, locate_of_split parts]
    have reserved := isLocal head rest parts
    simp only [reservedHeads, List.mem_cons, List.not_mem_nil, or_false] at reserved
    rcases reserved with rfl | rfl | rfl | rfl | rfl
    · cases rest with
      | nil => simp [locateWithin, expand, here.index, there.index]
      | cons next more => simp [locateWithin, expand]
    · cases target : Path.split key with
      | error error => simp [locateWithin, expand, here.key, there.key, replaceHead, target]
      | ok keySegments =>
        have keySettled := Path.split_settled target
        obtain ⟨keyHead, keyRest, rfl⟩ := List.exists_cons_of_ne_nil keySettled.ne_nil
        obtain rfl := List.mem_singleton.mp (keyLocal keyHead keyRest target)
        have through := keySettled.plain_tail.append plain
        refine Or.inl ⟨keyRest ++ rest, ?_, ?_⟩
        · simp only [locateWithin, expand, here.key, replaceHead, target]
          exact locateWithin_loop here.toAtPlace context path through 14
        · simp only [locateWithin, expand, there.key, replaceHead, target]
          exact locateWithin_loop there.toAtPlace other path through 14
    · exact Or.inl ⟨rest, locateWithin_loop here.toAtPlace context path plain 15,
        locateWithin_loop there.toAtPlace other path plain 15⟩
    · simp [locateWithin, expand, same.config]
    · simp [locateWithin, expand, same.runId]

/-- Reading at a path with a reserved head sees no more of the data than the item. -/
theorem get_alike (same : SameItem context other place otherPlace item)
    (here : scope.AtKey place key index) (there : otherScope.AtKey otherPlace key index)
    (keyLocal : Path.HeadIn ["_loop"] key) {path : String}
    (isLocal : Path.HeadIn reservedHeads path) :
    context.get path scope = other.get path otherScope := by
  rcases locate_alike same here there keyLocal isLocal with
    ⟨rest, located, locatedOther⟩ | ⟨located, elsewhere⟩
  · rw [get_data located, get_data locatedOther, Value.at?_append, Value.at?_append, same.held,
      same.heldOther]
  · rw [get, get, located]
    cases found : other.locate path otherScope with
    | error error => rfl
    | ok location =>
      cases location with
      | data segments => exact absurd found (elsewhere segments)
      | detached value rest => rfl
      | index n => rfl

/-- Writing at a path through `_loop` does the same to both items. -/
theorem insert_alike (same : SameItem context other place otherPlace item)
    (here : scope.AtPlace place) (there : otherScope.AtPlace otherPlace) {path : String}
    (isLocal : Path.HeadIn ["_loop"] path) (value : Value) :
    ∃ outcome changed, context.insert path value scope =
        (outcome, context.overwrite place changed) ∧
      other.insert path value otherScope = (outcome, other.overwrite otherPlace changed) := by
  rcases locate_loop_alike here there isLocal context other with
    ⟨rest, located, locatedOther⟩ | ⟨error, located, locatedOther⟩
  · refine ⟨(Value.put path value rest item).1, (Value.put path value rest item).2, ?_, ?_⟩
    · rw [insert_data located, Value.put_append same.held, overwrite,
        (Value.put_path path (Path.join place) _ place context.data).2]
    · rw [insert_data locatedOther, Value.put_append same.heldOther, overwrite,
        (Value.put_path path (Path.join otherPlace) _ otherPlace other.data).2]
  · refine ⟨.error error, item, ?_, ?_⟩
    · rw [insert, located, overwrite_held same.held]
    · rw [insert, locatedOther, overwrite_held same.heldOther]

end Alike

end Context

/-! Templates. -/

/-- The placeholders of a template; a text that is no template has none. -/
def Template.placeholders (template : String) : List Placeholder :=
  match Template.parse template with
  | .ok parts => parts.filterMap fun
    | .placeholder placeholder => some placeholder
    | .literal _ => none
  | .error _ => []

/-- Every placeholder in the value, if it is a template, has a reserved head. -/
def Value.LocalTemplate : Value → Prop
  | .string template =>
    ∀ placeholder ∈ Template.placeholders template, Path.HeadIn reservedHeads placeholder.path
  | _ => True

namespace Context

section Alike

variable {context other : Context} {scope otherScope : Scope} {place otherPlace : List String}
  {item : Value} {key : String} {index : Nat}

/-- What two readers that agree on the placeholders of a list of parts make of it. -/
theorem partsText_congr {parts : List Part} {apiKeyName : Option String}
    (agree : ∀ placeholder, Part.placeholder placeholder ∈ parts →
      context.resolve apiKeyName scope placeholder = other.resolve apiKeyName otherScope placeholder) :
    context.partsText apiKeyName scope parts = other.partsText apiKeyName otherScope parts := by
  induction parts with
  | nil => rfl
  | cons part rest ih =>
    have first : context.partText apiKeyName scope part =
        other.partText apiKeyName otherScope part := by
      cases part with
      | literal text => rfl
      | placeholder placeholder => rw [partText, partText, agree placeholder List.mem_cons_self]
    have later := ih fun placeholder member => agree placeholder (List.mem_cons_of_mem part member)
    rw [partsText, partsText, first, later]

theorem formatTemplate_congr {template : String} {apiKeyName : Option String}
    (agree : ∀ placeholder ∈ Template.placeholders template,
      context.resolve apiKeyName scope placeholder = other.resolve apiKeyName otherScope placeholder) :
    context.formatTemplate apiKeyName scope template =
      other.formatTemplate apiKeyName otherScope template := by
  rw [formatTemplate, formatTemplate]
  split
  · cases read : Template.parse template with
    | error error => simp only [bind, Except.bind]
    | ok parts =>
      have members (placeholder : Placeholder) (member : Part.placeholder placeholder ∈ parts) :
          placeholder ∈ Template.placeholders template := by
        rw [Template.placeholders, read]
        exact List.mem_filterMap.mpr ⟨_, member, rfl⟩
      have texts := partsText_congr fun placeholder member =>
        agree placeholder (members placeholder member)
      cases single : Template.single? parts with
      | none => simp only [bind, Except.bind, single, texts]
      | some placeholder =>
        have only := (Template.eq_of_single? single).1
        have agreed := agree placeholder (members placeholder (by simp [only]))
        simp only [bind, Except.bind, single, agreed]
  · rfl

/-- A template whose placeholders have reserved heads sees no more of the data than the item. -/
theorem format_alike (same : SameItem context other place otherPlace item)
    (here : scope.AtKey place key index) (there : otherScope.AtKey otherPlace key index)
    (keyLocal : Path.HeadIn ["_loop"] key) {template : Value} (isLocal : template.LocalTemplate) :
    context.format scope template = other.format otherScope template := by
  cases template with
  | string text =>
    refine formatTemplate_congr fun placeholder member => ?_
    rw [resolve, resolve, get_alike same here there keyLocal (isLocal placeholder member)]
  | _ => rfl

theorem formatText_alike (same : SameItem context other place otherPlace item)
    (here : scope.AtKey place key index) (there : otherScope.AtKey otherPlace key index)
    (keyLocal : Path.HeadIn ["_loop"] key) {template : Value} (isLocal : template.LocalTemplate) :
    context.formatText scope template = other.formatText otherScope template := by
  rw [formatText, formatText, format_alike same here there keyLocal isLocal]

end Alike

end Context

end Newsreel
