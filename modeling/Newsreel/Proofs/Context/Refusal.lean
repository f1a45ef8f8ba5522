import Newsreel.Proofs.Context.ReadWrite

/-!
Writes that are refused.

A write walks down from the data before it is known whether its path can be walked to the end, and on
its way it makes what is missing: a field that is not there becomes an empty object, and so does null.
What blocks a walk is always something that was there before, so nothing can be refused behind the
first thing that was made, and a write that is refused has made nothing.
-/

namespace Newsreel

namespace Value

/-- Neither a container nor null, which becomes one. -/
def isScalar : Value → Bool
  | .bool _ | .number _ | .string _ => true
  | .null | .array _ | .object _ => false

/-- A walk through a value comes to an array that has no such item, or to a scalar, and has gone
through what was there until then. There is no rule for null and none for a missing field. -/
inductive Blocks (path : String) : List String → Value → StepError → Prop where
  | inField {segment : String} {rest : List String} {fields : Fields} {child : Value}
      {error : StepError} (found : Fields.find? segment fields = some child)
      (below : Blocks path rest child error) : Blocks path (segment :: rest) (.object fields) error
  | inItem {segment : String} {rest : List String} {items : List Value} {i : Nat} {item : Value}
      {error : StepError} (index : Text.count? segment = some i) (present : items[i]? = some item)
      (below : Blocks path rest item error) : Blocks path (segment :: rest) (.array items) error
  | notAnIndex {segment : String} {rest : List String} {items : List Value}
      (name : Text.count? segment = none) :
      Blocks path (segment :: rest) (.array items) (.invalidValue path .notAnIndex)
  | outOfRange {segment : String} {rest : List String} {items : List Value} {i : Nat}
      (index : Text.count? segment = some i) (missing : items[i]? = none)
      (notAdded : ¬(rest = [] ∧ i = items.length)) :
      Blocks path (segment :: rest) (.array items) (.unresolved path)
  | scalarAtTheEnd {segment : String} {value : Value} (scalar : value.isScalar = true) :
      Blocks path [segment] value (.invalidValue path (.scalarAtTheEnd segment))
  | scalarOnTheWay {segment next : String} {rest : List String} {value : Value}
      (scalar : value.isScalar = true) :
      Blocks path (segment :: next :: rest) value (.invalidValue path (.scalarOnTheWay segment))

/-- A walk comes to null, or to an object without the field that it goes on with. -/
def Creates (segments : List String) (value : Value) : Prop :=
  ∃ front name rest inner, segments = front ++ name :: rest ∧ at? front value = some inner ∧
    (inner = .null ∨ ∃ fields, inner = .object fields ∧ Fields.find? name fields = none)

variable {path : String} {new value : Value} {segments : List String} {error : StepError}

theorem put_scalar (scalar : value.isScalar = true) (segment : String) (rest : List String) :
    put path new (segment :: rest) value = (.error (.invalidValue path
      (if rest = [] then .scalarAtTheEnd segment else .scalarOnTheWay segment)), value) := by
  cases value with
  | bool b => rfl
  | number n => rfl
  | string s => rfl
  | null => cases scalar
  | array items => cases scalar
  | object fields => cases scalar

theorem put_error_of_blocks (blocks : Blocks path segments value error) :
    (put path new segments value).1 = .error error := by
  induction blocks with
  | inField found below ih => rw [put_object, found, Option.getD_some, ih]
  | inItem index present below ih => rw [put_item index present, ih]
  | notAnIndex name => simp only [put, opened, name]
  | outOfRange index missing notAdded => simp only [put, opened, index, missing, if_neg notAdded]
  | scalarAtTheEnd scalar => rw [put_scalar scalar, if_pos rfl]
  | scalarOnTheWay scalar => rw [put_scalar scalar, if_neg (List.cons_ne_nil _ _)]

theorem blocks_of_scalar (scalar : value.isScalar = true) (segment : String) (rest : List String) :
    Blocks path (segment :: rest) value (.invalidValue path
      (if rest = [] then .scalarAtTheEnd segment else .scalarOnTheWay segment)) := by
  cases rest with
  | nil => exact .scalarAtTheEnd scalar
  | cons next rest => exact .scalarOnTheWay scalar

theorem blocks_of_put_error (failure : (put path new segments value).1 = .error error) :
    Blocks path segments value error := by
  induction segments generalizing value with
  | nil => simp at failure
  | cons segment rest ih =>
    -- Only what lies in the way can fail, so every case but those of containers ends at once.
    have atScalar (scalar : value.isScalar = true) : Blocks path (segment :: rest) value error := by
      rw [put_scalar scalar, Except.error.injEq] at failure
      exact failure ▸ blocks_of_scalar scalar segment rest
    cases value with
    | null =>
      rw [put_null, put_empty_object] at failure
      cases failure
    | object fields =>
      rw [put_object] at failure
      cases found : Fields.find? segment fields with
      | none =>
        rw [found, Option.getD_none, put_empty_object] at failure
        cases failure
      | some child =>
        rw [found, Option.getD_some] at failure
        exact .inField found (ih failure)
    | array items =>
      cases index : Text.count? segment with
      | none =>
        simp only [put, opened, index, Except.error.injEq] at failure
        exact failure ▸ .notAnIndex index
      | some i =>
        cases present : items[i]? with
        | some item =>
          rw [put_item index present] at failure
          exact .inItem index present (ih failure)
        | none =>
          by_cases added : rest = [] ∧ i = items.length
          · simp only [put, opened, index, present, if_pos added] at failure
            cases failure
          · simp only [put, opened, index, present, if_neg added, Except.error.injEq] at failure
            exact failure ▸ .outOfRange index present added
    | bool b => exact atScalar rfl
    | number n => exact atScalar rfl
    | string s => exact atScalar rfl

/-- A write fails exactly where its walk is blocked. -/
theorem put_error_iff : (put path new segments value).1 = .error error ↔
    Blocks path segments value error :=
  ⟨blocks_of_put_error, put_error_of_blocks⟩

/-- Once something has been made, the write goes through. -/
theorem put_creates (creates : Creates segments value) :
    (put path new segments value).1 = .ok () := by
  obtain ⟨front, name, rest, inner, rfl, there, made⟩ := creates
  rw [put_append there]
  rcases made with rfl | ⟨fields, rfl, missing⟩
  · rw [put_null, put_empty_object]
  · rw [put_object, missing, Option.getD_none, put_empty_object]

end Value

namespace Context

/-- A write at a path is refused: the path leads nowhere, or to something that can only be read, or the
walk through the data is blocked. -/
inductive Refuses (context : Context) (path : String) (scope : Scope) : StepError → Prop where
  | nowhere {error : StepError} (failed : context.locate path scope = .error error) :
      Refuses context path scope error
  | readOnly {location : Location} (located : context.locate path scope = .ok location)
      (outside : ∀ segments, location ≠ .data segments) :
      Refuses context path scope (.invalidValue path .readOnly)
  | blocked {segments : List String} {error : StepError}
      (located : context.locate path scope = .ok (.data segments))
      (blocks : Value.Blocks path segments context.data error) : Refuses context path scope error

variable {context : Context} {path : String} {value : Value} {scope : Scope} {error : StepError}

theorem insert_error_iff : (context.insert path value scope).1 = .error error ↔
    context.Refuses path scope error := by
  constructor
  · intro failure
    cases located : context.locate path scope with
    | error source =>
      rw [insert, located, Except.error.injEq] at failure
      exact failure ▸ .nowhere located
    | ok location =>
      cases location with
      | data segments =>
        rw [insert_data located] at failure
        exact .blocked located (Value.put_error_iff.mp failure)
      | detached outside rest =>
        rw [insert, located, Except.error.injEq] at failure
        exact failure ▸ .readOnly located (by simp)
      | index n =>
        rw [insert, located, Except.error.injEq] at failure
        exact failure ▸ .readOnly located (by simp)
  · rintro (failed | @⟨location, located, outside⟩ | ⟨located, blocks⟩)
    · rw [insert, failed]
    · rw [insert, located]
      cases location with
      | data segments => exact absurd rfl (outside segments)
      | detached value rest => rfl
      | index n => rfl
    · rw [insert_data located]
      exact Value.put_error_iff.mpr blocks

/-- A write that fails, wherever on its way, leaves the context as it was. It fails exactly where it is
refused, and never once its walk has made something. -/
theorem insert_refused_leaves (context : Context) (path : String) (value : Value) (scope : Scope) :
    (∀ error, (context.insert path value scope).1 = .error error →
      (context.insert path value scope).2 = context) ∧
    (∀ error, (context.insert path value scope).1 = .error error ↔
      context.Refuses path scope error) ∧
    ∀ segments, context.locate path scope = .ok (.data segments) →
      Value.Creates segments context.data → (context.insert path value scope).1 = .ok () := by
  refine ⟨fun error => insert_error, fun error => insert_error_iff, fun segments located creates => ?_⟩
  rw [insert_data located]
  exact Value.put_creates creates

/-- The hours of the second day have no item of that name; the day takes a new field with one below. -/
theorem insert_refused_leaves_hours :
    forecast.locate "_loop.hours.noon.text" secondDay =
      .ok (.data ["days", "1", "hours", "noon", "text"]) ∧
    (forecast.insert "_loop.hours.noon.text" (.string "fog") secondDay).1 =
      .error (.invalidValue "_loop.hours.noon.text" .notAnIndex) ∧
    (forecast.insert "_loop.hours.noon.text" (.string "fog") secondDay).2 = forecast ∧
    (forecast.insert "_loop.wind.noon.text" (.string "calm") secondDay).1 = .ok () := by
  have below {rest : String} (segments : List String)
      (read : Path.split rest = .ok ("_loop" :: segments)) :
      forecast.locate rest secondDay = .ok (.data (["days", "1"] ++ segments)) := by
    rw [locate_of_split read]
    exact locateWithin_loop atPlace_secondDay forecast _ (Path.split_settled read).plain_tail 15
  have located : forecast.locate "_loop.hours.noon.text" secondDay =
      .ok (.data ["days", "1", "hours", "noon", "text"]) :=
    below ["hours", "noon", "text"] rfl
  have locatedWind : forecast.locate "_loop.wind.noon.text" secondDay =
      .ok (.data ["days", "1", "wind", "noon", "text"]) :=
    below ["wind", "noon", "text"] rfl
  obtain ⟨leaves, refused, -⟩ :=
    insert_refused_leaves forecast "_loop.hours.noon.text" (.string "fog") secondDay
  obtain ⟨-, -, creates⟩ :=
    insert_refused_leaves forecast "_loop.wind.noon.text" (.string "calm") secondDay
  have blocks : Value.Blocks "_loop.hours.noon.text" ["days", "1", "hours", "noon", "text"]
      forecast.data (.invalidValue "_loop.hours.noon.text" .notAnIndex) :=
    .inField rfl (.inItem (i := 1) rfl rfl (.inField rfl (.notAnIndex rfl)))
  have failed := (refused _).mpr (.blocked located blocks)
  exact ⟨located, failed, leaves _ failed,
    creates _ locatedWind ⟨["days", "1"], "wind", ["noon", "text"], rainyDay, rfl, rfl,
      Or.inr ⟨_, rfl, rfl⟩⟩⟩

end Context

end Newsreel
